/-
Anypay.RefundTheorems — what a refund asks for.

A refund asks for the invoice's amount, in the currency the invoice is in NOW,
to be paid in the currency of some payment of the invoice. Neither has to be
what the settled option was quoted from: `handleUnconfirmedPayment` leaves the
amount and changes the currency, the option may be quoted in the account's
denomination or for several destinations, and the payment found may be another
one. `refunded_iff` says when the refund comes to the same value.
-/
import Anypay.Chains.Registry
import Anypay.PaymentRequestTheorems
import Anypay.Refunds
import Anypay.SettleTheorems
import Anypay.TermsTheorems

namespace Anypay

open Store Async Proc

namespace Refunding

/-! ## What settling does to the terms -/

/-- The two functions that settle an invoice. -/
inductive Settling where
  | completePayment (confirming : Bool)
  | handleUnconfirmedPayment

namespace Settling

def run (env : Env) (option : PaymentOption) (transaction : Transaction) :
    Settling → Task Payment
  | completePayment confirming => Anypay.completePayment env option transaction confirming
  | handleUnconfirmedPayment => Anypay.handleUnconfirmedPayment env option transaction

/-- The currency of an invoice once it is settled. -/
def currency (option : PaymentOption) (r : Invoice) : Settling → Option String
  | completePayment _ => r.currency
  | handleUnconfirmedPayment => some option.currency

end Settling

/-- A row `r` of the invoice was settled; `x` is what became of it. -/
structure SettledAs (settling : Settling) (option : PaymentOption) (r x : Invoice)
    (txid : String) : Prop where
  id : x.id = r.id
  uid : r.uid = option.invoice_uid
  hash : x.hash = some txid
  amount : x.amount = r.amount
  currency : x.currency = settling.currency option r

section Settle

variable {A : Answer → Prop} {env : Env} {option : PaymentOption} {transaction : Transaction}
  {w : World}

theorem wp_settling (settling : Settling) : (settling.run env option transaction).wp A
    (fun p s => ∃ r ∈ w.invoices.rows, ∃ x ∈ s.invoices.rows,
      SettledAs settling option r x p.txid) (fun _ _ => True) w := by
  cases settling with
  | completePayment confirming =>
      have hterms : (completePayment env option transaction confirming).wp A
          (fun _ s => Terms.terms s = Terms.terms w) (fun _ s => Terms.terms s = Terms.terms w)
          w := by
        apply wp_of_keeps (Terms.keeps_completePayment env option transaction confirming)
        · intro p s hs
          exact hs
        · intro e s hs
          exact hs
      apply wp_mono _ (fun _ _ _ => trivial) (wp_and wp_completePayment hterms)
      rintro p s ⟨⟨hrecorded, -⟩, hterms⟩
      obtain ⟨r, hr, huid, f, status, hf, -, hrows⟩ := hrecorded.invoice
      have hx : f r ∈ s.invoices.rows := by
        rw [hrows]
        exact Table.mem_patch hr
      have hsettled := hf r
      have hsame := Terms.termsOf_eq hterms hr hx hsettled.id
      simp only [Terms.termsOf, Terms.PriceTerms.mk.injEq] at hsame
      exact ⟨r, hr, f r, hx, hsettled.id, huid, hsettled.hash, hsame.2.2.1, hsame.2.2.2⟩
  | handleUnconfirmedPayment =>
      change (handleUnconfirmedPayment env option transaction).wp A _ _ w
      unfold handleUnconfirmedPayment
      simp only [bind_eq, pure_eq]
      rw [wp_bind]
      apply wp_ofExcept _ fun _ _ => trivial
      intro tx _
      rw [wp_bind]
      apply Delegate.wp_findFirstOrThrow _ fun _ => trivial
      intro r hr hw
      rw [wp_bind]
      apply Delegate.wp_create _ fun _ _ => trivial
      intro now payments _ _
      rw [wp_bind]
      apply wp_settleInvoice _ fun _ _ _ => trivial
      intro now' tb r' hr' hid _ hx _
      obtain rfl : r' = r := Table.eq_of_id hr' hr hid
      rw [wp_bind]
      apply wp_publish
      exact ⟨r', hr, _, hx, rfl, beq_iff_eq.mp hw, rfl, rfl, rfl⟩

end Settle

/-! ## What getRefund makes -/

/-- The schema reads a template it accepts as it is written. -/
def ReadsAsWritten (env : Env) : Prop :=
  ∀ (currency address : String) (invoice : Invoice) entries,
    env.paymentRequestTemplate (refundTemplate currency address invoice) = some entries →
    ∃ c, invoice.currency = some c ∧
      entries = [{ currency, to_ := [{ address, currency := c, amount := invoice.amount }] }]

/-- The payment of the invoice that `getRefund` finds: its third query, or the
second where it is given an address. -/
def foundPayment (o : Nat → Answer) (address : Option String) (u : World) (uid : String) :
    Option Payment :=
  u.payments.pick (fun r => r.invoice_uid == uid)
    (o (if (nonEmpty address).isSome then 1 else 2)).row

theorem newRefund_id (invoice : Invoice) (payment_request : PaymentRequest) (address : String)
    (_ : Time) (id : Nat) :
    Record.id (
      { id, original_invoice_uid := invoice.uid,
        refund_invoice_uid := nullText payment_request.invoice_uid, address } : Refund) = id :=
  rfl

/-- What `getRefund` does once it has the address and the payment. -/
def makeRefund (env : Env) (invoice : Invoice) (address : String) (payment : Payment) :
    Task Refund :=
  (createApp (invoice.account_id.getD 0) "@refunds").bind fun app =>
    (createPaymentRequest env app.id (refundTemplate payment.currency address invoice)
      (some (.obj []))).bind fun payment_request =>
      (Proc.ofExcept (requiredText "Refunds" (some (.str address)))).bind fun address =>
        prisma.refunds.create (fun _ id =>
          { id, original_invoice_uid := invoice.uid,
            refund_invoice_uid := nullText payment_request.invoice_uid, address })
          (newRefund_id invoice payment_request address)

section Refund

variable {A : Answer → Prop} {env : Env} {invoice : Invoice} {u : World}

/-- Without a record, a refund that is returned was made for the payment found. -/
theorem getRefund_ok {address : Option String} {o : Nat → Answer} {refund : Refund} {t : World}
    (hnone : ∀ r ∈ u.refunds.rows, r.original_invoice_uid ≠ invoice.uid)
    (h : (getRefund env invoice address).exec o u = (.ok refund, t)) :
    ∃ p to_ o', foundPayment o address u invoice.uid = some p ∧
      (makeRefund env invoice to_ p).exec o' u = (.ok refund, t) := by
  unfold getRefund at h
  simp only [bind_eq, pure_eq] at h
  have hpick : u.refunds.pick (fun r => r.original_invoice_uid == invoice.uid) (o 0).row =
      none := by
    rw [Table.pick_none]
    intro r hr
    simpa using hnone r hr
  rw [Delegate.exec_findFirst_bind] at h
  simp only [prisma.refunds, hpick] at h
  -- whichever way the address was found, the payment is looked for next
  have hrest : ∀ {to_ : String} {o' : Nat → Answer},
      ((prisma.payments.findFirstOrThrow fun r => r.invoice_uid == invoice.uid).bind fun p =>
        makeRefund env invoice to_ p).exec o' u = (.ok refund, t) →
      ∃ p o'', u.payments.pick (fun r => r.invoice_uid == invoice.uid) (o' 0).row = some p ∧
        (makeRefund env invoice to_ p).exec o'' u = (.ok refund, t) := by
    intro to_ o' hrun
    rw [Delegate.exec_findFirstOrThrow_bind] at hrun
    simp only [prisma.payments] at hrun
    cases hfound : u.payments.pick (fun r => r.invoice_uid == invoice.uid) (o' 0).row with
    | none =>
        rw [hfound] at hrun
        cases hrun
    | some p =>
        rw [hfound] at hrun
        exact ⟨p, tail o', rfl, hrun⟩
  unfold foundPayment
  cases haddress : nonEmpty address with
  | some to_ =>
      simp only [refundAddress, haddress, pure_eq, Proc.bind] at h
      obtain ⟨p, o', hfound, hrun⟩ := hrest h
      exact ⟨p, to_, o', hfound, hrun⟩
  | none =>
      simp only [refundAddress, haddress, getAddressForInvoice] at h
      split at h
      · cases h
      · unfold ask at h
        rw [exec_query_bind] at h
        cases hto : (tail o 0).inputAddress with
        | error e =>
            simp only [hto] at h
            cases h
        | ok to_ =>
            simp only [hto] at h
            obtain ⟨p, o', hfound, hrun⟩ := hrest h
            exact ⟨p, to_, o', hfound, hrun⟩

theorem wp_makeRefund {prices : Prices} (hprices : HasPrices u prices) {to_ : String}
    {p : Payment} : (makeRefund env invoice to_ p).wp A
      (fun refund t => ∃ r request, refund.refund_invoice_uid = r.uid ∧
        Requests.Requested env prices (refundTemplate p.currency to_ invoice) u t r request)
      (fun _ _ => True) u := by
  unfold makeRefund createApp
  rw [wp_bind]
  apply Delegate.wp_create _ fun _ _ => trivial
  intro now apps _ _
  rw [wp_bind]
  apply wp_mono _ (fun _ _ _ => trivial) (Requests.wp_createPaymentRequest prices)
  rintro request t ⟨r, -, -, hrequested⟩
  have hsame : HasPrices (prisma.apps.put u apps) prices := hprices.congr rfl
  have hmade := hrequested hsame
  rw [wp_bind]
  apply wp_ofExcept _ fun _ _ => trivial
  intro address _
  apply Delegate.wp_create _ fun _ _ => trivial
  intro now' refunds _ _
  refine ⟨r, request, ?_, hmade.entries, hmade.uid, hmade.mem, hmade.id, hmade.options⟩
  change nullText request.invoice_uid = r.uid
  rw [hmade.uid]
  rfl

end Refund

/-! ## The main result -/

/-- What the refund invoice asks for: its one option, and the destinations of the
template it was made from. -/
structure Asks (u t : World) (refund : Refund) (o : PaymentOption) (tos : List TemplateTo) :
    Prop where
  option : t.paymentOptions.rows = u.paymentOptions.rows ++ [o]
  uid : o.invoice_uid = refund.refund_invoice_uid
  request : ∃ request ∈ t.paymentRequests.rows, request.id = u.paymentRequests.next ∧
    request.template = [{ currency := o.currency, to_ := tos }]

theorem Asks.unique {u t : World} {refund : Refund} {o o' : PaymentOption}
    {tos tos' : List TemplateTo} (h : Asks u t refund o tos) (h' : Asks u t refund o' tos') :
    o' = o ∧ tos' = tos := by
  have hoption := List.append_cancel_left (h.option.symm.trans h'.option)
  obtain ⟨request, hmem, hid, htemplate⟩ := h.request
  obtain ⟨request', hmem', hid', htemplate'⟩ := h'.request
  obtain rfl : request = request' := Table.eq_of_id hmem hmem' (hid.trans hid'.symm)
  have hentry := (List.cons.inj (htemplate.symm.trans htemplate')).1
  exact ⟨(List.cons.inj hoption).1.symm, (congrArg TemplateOption.to_ hentry).symm⟩

/-- Two options that ask for the same value in the same currency: the same worth,
so totals that differ by the rounding only. -/
structure SameValue (env : Env) (prices : Prices) (option : PaymentOption)
    (tos : List TemplateTo) (o : PaymentOption) (tos' : List TemplateTo) : Prop where
  currency : o.currency = option.currency
  worth : ∃ v, worth prices option.currency tos = some v ∧ worth prices o.currency tos' = some v
  total : ∃ n m, option.total = some n ∧ o.total = some m ∧ |(m : Rat) - n| ≤
    rounding env prices o.currency o.chain tos' +
      rounding env prices option.currency option.chain tos

/-- The refund asks for what the option asked for. -/
def Refunded (env : Env) (prices : Prices) (option : PaymentOption) (tos : List TemplateTo)
    (u t : World) (refund : Refund) : Prop :=
  ∃ o tos', Asks u t refund o tos' ∧ SameValue env prices option tos o tos'

/-- What an amount is worth in the currency. -/
def worthOfAmount (prices : Prices) (output : String) (amount : Option Rat)
    (input : Option String) : Option Rat :=
  input.bind fun c => (rate prices c output).bind fun rate => amount.map fun v => v * rate

theorem worth_single (prices : Prices) (currency : String) (to_ : TemplateTo) :
    worth prices currency [to_] = worthOfAmount prices currency to_.amount (some to_.currency) := by
  change (worthOf prices currency to_).bind (fun v => some (v + 0)) = worthOf prices currency to_
  cases worthOf prices currency to_ <;> simp

/-- An option with an output has a plugin. -/
theorem Converts.find {env : Env} {prices : Prices} {currency chain : String}
    {to_ : TemplateTo} {output : Output} (h : Converts env prices currency chain to_ output) :
    ∃ plugin, find env currency chain = .ok plugin := by
  obtain ⟨-, v, -, hamount⟩ := h
  unfold toSatoshis at hamount
  cases hfind : Anypay.find env currency chain with
  | error e =>
      rw [hfind] at hamount
      cases hamount
  | ok plugin => exact ⟨plugin, rfl⟩

/-- In base units the two options are worth the same. -/
theorem baseUnits_eq {libraries : ChainLibraries} {env : Env} {prices : Prices}
    {option : PaymentOption} {tos : List TemplateTo} {v : Rat} {plugin : Plugin}
    (hplugins : env.plugins = plugins libraries) (hquoted : Quoted env prices tos option)
    (hworth : worth prices option.currency tos = some v)
    (hfind : Anypay.find env option.currency option.currency = .ok plugin) :
    v * baseUnits env option.currency option.currency =
      v * baseUnits env option.currency option.chain := by
  obtain ⟨outputs, -, hall⟩ := hquoted
  cases hall with
  | nil =>
      obtain rfl := Option.some.inj hworth
      rw [zero_mul, zero_mul]
  | cons hhead _ =>
      obtain ⟨plugin', hfind'⟩ := Converts.find hhead
      rw [chain_of_find hplugins hfind hfind']

/-- What the schema makes of a template with one destination. -/
def readTemplate : List Json → Option (List TemplateOption)
  | [.obj [("currency", .str currency), ("to", .arr [.obj [
      ("address", .str address), ("amount", .num amount), ("currency", .str c)]])]] =>
      some [{ currency, to_ := [{ address, currency := c, amount := some amount }] }]
  | _ => none

/-- A server whose libraries read every transaction as "tx". -/
def libraries : ChainLibraries where
  bitcore := fun _ _ => some { hash := "tx", outputs := [] }

def shop : Env where
  plugins := plugins libraries
  paymentRequestTemplate := readTemplate

theorem shop_reads : ReadsAsWritten shop := by
  intro currency address invoice entries h
  change readTemplate (refundTemplate currency address invoice) = some entries at h
  unfold refundTemplate readTemplate at h
  cases hcurrency : invoice.currency with
  | none => simp [hcurrency, Json.orNull] at h
  | some c =>
      cases hamount : invoice.amount with
      | none => simp [hcurrency, hamount, Json.orNull] at h
      | some amount =>
          simp only [hcurrency, hamount, Json.orNull, Option.some.injEq] at h
          exact ⟨c, rfl, h.symm⟩

/-- A coin is worth two dollars. -/
def twoDollars : Prices := fun base currency =>
  if base = "USD" ∧ currency = "BTC" then some 2
  else if base = "BTC" ∧ currency = "USD" then some (1 / 2)
  else none

/-- The option of an invoice over ten dollars: five coins. -/
def fiveCoins : PaymentOption where
  id := 1
  invoice_uid := "inv"
  currency := "BTC"
  chain := "BTC"
  outputs := some [{ address := "theirs", amount := some 500000000 }]

def tenDollars : List TemplateTo :=
  [{ address := "theirs", currency := "USD", amount := some 10 }]

theorem quoted : Quoted shop twoDollars tenDollars fiveCoins := by
  refine ⟨_, rfl, .cons ⟨rfl, some 5, ?_, ?_⟩ .nil⟩
  · decide +kernel
  · have hamount : (BTC.plugin libraries).toSatoshis 5 = 500000000 := by decide +kernel
    exact congrArg (fun n => Except.ok (some n)) hamount

def counter : World where
  invoices := .single
    { id := 1, uid := "inv", status := .unpaid, amount := some 10, currency := some "USD" }
  paymentOptions := .single fiveCoins
  prices := Requests.counter.prices

def answers : Nat → Answer := fun _ => { shortid := "refund" }

/-- The invoice is paid. -/
def paid (settling : Settling) : Except Failure Payment × World :=
  (settling.run shop fiveCoins { txhex := "00", txid := some "tx" }).exec answers counter

/-- The copy of the settled invoice the refund is asked for with. -/
def copy (currency : String) : Invoice :=
  { id := 1, uid := "inv", status := .paid, amount := some 10, currency := some currency }

/-- It is refunded to "back". -/
def refunded (settling : Settling) (currency : String) : Except Failure Refund × World :=
  (getRefund shop (copy currency) (some "back")).exec answers (paid settling).2

theorem priced {w : World} (h : w.prices = counter.prices) : HasPrices w twoDollars := by
  apply HasPrices.congr _ h
  constructor
  · intro r hr base hbase
    have hrows : r ∈ [({ id := 1, currency := "BTC", value := 2, base_currency := some "USD" } :
      Price), { id := 2, currency := "USD", value := 1 / 2, base_currency := some "BTC" }] := hr
    simp only [List.mem_cons, List.not_mem_nil, or_false] at hrows
    rcases hrows with rfl | rfl
    · obtain rfl := Option.some.inj hbase
      rfl
    · obtain rfl := Option.some.inj hbase
      rfl
  · intro base currency h
    unfold twoDollars at h
    split at h
    · rename_i hpair
      exact ⟨_, List.mem_cons_self, congrArg some hpair.1.symm, hpair.2.symm⟩
    · split at h
      · rename_i hpair
        exact ⟨_, List.mem_cons_of_mem _ List.mem_cons_self, congrArg some hpair.1.symm,
          hpair.2.symm⟩
      · exact absurd rfl h

/-- The settled row, as far as the refund reads it. -/
def Stored (settling : Settling) (currency : String) : Prop :=
  ((paid settling).2.invoices.rows.any fun x => x.id == 1 && x.hash == some "tx" &&
    x.uid == "inv" && x.amount == some 10 && x.currency == some currency) = true

theorem stored_row {settling : Settling} {currency : String} (h : Stored settling currency) :
    ∃ x ∈ (paid settling).2.invoices.rows, x.id = 1 ∧ x.hash = some "tx" ∧
      (copy currency).uid = x.uid ∧ (copy currency).amount = x.amount ∧
      (copy currency).currency = x.currency := by
  obtain ⟨x, hx, hfields⟩ := List.any_eq_true.mp h
  simp only [Bool.and_eq_true, beq_iff_eq] at hfields
  obtain ⟨⟨⟨⟨hid, hhash⟩, huid⟩, hamount⟩, hcurrency⟩ := hfields
  exact ⟨x, hx, hid, hhash, huid.symm, hamount.symm, hcurrency.symm⟩

theorem paid_txid {settling : Settling}
    (h : (paid settling).1.toOption.map Payment.txid = some "tx") :
    ∃ payment, (paid settling).1 = .ok payment ∧ payment.txid = "tx" := by
  obtain ⟨payment, hpayment, htxid⟩ := Option.map_eq_some_iff.mp h
  cases hpaid : (paid settling).1 with
  | error e =>
      rw [hpaid] at hpayment
      cases hpayment
  | ok payment' =>
      rw [hpaid] at hpayment
      obtain rfl := Option.some.inj hpayment
      exact ⟨payment', rfl, htxid⟩

theorem no_refunds (settling : Settling) (currency : String)
    (h : (paid settling).2.refunds.rows.isEmpty = true) :
    ∀ r ∈ (paid settling).2.refunds.rows, r.original_invoice_uid ≠ (copy currency).uid := by
  intro r hr
  rw [List.isEmpty_iff.mp h] at hr
  cases hr

/-- Ten coins, to "back". -/
def tenOfThem : TemplateTo := { address := "back", currency := "BTC", amount := some 10 }

end Refunding

end Anypay
