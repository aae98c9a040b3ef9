/-
Anypay.RefundOnceTheorems — how often an invoice is refunded.

`getRefund` looks for the refund of the invoice, and makes one where there is none:
an app, a payment request with its invoice, the row. Nothing holds these steps
together. Two calls that both find no row make two refunds (`refunded_twice`); a call
that fails after the refund invoice was made leaves it behind, and the next makes
another; and the payment it looks for may be a failed one.

`refunded_once`: at most one row and one refund invoice are made, and only for an
invoice with a payment that has not failed, where calls take turns, nothing was left
behind, and the payments are not all failed ones.
-/
import Anypay.Async.Exclusive
import Anypay.LifecycleTheorems
import Anypay.RefundTheorems

namespace Anypay

open Store Async Proc Lifecycle

namespace RefundOnce

/-! ## Calls -/

/-- `getRefund(invoice, address)`, with some copy of the invoice. -/
structure Call where
  invoice : Invoice
  address : Option String

def code (env : Env) (call : Call) : Task Unit :=
  discard (getRefund env call.invoice call.address)

abbrev Calls := Pool World Answer Failure Call

/-! ## What is promised -/

def refundsOf (uid : String) (w : World) : List Refund :=
  w.refunds.select fun r => r.original_invoice_uid == uid

/-- The invoice has a payment that has not failed. -/
def Live (uid : String) (w : World) : Prop :=
  ∃ p ∈ w.payments.rows, p.invoice_uid = uid ∧ p.status ≠ .failed

/-- Since `w` at most one refund was made, row and invoice, counting one there was;
and none was made for an invoice nobody paid. -/
structure Promised (uid : String) (w t : World) : Prop where
  one_row : (refundsOf uid t).length ≤ 1
  one_invoice :
    (refundsOf uid w).length + t.invoices.rows.length ≤ w.invoices.rows.length + 1
  paid : (refundsOf uid w).length < (refundsOf uid t).length ∨
    w.invoices.rows.length < t.invoices.rows.length → Live uid t

/-- Where this call may start: the refund is there, or nothing of it was made yet;
then some payment has not failed, or the call will find out that there is none, or
it asks for the address of an invoice that its copy says is unpaid. -/
def Fits (uid : String) (w t : World) (call : Call) : Prop :=
  refundsOf uid t ≠ [] ∨
    (t.invoices.rows.length = w.invoices.rows.length ∧
      (Live uid t ∨ (∀ p ∈ t.payments.rows, p.invoice_uid ≠ uid) ∨
        (nonEmpty call.address = none ∧ call.invoice.status = .unpaid)))

/-- Calls for the same original invoice, in any order. -/
def anyOrder (uid : String) (_ : Calls) : Move Answer Call → Prop
  | .start call => call.invoice.uid = uid
  | .run _ _ => True

/-- The calls take turns. -/
def takingTurns (uid : String) (w : World) (p : Calls) : Move Answer Call → Prop
  | .start call => call.invoice.uid = uid ∧ (p.Idle fun _ => True) ∧ Fits uid w p.state call
  | .run _ _ => True

/-! ## The contract -/

/-- How many refunds the invoice has, how many invoices there are, and the
payments. -/
def view (uid : String) (w : World) : Nat × Nat × Table Payment :=
  ((refundsOf uid w).length, w.invoices.rows.length, w.payments)

/-- At every moment. -/
structure Since (uid : String) (w t : World) : Prop where
  promised : Promised uid w t
  refunds : (refundsOf uid w).length ≤ (refundsOf uid t).length
  payments : t.payments = w.payments

/-- The one call under way finds what is seen as it left it. -/
def contract (uid : String) (w : World) : Contract World Answer Bool where
  answers _ _ _ := True
  rely g s t := g = true → view uid t = view uid s
  guar g s t g' := g' = g ∧ (g = false → view uid t = view uid s) ∧
    (Since uid w s → Since uid w t)
  guar_refl _ _ := ⟨rfl, fun _ => rfl, id⟩
  rely_refl _ _ := fun _ => rfl
  rely_trans h h' := fun hg => (h' hg).trans (h hg)

variable {env : Env} {uid : String} {w s t : World} {v : Nat × Nat × Table Payment}

theorem exclusive (uid : String) (w : World) :
    Pool.Exclusive (contract uid w) (Since uid w) fun _ => True where
  same h := h.1
  keep h hs := h.2.2 hs
  rest _ _ := trivial
  outside _ := fun hg => nomatch hg
  inside h := fun _ => h.2.1 rfl

theorem Since.congr (h : Since uid w s) (hview : view uid t = view uid s) : Since uid w t := by
  simp only [view, Prod.mk.injEq] at hview
  obtain ⟨hrefunds, hinvoices, hpayments⟩ := hview
  obtain ⟨⟨hrow, hinvoice, hpaid⟩, hle, hsame⟩ := h
  refine ⟨⟨by omega, by omega, fun hmade => ?_⟩, by omega, hpayments.trans hsame⟩
  rw [Live, hpayments]
  exact hpaid (by omega)

/-- Nothing more is asked of how a call ends. -/
def Ends {α : Type} (_ : α) (_ : Bool) (_ : World) : Prop := True

section Steps

variable {α β : Type}

theorem meets_fail {e : Failure} : (fail e : Task α).Meets (contract uid w) Ends Ends true s :=
  fun _ _ => trivial

theorem meets_silent_bind {p : Task α} {f : α → Task β} (hp : p.Keeps (view uid))
    (hs : view uid s = v)
    (hok : ∀ t a, view uid t = v → (f a).Meets (contract uid w) Ends Ends true t) :
    (p.bind f).Meets (contract uid w) Ends Ends true s := by
  refine meets_keeps_bind hp (fun _ _ h => ⟨⟨rfl, fun _ => h, fun hs => hs.congr h⟩,
    fun _ => h⟩) (fun t hst a => ?_) fun _ _ _ => trivial
  exact hok t a ((hst rfl).trans hs)

/-- An invoice gets other columns: there are as many. -/
theorem keeps_updateInvoice {i : Nat} {f : Time → Invoice → Invoice}
    {hid : ∀ now r, Record.id (f now r) = Record.id r} :
    (prisma.invoices.update i f hid).Keeps (view uid) := by
  refine keeps_step fun c w => ?_
  cases hupdate : w.invoices.update? i (f c.now) (hid c.now) with
  | error e =>
      show view uid (prisma.invoices.commit w (w.invoices.update? i _ _)).2 = _
      rw [hupdate]
      rfl
  | ok q =>
      obtain ⟨row, tb⟩ := q
      obtain ⟨-, -, -, -, hrows, -, -⟩ := Table.update?_ok hupdate
      have hlength : tb.rows.length = w.invoices.rows.length := by
        rw [hrows]
        exact List.length_map _
      show view uid (prisma.invoices.commit w (w.invoices.update? i _ _)).2 = _
      rw [hupdate]
      simp only [view, Delegate.commit, prisma.invoices, refundsOf, hlength]

/-- The refund invoice is made. -/
theorem meets_createInvoice_bind {mk : Time → Nat → Invoice} {k : Invoice → Task β}
    (hid : ∀ now n, Record.id (mk now n) = n) (hlive : Live uid w)
    (hs : view uid s = (0, w.invoices.rows.length, w.payments))
    (hnone : (refundsOf uid w).length = 0)
    (hk : ∀ t a, view uid t = (0, w.invoices.rows.length + 1, w.payments) →
      (k a).Meets (contract uid w) Ends Ends true t) :
    ((prisma.invoices.create mk hid).bind k).Meets (contract uid w) Ends Ends true s := by
  refine Delegate.meets_create_bind (fun t hst now tb hrows => ?_) fun _ _ => trivial
  have ht : view uid t = (0, w.invoices.rows.length, w.payments) := (hst rfl).trans hs
  have hlength : tb.rows.length = t.invoices.rows.length + 1 := by
    rw [hrows]
    exact List.length_append
  simp only [view, Prod.mk.injEq] at ht
  obtain ⟨hrefunds, hinvoices, hpayments⟩ := ht
  have ht' : view uid (prisma.invoices.put t tb) =
      (0, w.invoices.rows.length + 1, w.payments) := by
    simp only [view, prisma.invoices, Prod.mk.injEq]
    exact ⟨hrefunds, by omega, hpayments⟩
  refine ⟨true, ⟨rfl, fun hg => (by cases hg), fun _ => ?_⟩, hk _ _ ht'⟩
  simp only [view, Prod.mk.injEq] at ht'
  obtain ⟨hrefunds', hinvoices', hpayments'⟩ := ht'
  refine ⟨⟨by omega, by omega, fun _ => ?_⟩, by omega, hpayments'⟩
  rw [Live, hpayments']
  exact hlive

/-- The row is made. -/
theorem meets_createRefund {mk : Time → Nat → Refund}
    (hid : ∀ now n, Record.id (mk now n) = n)
    (huid : ∀ now n, (mk now n).original_invoice_uid = uid) (hlive : Live uid w)
    (hs : view uid s = (0, w.invoices.rows.length + 1, w.payments))
    (hnone : (refundsOf uid w).length = 0) :
    (prisma.refunds.create mk hid).Meets (contract uid w) Ends Ends true s := by
  rw [← Proc.bind_done (prisma.refunds.create mk hid)]
  refine Delegate.meets_create_bind (fun t hst now tb hrows => ?_) fun _ _ => trivial
  have ht : view uid t = (0, w.invoices.rows.length + 1, w.payments) := (hst rfl).trans hs
  have hlength : (refundsOf uid (prisma.refunds.put t tb)).length =
      (refundsOf uid t).length + 1 := by
    have hrows' : tb.rows = t.refunds.rows ++ [mk now t.refunds.next] := hrows
    simp [refundsOf, Table.select, prisma.refunds, hrows', huid]
  simp only [view, Prod.mk.injEq] at ht
  obtain ⟨hrefunds, hinvoices, hpayments⟩ := ht
  refine ⟨true, ⟨rfl, fun hg => (by cases hg), fun _ => ?_⟩, fun _ _ => trivial⟩
  have hinvoices' : (prisma.refunds.put t tb).invoices.rows.length =
      w.invoices.rows.length + 1 := hinvoices
  have hpayments' : (prisma.refunds.put t tb).payments = w.payments := hpayments
  refine ⟨⟨by omega, by omega, fun _ => ?_⟩, by omega, hpayments'⟩
  rw [Live, hpayments']
  exact hlive

/-! ## The functions -/

theorem keeps_chooseUid (options : List (String × Json)) :
    (chooseUid options).Keeps (view uid) := by
  unfold chooseUid
  split
  · exact trivial
  · exact keeps_ask _

theorem keeps_updateFromOptions (invoice : Invoice) (options : Json) :
    (updateFromOptions invoice options).Keeps (view uid) := by
  unfold updateFromOptions
  split
  · refine keeps_bind (keeps_ofExcept _) fun _ => ?_
    exact keeps_bind keeps_updateInvoice fun _ => trivial
  · exact trivial

/-- `createPaymentRequest` makes one invoice, or throws before or after it. -/
theorem meets_createPaymentRequest_bind {app_id : Int} {template : List Json}
    {options : Option Json} {k : PaymentRequest → Task β} (hlive : Live uid w)
    (hs : view uid s = (0, w.invoices.rows.length, w.payments))
    (hnone : (refundsOf uid w).length = 0)
    (hk : ∀ t a, view uid t = (0, w.invoices.rows.length + 1, w.payments) →
      (k a).Meets (contract uid w) Ends Ends true t) :
    ((createPaymentRequest env app_id template options).bind k).Meets (contract uid w) Ends
      Ends true s := by
  unfold createPaymentRequest
  simp only [bind_eq, pure_eq, Proc.bind_assoc]
  refine meets_silent_bind (keeps_ofExcept _) hs fun t found ht => ?_
  obtain ⟨currency, amount⟩ := found
  dsimp only
  cases env.paymentRequestTemplate template with
  | none => exact meets_fail
  | some entries =>
      simp only [Proc.bind_assoc]
      refine meets_silent_bind (Delegate.keeps_create fun _ _ => rfl) ht fun u request hu => ?_
      unfold createEmptyInvoice
      simp only [bind_eq, Proc.bind_assoc]
      refine meets_silent_bind (keeps_chooseUid _) hu fun x chosen hx => ?_
      refine meets_silent_bind keeps_query hx fun y app hy => ?_
      refine meets_silent_bind (keeps_ofExcept _) hy fun z data hz => ?_
      refine meets_createInvoice_bind _ hlive hz hnone fun a invoice ha => ?_
      -- the invoice is there; what follows shows no more
      refine meets_silent_bind (keeps_updateFromOptions _ _) ha fun b _ hb => ?_
      refine meets_silent_bind (keeps_ofExcept _) hb fun c webpage_url hc => ?_
      refine meets_silent_bind (Delegate.keeps_update fun _ _ => rfl) hc fun d _ hd => ?_
      refine meets_silent_bind keeps_query hd fun e request hrequest => ?_
      exact meets_silent_bind (keeps_paymentRequestToPaymentOptions (fun _ _ => rfl) _)
        hrequest fun f _ hf => hk f _ hf

/-- The refund is made, where the address is known. -/
theorem meets_makeRefund {invoice : Invoice} {address : String}
    (huid : invoice.uid = uid) (hs : view uid s = (0, w.invoices.rows.length, w.payments))
    (hnone : (refundsOf uid w).length = 0)
    (hlive : Live uid w ∨ ∀ p ∈ w.payments.rows, p.invoice_uid ≠ uid) :
    ((prisma.payments.findFirstOrThrow fun r => r.invoice_uid == invoice.uid).bind
      fun payment => Refunding.makeRefund env invoice address payment).Meets (contract uid w)
        Ends Ends true s := by
  refine Delegate.meets_findFirstOrThrow_bind (fun t hst p hp hpu => ?_)
    fun _ _ _ _ _ => trivial
  have ht : view uid t = (0, w.invoices.rows.length, w.payments) := (hst rfl).trans hs
  have hpayments : t.payments = w.payments := congrArg (fun v => v.2.2) ht
  have hlive' : Live uid w := by
    refine hlive.resolve_right fun hno => ?_
    refine hno p ?_ ((eq_of_beq hpu).trans huid)
    rw [← hpayments]
    exact hp
  unfold Refunding.makeRefund createApp
  refine meets_silent_bind (Delegate.keeps_create fun _ _ => rfl) ht fun u app hu => ?_
  refine meets_createPaymentRequest_bind hlive' hu hnone fun x request hx => ?_
  refine meets_silent_bind (keeps_ofExcept _) hx fun y address hy => ?_
  exact meets_createRefund _ (fun _ _ => huid) hlive' hy hnone

/-- A call that starts alone and at the right moment. -/
theorem meets_getRefund {call : Call} (huid : call.invoice.uid = uid) (hsince : Since uid w s)
    (hfits : Fits uid w s call) :
    (getRefund env call.invoice call.address).Meets (contract uid w) Ends Ends true s := by
  obtain ⟨invoice, address⟩ := call
  unfold getRefund
  simp only [bind_eq, pure_eq]
  refine Delegate.meets_findFirst_bind (fun _ _ _ _ _ _ _ => trivial) fun t hst hno => ?_
  have hview := hst rfl
  have hempty : refundsOf uid t = [] := by
    refine List.filter_eq_nil_iff.mpr fun r hr => ?_
    have hne := hno r hr
    change invoice.uid = uid at huid
    rw [huid] at hne
    simp [hne]
  have hrefunds : (refundsOf uid s).length = 0 := by
    have hsame := congrArg (fun v => v.1) hview
    change (refundsOf uid t).length = (refundsOf uid s).length at hsame
    rw [← hsame, hempty]
    rfl
  obtain ⟨hinvoices, hstart⟩ := hfits.resolve_left
    (not_not_intro (List.eq_nil_of_length_eq_zero hrefunds))
  have hnone : (refundsOf uid w).length = 0 := by
    have hle := hsince.refunds
    omega
  have ht : view uid t = (0, w.invoices.rows.length, w.payments) := by
    rw [hview, view, hrefunds, hinvoices, hsince.payments]
  rw [Live, hsince.payments] at hstart
  unfold refundAddress
  cases haddress : nonEmpty address with
  | some given =>
      have hlive : Live uid w ∨ ∀ p ∈ w.payments.rows, p.invoice_uid ≠ uid := by
        rcases hstart with h | h | ⟨h, -⟩
        · exact .inl h
        · exact .inr h
        · exact absurd (haddress.symm.trans h) (by simp)
      exact meets_makeRefund huid ht hnone hlive
  | none =>
      dsimp only
      by_cases hpaid : invoice.status = .unpaid
      · rw [getAddressForInvoice, if_pos hpaid]
        exact fun _ _ => trivial
      · have hlive : Live uid w ∨ ∀ p ∈ w.payments.rows, p.invoice_uid ≠ uid := by
          rcases hstart with h | h | ⟨-, h⟩
          · exact .inl h
          · exact .inr h
          · exact absurd h hpaid
        rw [getAddressForInvoice, if_neg hpaid]
        exact meets_silent_bind keeps_query ht fun u found hu =>
          meets_makeRefund huid hu hnone hlive

end Steps

/-- An invoice over ten coins, and its payment. -/
def original : Invoice :=
  { id := 1, uid := "inv", status := .paid, amount := some 10, currency := some "BTC",
    hash := some "tx" }

def received : Payment :=
  { id := 1, txid := "tx", currency := "BTC", invoice_uid := "inv", status := .confirmed }

def shop : World :=
  { invoices := .single original, payments := .single received,
    prices := Refunding.counter.prices }

def asked : Call := ⟨original, some "back"⟩

/-- No call is under way, and the invoice has so many refunds. -/
def refunds (n : Nat) (p : Calls) : Bool :=
  p.threads.all (fun th => !th.2.running) && (refundsOf "inv" p.state).length == n

/-- The first call looks for a refund; the second runs to its end, then the first. -/
def bothFindNone : List (Move Answer Call) :=
  [.start asked, .start asked] ++ (Pool.steps 0 1 { shortid := "r2" } ++
    (Pool.steps 1 14 { shortid := "r1" } ++ Pool.steps 0 13 { shortid := "r2" }))

end RefundOnce

end Anypay
