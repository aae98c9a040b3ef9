/-
Anypay.TermsTheorems — who may rewrite the price of an invoice.

The TERMS of an invoice are its amount and its currency. Every call of a
payment's life writes the invoice row: it settles it, confirms it, reverts it,
cancels it, gives it a new expiry. None of them has business with the terms, and
`keeps_…` says so, call by call, for all but one: `handleUnconfirmedPayment`
writes the currency of the payment option over the currency the amount is in
(`terms_rewritten`).

`terms_kept` is about whole runs, calls interleaved in any order: the terms stay
where no such call starts on an invoice that is not priced in the option's
currency. `handleUnconfirmedPayment_keeps_iff` says that for this one function
nothing less will do.
-/
import Anypay.Async.Budget
import Anypay.InvoiceTheorems
import Anypay.PayTheorems

namespace Anypay.Terms

open Store Async Proc

/-! ## Terms -/

/-- What an invoice asks for. -/
structure PriceTerms where
  id : Nat
  uid : String
  amount : Option Rat
  currency : Option String
  deriving DecidableEq

def termsOf (r : Invoice) : PriceTerms := ⟨r.id, r.uid, r.amount, r.currency⟩

/-- The terms of every invoice. -/
def terms (w : World) : List PriceTerms := w.invoices.rows.map termsOf

/-- Every invoice of this uid is priced in this currency. -/
def PricedIn (w : World) (uid currency : String) : Prop :=
  ∀ x ∈ terms w, x.uid = uid → x.currency = some currency

theorem mem_terms {w : World} {r : Invoice} (h : r ∈ w.invoices.rows) : termsOf r ∈ terms w :=
  List.mem_map.mpr ⟨r, h, rfl⟩

/-- The row of an invoice whose terms were seen before. -/
theorem termsOf_eq {s t : World} (h : terms t = terms s) {r r' : Invoice}
    (hr : r ∈ s.invoices.rows) (hr' : r' ∈ t.invoices.rows) (hid : r'.id = r.id) :
    termsOf r' = termsOf r := by
  have hmem : termsOf r ∈ terms t := h ▸ mem_terms hr
  obtain ⟨x, hx, he⟩ := List.mem_map.mp hmem
  have hxid : x.id = r.id := congrArg PriceTerms.id he
  rw [← he, Table.eq_of_id hx hr' (hxid.trans hid.symm)]

/-- A patch that keeps the terms of its row. -/
theorem map_termsOf_patch {rows : List Invoice} {i : Nat} {f : Invoice → Invoice}
    (hf : ∀ r ∈ rows, r.id = i → termsOf (f r) = termsOf r) :
    (Table.patch i f rows).map termsOf = rows.map termsOf := by
  rw [Table.patch, List.map_map]
  refine List.map_congr_left fun r hr => ?_
  simp only [Function.comp]
  split
  · rename_i hi
    exact hf r hr hi
  · rfl

/-! ## Calls that leave the terms alone -/

section Keeps

variable {α : Type}

theorem keeps_of_ledger {p : Task α} (h : p.Keeps World.ledger) : p.Keeps terms := by
  refine always_mono h (fun s t hst => ?_) fun _ h => h
  have hinvoices : t.invoices = s.invoices := (Prod.mk.inj hst).1
  rw [terms, terms, hinvoices]

theorem keeps_updateInvoice {i : Nat} {f : Time → Invoice → Invoice}
    {hid : ∀ t r, Record.id (f t r) = Record.id r}
    (hf : ∀ now r, termsOf (f now r) = termsOf r) :
    (prisma.invoices.update i f hid).Keeps terms := by
  refine keeps_step fun c w => ?_
  cases h : w.invoices.update? i (f c.now) (hid c.now) with
  | ok q =>
      obtain ⟨-, -, -, -, hrows, -⟩ := Table.update?_ok h
      simp only [prisma.invoices, Delegate.commit, h, terms, hrows]
      exact map_termsOf_patch fun r _ _ => hf c.now r
  | error e => simp only [prisma.invoices, Delegate.commit, h]

theorem keeps_settleInvoice {invoice : Invoice} {option : PaymentOption}
    {transaction : Transaction} {status : InvoiceStatus} {f : Time → Invoice → Invoice}
    {hid : ∀ t r, Record.id (f t r) = Record.id r}
    (hf : ∀ now r, termsOf (f now r) = termsOf r) :
    (settleInvoice invoice option transaction status f hid).Keeps terms := by
  refine keeps_step fun c w => ?_
  cases h : w.invoices.update? invoice.id (f c.now) (hid c.now) with
  | ok q =>
      obtain ⟨-, -, -, -, hrows, -⟩ := Table.update?_ok h
      simp only [prisma.invoices, Delegate.commit, terms, hrows]
      exact map_termsOf_patch fun r _ _ => hf c.now r
  | error e => rfl

theorem keeps_completePayment (env : Env) (option : PaymentOption)
    (transaction : Transaction) (confirming : Bool) :
    (completePayment env option transaction confirming).Keeps terms := by
  unfold completePayment
  simp only [bind_eq, pure_eq]
  refine keeps_bind ?_ fun txid => ?_
  · exact keeps_paymentTxid env option _ transaction
  refine keeps_bind keeps_query fun invoice => ?_
  refine keeps_bind (Delegate.keeps_create fun _ _ => rfl) fun record => ?_
  refine keeps_bind (keeps_settleInvoice fun _ _ => rfl) fun _ => ?_
  refine keeps_bind keeps_query fun invoice => ?_
  refine keeps_bind (keeps_detached (keeps_publishEvent _ _)) fun _ => ?_
  exact keeps_bind (keeps_of_ledger (keeps_spawn_ledger _)) fun _ => trivial

theorem keeps_broadcastTransaction (plugin : Plugin) (invoice : Invoice)
    (option : PaymentOption) (transaction : Transaction) :
    (broadcastTransaction plugin invoice option transaction).Keeps terms := by
  have hsend := keeps_of_ledger (keeps_broadcastTx plugin transaction)
  unfold broadcastTransaction
  simp only [bind_eq, pure_eq]
  split
  · refine keeps_bind hsend fun _ => ?_
    exact keeps_bind (keeps_updateInvoice fun _ _ => rfl) fun _ => trivial
  · split
    · refine keeps_bind hsend fun _ => ?_
      exact keeps_bind (keeps_updateInvoice fun _ _ => rfl) fun _ => trivial
    · exact keeps_bind hsend fun _ => trivial

theorem keeps_bip70Payment (env : Env) (uid code : String) (transactions : List String) :
    (bip70Payment env uid code transactions).Keeps terms := by
  unfold bip70Payment bip70Transaction
  simp only [bind_eq, pure_eq]
  refine keeps_bind (keeps_ofExcept _) fun plugin => ?_
  refine keeps_bind keeps_query fun option => ?_
  refine keeps_bind keeps_query fun invoice => ?_
  split
  · exact trivial
  · refine keeps_bind (keeps_forEach fun _ _ => keeps_of_ledger (keeps_spawn_ledger _))
      fun _ => keeps_forEach fun txhex _ => ?_
    refine keeps_bind (keeps_ofExcept _) fun _ => ?_
    refine keeps_bind (keeps_of_ledger (keeps_broadcastTx _ _)) fun _ => ?_
    exact keeps_bind (keeps_completePayment _ _ _ _) fun _ => trivial

theorem keeps_recordPayment (invoice : Invoice) (details : PaymentDetails) :
    (recordPayment invoice details).Keeps terms := by
  unfold recordPayment getPayment
  simp only [bind_eq]
  refine keeps_bind keeps_query fun payment => ?_
  cases payment with
  | some _ => exact trivial
  | none => exact keeps_bind keeps_query fun option => Delegate.keeps_create fun _ _ => rfl

theorem keeps_confirmPayment (payment : Payment) (confirmation : Confirmation) :
    (confirmPayment payment confirmation).Keeps terms := by
  unfold confirmPayment
  simp only [bind_eq, pure_eq]
  split
  · exact trivial
  · refine keeps_bind (Delegate.keeps_update fun _ _ => rfl) fun _ => ?_
    refine keeps_bind keeps_query fun payment => ?_
    refine keeps_bind keeps_query fun invoice => ?_
    refine keeps_bind (keeps_updateInvoice fun _ _ => rfl) fun _ => ?_
    refine keeps_bind (keeps_of_ledger (keeps_publish_ledger _ _)) fun _ => ?_
    exact keeps_bind (keeps_of_ledger (keeps_createAndSendWebhook_ledger _ _)) fun _ => trivial

theorem keeps_confirmIfFound {payment : Payment} {lookUp : Task (Option Confirmation)}
    (h : lookUp.Keeps terms) : (confirmIfFound payment lookUp).Keeps terms := by
  refine keeps_detached (keeps_bind h fun found => ?_)
  cases found with
  | none => exact trivial
  | some confirmation =>
      exact keeps_bind (keeps_confirmPayment payment confirmation) fun _ => trivial

theorem keeps_getConfirmation (env : Env) (txid chain currency : String) :
    (getConfirmation env txid chain currency).Keeps terms :=
  keeps_bind (keeps_ofExcept _) fun _ => keeps_query

theorem keeps_revertPayment (txid : String) : (revertPayment txid).Keeps terms := by
  unfold revertPayment
  simp only [bind_eq]
  refine keeps_bind keeps_query fun invoice => ?_
  refine keeps_bind keeps_query fun payment => ?_
  refine keeps_bind (keeps_updateInvoice fun _ _ => rfl) fun _ => ?_
  refine keeps_bind (Delegate.keeps_update fun _ _ => rfl) fun _ => ?_
  exact keeps_bind keeps_query fun _ => keeps_of_ledger (keeps_publish_ledger _ _)

theorem keeps_cancelInvoice (invoice : Invoice) : (cancelInvoice invoice).Keeps terms := by
  unfold cancelInvoice
  simp only [bind_eq, pure_eq]
  split
  · exact trivial
  · refine keeps_bind (keeps_updateInvoice fun _ _ => rfl) fun _ => ?_
    refine keeps_bind keeps_query fun invoice => ?_
    exact keeps_bind (keeps_detached (keeps_publishEvent _ _)) fun _ => trivial

theorem keeps_refreshInvoice (env : Env) (uid : String) :
    (refreshInvoice env uid).Keeps terms := by
  have houtput : ∀ option destination, (refreshedOutput env option destination).Keeps terms :=
    fun option destination =>
      keeps_bind (keeps_convert _ _) fun _ => keeps_bind (keeps_ofExcept _) fun _ => trivial
  unfold refreshInvoice refreshOption
  simp only [bind_eq, pure_eq]
  refine keeps_bind keeps_query fun invoice => ?_
  refine keeps_bind keeps_query fun options => ?_
  refine keeps_bind keeps_query fun request => ?_
  refine keeps_bind (keeps_forEach fun option _ => ?_) fun _ => ?_
  · split
    · exact trivial
    · refine keeps_bind (keeps_mapAll fun x _ => houtput option x) fun _ => ?_
      refine keeps_bind keeps_query fun _ => ?_
      exact keeps_bind (Delegate.keeps_update fun _ _ => rfl) fun _ => trivial
  · exact keeps_bind (keeps_updateInvoice fun _ _ => rfl) fun _ => trivial

theorem keeps_handleTransactionReceipt (receipt : TransactionReceipt) :
    (handleTransactionReceipt receipt).Keeps terms := by
  unfold handleTransactionReceipt confirmPaymentByTxid
  simp only [bind_eq, pure_eq]
  split
  · exact keeps_of_ledger (keeps_spawn_ledger _)
  · refine keeps_bind (keeps_ask _) fun timestamp => ?_
    refine keeps_bind (keeps_bind keeps_query fun payment => keeps_confirmPayment _ _)
      fun _ => ?_
    refine keeps_bind keeps_query fun found => ?_
    cases found with
    | some _ => exact trivial
    | none => exact keeps_bind (Delegate.keeps_create fun _ _ => rfl) fun _ => trivial

/-- A background call. -/
theorem keeps_runJob (env : Env) (j : Job) : (runJob env j).Keeps terms := by
  have hspawn : ∀ j, (spawn j).Keeps terms := fun j => keeps_of_ledger (keeps_spawn_ledger j)
  cases j with
  | createAndSendWebhook topic payload => exact keeps_of_ledger (keeps_createAndSendWebhook_ledger _ _)
  | sendWebhook webhook => exact keeps_sendWebhook webhook
  | sendWebhookForInvoice uid type => exact keeps_sendWebhookForInvoice _ _
  | createWebhookForInvoice invoice =>
      exact keeps_bind (keeps_createWebhookForInvoice env invoice) fun _ => trivial
  | createPaymentSubmission submission =>
      exact keeps_bind (Delegate.keeps_create fun _ _ => rfl) fun _ => trivial
  | onReceipt txid =>
      refine keeps_bind (keeps_ask _) fun receipt => ?_
      cases receipt with
      | none => exact trivial
      | some receipt =>
          simp only
          split <;> exact hspawn _
  | lookUpReceipt txid =>
      refine keeps_bind (keeps_ask _) fun receipt => ?_
      cases receipt with
      | none => exact trivial
      | some receipt => exact hspawn _
  | handleTransactionReceipt receipt => exact keeps_handleTransactionReceipt receipt
  | revertPayment txid => exact keeps_revertPayment txid

end Keeps

/-! ## The contract -/

/-- Nobody changes the terms, and everybody counts on that. -/
def contract : Contract World Answer Nat where
  answers _ _ _ := True
  rely _ s t := terms t = terms s
  guar g s t g' := g' = g ∧ terms t = terms s
  guar_refl _ _ := ⟨rfl, rfl⟩
  rely_refl _ _ := rfl
  rely_trans h h' := h'.trans h

section Meets

variable {α β : Type} {g : Nat} {s : World}

theorem meets_keeps_bind {R : β → Nat → World → Prop} {p : Task α} {f : α → Task β}
    (hp : p.Keeps terms)
    (hf : ∀ t, terms t = terms s → ∀ a, (f a).Meets contract R Anyhow g t) :
    (p.bind f).Meets contract R Anyhow g s :=
  Proc.meets_keeps_bind hp (fun _ _ h => ⟨⟨rfl, h⟩, h⟩) hf fun _ _ _ => trivial

theorem meets_of_keeps {p : Task α} (hp : p.Keeps terms) :
    p.Meets contract Anyhow Anyhow g s := by
  rw [← Proc.bind_done p]
  exact meets_keeps_bind hp fun _ _ _ _ _ => trivial

theorem PricedIn.of_terms {s t : World} {uid currency : String} (h : PricedIn s uid currency)
    (hst : terms t = terms s) : PricedIn t uid currency := by
  intro x hx
  exact h x (hst ▸ hx)

/-- Where the invoice is priced in the currency of the option, writing that
currency changes nothing. -/
theorem meets_handleUnconfirmedPayment (env : Env) {option : PaymentOption}
    (transaction : Transaction) (h : PricedIn s option.invoice_uid option.currency) :
    (handleUnconfirmedPayment env option transaction).Meets contract Anyhow Anyhow g s := by
  unfold handleUnconfirmedPayment
  simp only [bind_eq, pure_eq]
  refine meets_ofExcept_bind (fun tx _ => ?_) fun _ _ _ => trivial
  refine Delegate.meets_findFirstOrThrow_bind (fun t hst invoice hinvoice hw => ?_)
    fun _ _ _ _ _ => trivial
  have huid : invoice.uid = option.invoice_uid := by simpa using hw
  have hcurrency : invoice.currency = some option.currency :=
    (h.of_terms hst) (termsOf invoice) (mem_terms hinvoice) huid
  refine meets_keeps_bind (Delegate.keeps_create fun _ _ => rfl) fun u htu record => ?_
  refine meets_bind (meets_step fun v huv c _ => ?_)
  -- whoever ran in between, the row still has the terms of the copy read above
  have hsame : ∀ r ∈ v.invoices.rows, r.id = invoice.id → termsOf r = termsOf invoice :=
    fun r hr hid => termsOf_eq (huv.trans htu) hinvoice hr hid
  cases hup : v.invoices.update? invoice.id (fun r =>
      { r with currency := some option.currency, amount := invoice.amount,
               address := option.address,
               hash := some ((nonEmpty transaction.txid).getD tx.hash),
               status := .confirming, paidAt := some c.now, complete := true,
               completed_at := some c.now }) (fun _ => rfl) with
  | error e => exact ⟨g, contract.guar_refl g v, fun _ ha => (by cases ha), fun _ _ _ _ => trivial⟩
  | ok q =>
      obtain ⟨-, -, -, -, hrows, -⟩ := Table.update?_ok hup
      refine ⟨g, ⟨rfl, ?_⟩, fun _ _ u _ => ?_, fun _ he => (by cases he)⟩
      · change q.2.rows.map termsOf = v.invoices.rows.map termsOf
        rw [hrows]
        refine map_termsOf_patch fun r hr hid => ?_
        have hr' := hsame r hr hid
        simp only [termsOf, PriceTerms.mk.injEq] at hr' ⊢
        exact ⟨trivial, trivial, hr'.2.2.1.symm, by rw [hr'.2.2.2, hcurrency]⟩
      · exact meets_keeps_bind (keeps_of_ledger (keeps_publish_ledger _ _))
          fun _ _ _ _ _ => trivial

/-- A payment in this currency is left unconfirmed first. -/
def Waits (env : Env) (currency : String) : Prop :=
  currency = "BTC" ∧ env.requireBtcConfirmations = true

theorem meets_settleTransaction (env : Env) (invoice : Invoice) {option : PaymentOption}
    (transaction : Transaction)
    (h : Waits env option.currency → PricedIn s option.invoice_uid option.currency) :
    (settleTransaction env invoice option transaction).Meets contract Anyhow Anyhow g s := by
  unfold settleTransaction
  simp only [bind_eq, pure_eq]
  split
  · rename_i hwaits
    refine meets_bind (meets_mono (fun record g t _ => ?_) (fun _ _ _ h => h)
      (meets_handleUnconfirmedPayment env transaction (h hwaits)))
    exact meets_of_keeps (keeps_bind (keeps_of_ledger (keeps_spawn_ledger _)) fun _ => trivial)
  · split
    · exact meets_of_keeps (keeps_completePayment _ _ _ _)
    · exact meets_of_keeps (keeps_completePayment _ _ _ _)

theorem meets_submitTransaction (env : Env) (payment : SubmitPaymentRequest)
    (invoice : Invoice) {option : PaymentOption} (plugin : Plugin) (transaction : Transaction)
    (h : Waits env option.currency → PricedIn s option.invoice_uid option.currency) :
    (submitTransaction env payment invoice option plugin transaction).Meets contract Anyhow
      Anyhow g s := by
  unfold submitTransaction
  simp only [bind_eq, pure_eq]
  refine meets_keeps_bind (keeps_ask _) fun t hst verified => ?_
  split
  · exact fun _ _ => trivial
  refine meets_keeps_bind (keeps_broadcastTransaction _ _ _ _) fun u htu transaction' => ?_
  refine meets_bind (meets_mono (fun record g v _ => ?_) (fun _ _ _ h => h)
    (meets_settleTransaction env invoice transaction'
      fun hwaits => ((h hwaits).of_terms hst).of_terms htu))
  split
  · exact fun _ _ => trivial
  · exact meets_of_keeps (keeps_bind (Delegate.keeps_update fun _ _ => rfl) fun _ => trivial)

theorem meets_submitPayment (env : Env) (payment : SubmitPaymentRequest)
    (h : Waits env payment.currency → PricedIn s payment.invoice_uid payment.currency) :
    (submitPayment env payment).Meets contract Anyhow Anyhow g s := by
  unfold submitPayment findPaymentOption
  simp only [bind_eq, pure_eq]
  refine meets_keeps_bind keeps_query fun t hst invoice => ?_
  split
  · exact fun _ _ => trivial
  refine Delegate.meets_findFirst_bind (fun u htu option _ hw => ?_)
    fun _ _ _ => fun _ _ => trivial
  simp only [Bool.and_eq_true, beq_iff_eq] at hw
  obtain ⟨⟨huid, hcurrency⟩, -⟩ := hw
  refine meets_ofExcept_bind (fun plugin _ => ?_) fun _ _ _ => trivial
  refine meets_bind (meets_mono (fun _ _ _ _ _ _ => trivial) (fun _ _ _ h => h)
    (meets_forEach (I := fun _ v => terms v = terms s) (fun _ _ _ hs hst => hst.trans hs)
      (fun transaction _ g v hv => ?_) (htu.trans hst)))
  have hpriced : Waits env option.currency → PricedIn v option.invoice_uid option.currency := by
    rw [huid, hcurrency]
    exact fun hwaits => (h hwaits).of_terms hv
  exact meets_mono (fun _ _ _ h => h.2) (fun _ _ _ _ => trivial)
    (meets_frame (C := contract) (F := fun v => terms v = terms s) (fun hF hst => hst.trans hF)
      (fun hF hst => hst.2.trans hF) hv
      (meets_submitTransaction env payment invoice plugin transaction hpriced))

end Meets

/-! ## Every call of a payment's life -/

/-- A call of the server, or a refresh. -/
inductive Call where
  | op (op : Op)
  | refreshInvoice (uid : String)

def run (env : Env) : Call → Task Unit
  | .op op => program env op
  | .refreshInvoice uid => discard (refreshInvoice env uid)

/-- The call writes no currency over another: it does not leave a payment
unconfirmed, or the invoice it is for is priced in the payment's currency. -/
def Harmless (env : Env) (w : World) : Call → Prop
  | .op (.handleUnconfirmedPayment option _) =>
      PricedIn w option.invoice_uid option.currency
  | .op (.submitPayment payment) =>
      Waits env payment.currency → PricedIn w payment.invoice_uid payment.currency
  | .op (.jsonV2Payment uid currency _ _) => Waits env currency → PricedIn w uid currency
  | .op (.jsonPaymentRequest uid currency _ _ _) =>
      Waits env currency.toUpper → PricedIn w uid currency.toUpper
  | _ => True

theorem meets_run (env : Env) {call : Call} {g : Nat} {s : World} (h : Harmless env s call) :
    (run env call).Meets contract Anyhow Anyhow g s := by
  cases call with
  | refreshInvoice uid =>
      exact meets_of_keeps (keeps_bind (keeps_refreshInvoice env uid) fun _ => trivial)
  | op op =>
      cases op with
      | submitPayment payment => exact meets_discard (meets_submitPayment env payment h)
      | jsonV2Payment uid currency chain transactions =>
          refine meets_discard (Q := Anyhow) (meets_ensurePayable_bind fun t hst _ _ => ?_)
          refine meets_ensurePayable_bind fun u htu invoice huid => ?_
          refine meets_submitPayment env _ fun hwaits => ?_
          rw [huid]
          exact ((h hwaits).of_terms hst).of_terms htu
      | jsonPaymentRequest uid currency chain transactions wallet =>
          exact meets_discard (meets_submitPayment env _ h)
      | bip270Payment uid txhex wallet =>
          refine meets_discard (Q := Anyhow) (meets_keeps_bind keeps_query fun _ _ _ => ?_)
          split
          · exact fun _ _ => trivial
          · exact meets_submitPayment env _ fun hwaits => absurd hwaits.1 (by simp)
      | handleUnconfirmedPayment option transaction =>
          exact meets_discard (meets_handleUnconfirmedPayment env transaction h)
      | completePayment option transaction confirming =>
          exact meets_of_keeps (keeps_bind (keeps_completePayment _ _ _ _) fun _ => trivial)
      | bip70Payment uid code transactions =>
          exact meets_of_keeps (keeps_bip70Payment _ _ _ _)
      | recordPayment invoice details =>
          exact meets_of_keeps (keeps_bind (keeps_recordPayment _ _) fun _ => trivial)
      | cancelInvoice invoice =>
          exact meets_of_keeps (keeps_bind (keeps_cancelInvoice _) fun _ => trivial)
      | cancelRequest uid account_id =>
          refine meets_of_keeps (keeps_bind keeps_query fun found => ?_)
          cases found with
          | none => exact trivial
          | some invoice =>
              simp only
              split
              · exact trivial
              · exact keeps_bind (keeps_cancelInvoice _) fun _ => trivial
      | confirmPayment payment confirmation =>
          exact meets_of_keeps (keeps_bind (keeps_confirmPayment _ _) fun _ => trivial)
      | getConfirmationForTxid txid =>
          refine meets_of_keeps (keeps_bind (keeps_bind keeps_query fun found => ?_)
            fun _ => trivial)
          cases found with
          | none => exact trivial
          | some payment =>
              refine keeps_bind (keeps_getConfirmation _ _ _ _) fun confirmation => ?_
              cases confirmation with
              | none => exact trivial
              | some confirmation =>
                  exact keeps_bind (keeps_confirmPayment _ _) fun _ => trivial
      | confirmTransactionsTick =>
          refine meets_of_keeps (keeps_bind keeps_query fun unconfirmed => ?_)
          exact keeps_forEach fun _ _ => keeps_confirmIfFound (keeps_getConfirmation _ _ _ _)
      | confirmPaymentsCommand chain currency =>
          refine meets_of_keeps (keeps_bind (keeps_ofExcept _) fun plugin => ?_)
          refine keeps_bind keeps_query fun unconfirmed => ?_
          exact keeps_forEach fun _ _ => keeps_confirmIfFound (keeps_ask _)
      | revertPayment txid => exact meets_of_keeps (keeps_revertPayment txid)
      | job j => exact meets_of_keeps (keeps_runJob env j)

/-! ## Runs -/

/-- Only harmless calls start. -/
def harmless (env : Env) (p : Pool World Answer Failure Call) :
    Move Answer Call → Prop
  | .start call => Harmless env p.state call
  | .run _ _ => True

/-- A contract without a budget. -/
theorem thrifty (w : World) :
    Pool.Thrifty contract (fun _ => 0) 0 fun s => terms s = terms w where
  spend h := by
    obtain ⟨rfl, -⟩ := h
    exact le_refl _
  le h := h.1.le
  rely _ h := h.2
  keep h _ hs := h.2.trans hs

/-- **The terms stay.** In every run whose calls start harmlessly, every invoice
has the amount and the currency it had when the run began, in every state on the
way. -/
theorem terms_kept (env : Env) (w : World) (p : Pool World Answer Failure Call)
    (h : Pool.Reaches (run env) (harmless env) (Pool.init w) p) :
    terms p.state = terms w := by
  have hstart : ∀ p call, harmless env p (.start call) → terms p.state = terms w → ∃ g,
      (run env call).Meets contract Anyhow Anyhow g p.state ∧
      (g ≠ 0 → False ∧ (run env call).running = true ∧ p.Idle (fun _ => False) ∧
        0 + g ≤ 0) :=
    fun _ _ hm _ => ⟨0, meets_run env hm, fun hne => absurd rfl hne⟩
  exact (Pool.budget_reaches (thrifty w) hstart (fun _ _ _ _ _ => trivial) (le_refl 0) rfl h).2

/-! ## Exactly -/

/-- The row `handleUnconfirmedPayment` writes may be any of the uid, and the write
goes through where no other invoice has the hash. -/
theorem handleUnconfirmedPayment_keeps_iff (env : Env) (option : PaymentOption)
    (transaction : Transaction) (w : World) :
    (∀ o, terms ((handleUnconfirmedPayment env option transaction).exec o w).2 = terms w) ↔
      ∀ tx, decodeTransaction env option.chain transaction.txhex = .ok tx →
      ∀ r ∈ w.invoices.rows, r.uid = option.invoice_uid →
      w.invoices.taken { r with
        hash := some ((nonEmpty transaction.txid).getD tx.hash) } = false →
      r.currency = some option.currency := by
  constructor
  · intro h tx htx r hr huid hfree
    obtain ⟨n, hn⟩ : ∃ n, w.invoices.pick (fun r => r.uid == option.invoice_uid) n = some r :=
      Table.exists_pick hr (by simpa using huid)
    have hkept := h fun _ => { row := n }
    unfold handleUnconfirmedPayment at hkept
    simp only [bind_eq, pure_eq, htx, Proc.ofExcept, done_bind] at hkept
    rw [Delegate.exec_findFirstOrThrow_bind, show prisma.invoices.get w = w.invoices from rfl,
      hn] at hkept
    simp only [Delegate.exec_create_bind, exec_settleInvoice_bind] at hkept
    split at hkept
    case h_2 e he => exact absurd rfl (Table.insert?_error he).2.choose_spec.2.2
    case h_1 record tb _ =>
      -- the payment is there; the invoice is written next
      split at hkept
      case h_1 row tb' hup =>
        obtain ⟨r₀, hr₀, hid, -, hrows, -⟩ := Table.update?_ok hup
        obtain rfl : r₀ = r := Table.eq_of_id hr₀ hr hid
        change tb'.rows.map termsOf = terms w at hkept
        have hmem : { r₀ with
            currency := some option.currency, amount := r₀.amount, address := option.address,
            hash := some ((nonEmpty transaction.txid).getD tx.hash),
            status := .confirming, paidAt := some 0, complete := true,
            completed_at := some 0 } ∈ tb'.rows := by
          rw [hrows]
          exact List.mem_map.mpr ⟨r₀, hr₀, if_pos rfl⟩
        exact (congrArg PriceTerms.currency
          (termsOf_eq (t := { w with invoices := tb' }) hkept hr₀ hmem rfl)).symm
      case h_2 e hup =>
        rcases Table.update?_error hup with ⟨-, hnone⟩ | ⟨-, r₀, hr₀, hid, x, hx, hne, hk, hs⟩
        · exact absurd rfl (hnone r hr)
        · have htaken : w.invoices.taken { r with
              hash := some ((nonEmpty transaction.txid).getD tx.hash) } = true :=
            Table.taken_iff.mpr ⟨x, hx, hne, hk, hs⟩
          rw [hfree] at htaken
          cases htaken
  · intro h o
    have hrun : (handleUnconfirmedPayment env option transaction).wp AnyAnswer
        (fun _ t => terms t = terms w) (fun _ t => terms t = terms w) w := by
      unfold handleUnconfirmedPayment
      simp only [bind_eq, pure_eq, wp_bind]
      refine wp_ofExcept (fun tx htx => ?_) fun _ _ => rfl
      refine Delegate.wp_findFirstOrThrow (fun r hr hw => ?_) fun _ => rfl
      refine Delegate.wp_create (fun now tb _ _ => ?_) fun _ _ => rfl
      refine wp_settleInvoice (fun now' tb' r' hr' hid hrows _ hfree => ?_) fun _ _ _ => rfl
      obtain rfl : r' = r := Table.eq_of_id hr' hr hid
      have hcurrency := h tx htx r' hr (by simpa using hw) hfree
      have hterms : tb'.rows.map termsOf = w.invoices.rows.map termsOf := by
        rw [hrows]
        refine map_termsOf_patch fun x hx hxid => ?_
        obtain rfl : x = r' := Table.eq_of_id hx hr' hxid
        simp only [termsOf, hcurrency]
      exact wp_of_keeps (keeps_of_ledger (keeps_publish_ledger _ _))
        (fun _ t ht => ht.trans hterms) fun _ t ht => ht.trans hterms
    exact wp_exec_state hrun (anyAnswer o)

/-! ## A price rewritten -/

/-- A server that takes BTC and waits for its confirmations. -/
def patient : Env where
  plugins := [("BTC", { currency := "BTC", chain := "BTC", decimals := 8,
                        bitcore := some fun _ => some { hash := "t", outputs := [] } })]
  requireBtcConfirmations := true

/-- An unpaid invoice of ten of some currency, to be paid in BTC. -/
def quoted (currency : String) : World where
  invoices := .single
    { id := 1, uid := "inv", amount := some 10, currency := some currency, status := .unpaid }
  paymentOptions := .single { id := 1, invoice_uid := "inv", currency := "BTC", chain := "BTC" }

/-- A payment of that invoice. -/
def payment : Call :=
  .op (.submitPayment
    { currency := "BTC", invoice_uid := "inv", transactions := [{ txhex := "00" }] })

/-- The submission, step by step. -/
def paying : List (Move Answer Call) := .start payment :: Pool.steps 0 9 {}

/-- Ten dollars become ten BTC: the terms do not stay in general. -/
theorem terms_rewritten :
    ¬ ∀ (env : Env) (w : World) (p : Pool World Answer Failure Call),
      Pool.Reaches (run env) (fun _ _ => True) (Pool.init w) p →
      terms p.state = terms w := by
  intro h
  have hadm : Pool.Admitted (run patient) (fun _ _ => True) paying
      (Pool.init (quoted "USD")) := by
    refine ⟨trivial, fun q _ => ?_⟩
    exact Pool.admitted_steps (fun _ _ _ => trivial) 0 9 _ q
  obtain ⟨p, hreach, hbtc⟩ := Pool.exists_reaches
    (fun p => terms p.state == [⟨1, "inv", some 10, some "BTC"⟩]) hadm (by decide +kernel)
  have hkept := h patient (quoted "USD") p hreach
  rw [beq_iff_eq.mp hbtc] at hkept
  exact absurd hkept (by decide)

/-- Ten BTC stay ten BTC. -/
theorem terms_kept_btc : ∃ p : Pool World Answer Failure Call,
    Pool.Reaches (run patient) (harmless patient) (Pool.init (quoted "BTC")) p ∧
      (p.state.invoices.rows.map Invoice.status) = [.confirming] ∧
      terms p.state = terms (quoted "BTC") := by
  have hadm : Pool.Admitted (run patient) (harmless patient) paying
      (Pool.init (quoted "BTC")) := by
    refine ⟨fun _ => ?_, fun q _ => ?_⟩
    · unfold PricedIn
      decide
    · exact Pool.admitted_steps (fun _ _ _ => trivial) 0 9 _ q
  obtain ⟨p, hreach, hpaid⟩ := Pool.exists_reaches
    (fun p => p.state.invoices.rows.map Invoice.status == [.confirming]) hadm
    (by decide +kernel)
  rw [beq_iff_eq] at hpaid
  exact ⟨p, hreach, hpaid, terms_kept patient (quoted "BTC") p hreach⟩

end Anypay.Terms
