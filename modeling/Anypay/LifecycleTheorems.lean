/-
Anypay.LifecycleTheorems — what each step in the life of an invoice writes and
what it publishes, run alone.

`SettleTheorems` says what paying writes; here the messages are added, and the
other functions: cancelling, confirming, reverting, creating. One rule each
(`wp_…_told`), with the outcome of a call that throws half way, since nothing is
taken back and what was published stays published.
-/
import Anypay.BlockTheorems
import Anypay.ConfirmedEventTheorems
import Anypay.InvoiceTheorems
import Anypay.PaymentRequestTheorems
import Anypay.SettleTheorems
import Anypay.WebsocketTheorems

namespace Anypay

open Store Async Proc Session Confirming

namespace Lifecycle

variable {env : Env} {option : PaymentOption} {transaction : Transaction} {s : World}

/-! ## Paying -/

/-- The event `completePayment` makes of the invoice it reads back. -/
def paidEvent (option : PaymentOption) (txid : String) (invoice : Invoice) : Event :=
  { topic := "invoice.paid",
    account_id := orUndefined invoice.account_id, app_id := orUndefined invoice.app_id,
    body := [
      ("invoice", .obj [
        ("uid", .str invoice.uid), ("status", .str invoice.status.toString)]),
      ("payment", .obj [
        ("chain", .str (orElse (some option.chain) option.currency)),
        ("currency", .str option.currency), ("txid", .str txid), ("status", .str "paid")])] }

/-- The event is accepted where the status holds the word. -/
theorem paidEvent_passes (option : PaymentOption) (txid : String) (invoice : Invoice) :
    passes "invoice.paid" (paidEvent option txid invoice) =
      regexTest "paid" invoice.status.toString := by
  have htopic : regexTest "invoice.paid" "invoice.paid" = true := by decide +kernel
  rw [passes, getSchema_paid]
  cases hpaid : regexTest "paid" invoice.status.toString <;>
    cases haccount : orUndefined invoice.account_id <;>
    cases happ : orUndefined invoice.app_id <;>
    simp [paidEvent, Event.toJson, optionalId, haccount, happ, InvoicePaidEvent, eventSchema,
      matching, paymentField, Schema.parse, Schema.parseFields, Json.field, Json.ofInt, htopic,
      hpaid]

/-- The status `completePayment` gives the invoice. -/
def statusOf (confirming : Bool) : InvoiceStatus := if confirming then .confirming else .paid

/-- The event is published, or only its log line, after the invoice was settled;
a call that throws has published nothing. -/
theorem wp_completePayment_told {confirming : Bool} :
    (completePayment env option transaction confirming).wp AnyAnswer
      (fun p t => Recorded option transaction s t p ∧
        SettledTo (statusOf confirming) option s t p ∧
        ∃ r ∈ t.invoices.rows, r.uid = option.invoice_uid ∧
          t.published = s.published ++ publications ("invoice.paid", paidEvent option p.txid r))
      (fun _ t => Stuck option s t ∧ t.published = s.published) s := by
  unfold completePayment
  simp only [bind_eq, pure_eq]
  rw [wp_bind]
  refine wp_mono (fun txid t ht => ?_) (fun _ t ht => ?_) wp_paymentTxid
  swap
  · subst ht
    exact ⟨.refl option t, rfl⟩
  obtain ⟨rfl, -⟩ := ht
  rw [wp_bind]
  refine Delegate.wp_findFirstOrThrow (fun r hr hw => ?_) fun _ => ⟨.refl option t, rfl⟩
  refine wp_create_settle hr (by simpa using hw) (fun _ _ => ⟨rfl, rfl, rfl, rfl⟩)
    (fun now x => ⟨rfl, rfl, rfl, rfl, rfl, ?_, rfl, fun h => (by cases h),
      fun h => (by cases h)⟩)
    (fun p u htxid hrecorded hsettled hsilent => ?_)
    fun _ _ _ _ _ _ hsilent hstuck => ⟨hstuck, hsilent⟩
  · cases confirming <;> simp
  simp only [wp_bind]
  refine Delegate.wp_findFirstOrThrow (fun r' hr' hw' => ?_) fun hnone => ?_
  · refine wp_publishEvent ("invoice.paid", paidEvent option txid r') (wp_spawn ?_)
    subst htxid
    refine ⟨hrecorded.of_same ⟨rfl, rfl, rfl, rfl, rfl⟩, hsettled, r', hr', by simpa using hw', ?_⟩
    show u.published ++ _ = _
    rw [hsilent]
  · obtain ⟨r', hr', huid, -⟩ := hrecorded.settled
    exact absurd huid (by simpa using hnone r' hr')

theorem wp_handleUnconfirmedPayment_told :
    (handleUnconfirmedPayment env option transaction).wp AnyAnswer
      (fun p t => Recorded option transaction s t p ∧ SettledTo .confirming option s t p ∧
        t.published = s.published ++ [("payment.confirming", p.toJson)])
      (fun _ t => Stuck option s t ∧ t.published = s.published) s := by
  unfold handleUnconfirmedPayment
  simp only [bind_eq, pure_eq]
  rw [wp_bind]
  refine wp_ofExcept (fun tx _ => ?_) fun _ _ => ⟨.refl option s, rfl⟩
  rw [wp_bind]
  refine Delegate.wp_findFirstOrThrow (fun r hr hw => ?_) fun _ => ⟨.refl option s, rfl⟩
  refine wp_create_settle hr (by simpa using hw) (fun _ _ => ⟨rfl, rfl, rfl, rfl⟩)
    (fun now x => ⟨rfl, rfl, rfl, rfl, rfl, .inl rfl, rfl, fun h => (by cases h),
      fun h => (by cases h)⟩)
    (fun p t htxid hrecorded hsettled hsilent => ?_)
    fun _ _ _ _ _ _ hsilent hstuck => ⟨hstuck, hsilent⟩
  rw [wp_bind]
  refine wp_publish ⟨hrecorded.of_same ⟨rfl, rfl, rfl, rfl, rfl⟩, hsettled, ?_⟩
  show t.published ++ _ = _
  rw [hsilent]

/-! ## Confirming -/

/-- What `confirmPayment` with this copy of a payment leaves behind. -/
inductive ConfirmOutcome (payment : Payment) (confirmation : Confirmation) (s t : World) :
    Prop where
  /-- The copy was confirmed already, or the row is gone. -/
  | nothing (payments : t.payments = s.payments) (invoices : t.invoices = s.invoices)
      (published : t.published = s.published)
  /-- The payment has no invoice: it is confirmed, and the call throws. -/
  | orphan (p : Payment) (row : p ∈ s.payments.rows) (id : p.id = payment.id)
      (payments : t.payments.rows = Table.patch p.id (confirmed · confirmation) s.payments.rows)
      (invoices : t.invoices = s.invoices)
      (gone : ∀ r ∈ s.invoices.rows, r.uid ≠ p.invoice_uid)
      (published : t.published = s.published)
  /-- Both rows are written; the webhooks may throw. -/
  | confirmed (p : Payment) (row : p ∈ s.payments.rows) (id : p.id = payment.id)
      (payments : t.payments.rows = Table.patch p.id (confirmed · confirmation) s.payments.rows)
      (r : Invoice) (invoice : r ∈ s.invoices.rows) (uid : r.uid = p.invoice_uid)
      (invoices : t.invoices.rows =
        Table.patch r.id (fun r => { r with status := .paid }) s.invoices.rows)
      (published : t.published =
        s.published ++ [("payment.confirmed", (confirmed p confirmation).toJson)])

theorem wp_confirmPayment_told (payment : Payment) (confirmation : Confirmation) :
    (confirmPayment payment confirmation).wp AnyAnswer
      (fun _ t => ConfirmOutcome payment confirmation s t)
      (fun _ t => ConfirmOutcome payment confirmation s t) s := by
  unfold confirmPayment
  split
  · exact .nothing rfl rfl rfl
  · simp only [bind_eq, pure_eq]
    rw [wp_bind]
    refine Delegate.wp_update (fun now tb p hp hid hrows _ => ?_) fun _ _ _ => ?_
    swap
    · exact .nothing rfl rfl rfl
    have hid' : payment.id = p.id := Eq.symm hid
    rw [hid'] at hrows
    rw [wp_bind]
    refine Delegate.wp_findFirstOrThrow (fun p' hp' hw => ?_) fun hnone => ?_
    · have hthere : confirmed p confirmation ∈ tb.rows := by
        rw [hrows]
        exact Table.mem_patch (f := (confirmed · confirmation)) hp
      obtain rfl : p' = confirmed p confirmation :=
        Table.eq_of_id hp' hthere ((eq_of_beq hw).trans hid')
      rw [wp_bind]
      refine Delegate.wp_findFirstOrThrow (fun r hr hw' => ?_) fun hnone => ?_
      · have huid : r.uid = p.invoice_uid := eq_of_beq hw'
        rw [wp_bind]
        refine Delegate.wp_update (fun now' tb' r' hr' hri hrows' _ => ?_) fun _ te hte => ?_
        · have hout : ∀ v : World, (v.payments, v.invoices, v.published) =
              (tb, tb', s.published ++
                [("payment.confirmed", (confirmed p confirmation).toJson)]) →
              ConfirmOutcome payment confirmation s v := by
            intro v hv
            obtain ⟨hpay, hrest⟩ := Prod.mk.inj hv
            obtain ⟨hinv, hpub⟩ := Prod.mk.inj hrest
            exact .confirmed p hp hid (hpay ▸ hrows) r hr huid (hinv ▸ hrows') hpub
          rw [wp_bind]
          refine wp_publish ?_
          rw [wp_bind]
          have hkeeps : ∀ topic payload, (createAndSendWebhook topic payload).Keeps
              fun w => (w.payments, w.invoices, w.published) :=
            fun topic payload => keeps_createAndSendWebhook topic payload
          exact wp_of_keeps (hkeeps _ _) (fun _ v hv => hout v hv)
            fun _ v hv => hout v hv
        · exact absurd hte (Table.update?_ne_error hr rfl rfl)
      · refine .orphan p hp hid hrows rfl (fun r hr huid => ?_) rfl
        have hno := hnone r hr
        simp [confirmed, huid] at hno
    · have hthere : confirmed p confirmation ∈ tb.rows := by
        rw [hrows]
        exact Table.mem_patch (f := (confirmed · confirmation)) hp
      have hno := hnone _ hthere
      simp [confirmed, hid'] at hno

/-- What `confirmTransaction` of blockcypher with this copy of a payment leaves
behind. -/
inductive BlockOutcome (payment : Payment) (s t : World) : Prop where
  /-- The block was not there to be had, or the payment's row is gone. -/
  | nothing (payments : t.payments = s.payments) (invoices : t.invoices = s.invoices)
      (published : t.published = s.published)
  /-- The payment has no invoice. -/
  | orphan (p : Payment) (payments : t.payments = s.payments)
      (invoices : t.invoices = s.invoices)
      (published : t.published = s.published ++ [("payment.confirmed", p.toJson)])
  | met (p : Payment) (payments : t.payments = s.payments)
      (r : Invoice) (invoice : r ∈ s.invoices.rows) (uid : r.uid = payment.invoice_uid)
      (invoices : t.invoices.rows =
        Table.patch r.id (fun r => { r with status := .paid }) s.invoices.rows)
      (published : t.published = s.published ++ Blocks.told p r)

theorem wp_confirmTransaction_told (payment : Payment) (found : Option Confirmation) :
    (confirmTransaction payment found).wp AnyAnswer
      (fun _ t => BlockOutcome payment s t) (fun _ t => BlockOutcome payment s t) s := by
  have hblock : (blockOf found).wp AnyAnswer (fun _ t => t = s)
      (fun _ t => BlockOutcome payment s t) s := by
    cases found with
    | some transaction => exact rfl
    | none => exact wp_ask (fun _ _ _ _ => rfl) fun _ => .nothing rfl rfl rfl
  unfold confirmTransaction
  simp only [bind_eq, pure_eq]
  rw [wp_bind]
  refine wp_mono (fun _ t ht => ?_) (fun _ _ h => h) hblock
  rw [ht, wp_bind]
  refine Delegate.wp_findFirstOrThrow (fun p _ _ => ?_) fun _ => .nothing rfl rfl rfl
  rw [wp_bind]
  refine wp_publish ?_
  rw [wp_bind]
  refine Delegate.wp_findFirstOrThrow (fun r hr hw => ?_) fun _ => .orphan p rfl rfl rfl
  rw [wp_bind]
  refine Delegate.wp_update (fun now tb x _ _ hrows _ => ?_) fun now te hte => ?_
  swap
  · exact absurd hte (Table.update?_ne_error hr rfl rfl)
  have hpaid : { r with status := .paid } ∈ tb.rows := by
    rw [hrows]
    exact Table.mem_patch (f := fun r : Invoice => { r with status := .paid }) hr
  rw [wp_bind]
  refine Delegate.wp_findFirstOrThrow (fun x hx hxid => ?_) fun hnone => ?_
  swap
  · have hno := hnone _ hpaid
    simp at hno
  obtain rfl : x = { r with status := .paid } := Table.eq_of_id hx hpaid (eq_of_beq hxid)
  have huid : r.uid = payment.invoice_uid := eq_of_beq hw
  by_cases hconfirming : r.status = .confirming
  · rw [if_pos hconfirming, wp_bind]
    refine wp_publish ?_
    rw [wp_bind]
    refine wp_spawn (.met p rfl r hr huid hrows ?_)
    show (s.published ++ _) ++ _ = _
    rw [Blocks.told, if_pos hconfirming, List.append_assoc]
    rfl
  · rw [if_neg hconfirming, wp_bind]
    refine wp_spawn (.met p rfl r hr huid hrows ?_)
    rw [Blocks.told, if_neg hconfirming]
    rfl

/-! ## Reverting -/

/-- What `revertPayment` for this transaction id leaves behind. -/
inductive RevertOutcome (txid : String) (s t : World) : Prop where
  /-- No invoice has the id for its hash, or no payment has it. -/
  | nothing (payments : t.payments = s.payments) (invoices : t.invoices = s.invoices)
      (published : t.published = s.published)
  | reverted (r : Invoice) (invoice : r ∈ s.invoices.rows) (hash : r.hash = some txid)
      (p : Payment) (row : p ∈ s.payments.rows) (txid_eq : p.txid = txid)
      (invoices : t.invoices.rows =
        Table.patch r.id (fun r => { r with status := .unpaid, hash := none }) s.invoices.rows)
      (payments : t.payments.rows =
        Table.patch p.id (fun p => { p with status := .failed }) s.payments.rows)
      (published : ∃ (p : Payment) (r : Invoice), t.published = s.published ++
        [("payment.reverted", .obj [("payment", p.toJson), ("invoice", r.toJson)])])

theorem wp_revertPayment_told (txid : String) :
    (revertPayment txid).wp AnyAnswer (fun _ t => RevertOutcome txid s t)
      (fun _ t => RevertOutcome txid s t) s := by
  unfold revertPayment
  simp only [bind_eq]
  rw [wp_bind]
  refine Delegate.wp_findFirstOrThrow (fun r hr hw => ?_) fun _ => .nothing rfl rfl rfl
  have hhash : r.hash = some txid := eq_of_beq hw
  rw [wp_bind]
  refine Delegate.wp_findFirstOrThrow (fun p hp hw' => ?_) fun _ => .nothing rfl rfl rfl
  have htxid : p.txid = txid := eq_of_beq hw'
  rw [wp_bind]
  refine Delegate.wp_update (fun now tb r' _ _ hrows _ => ?_) fun _ te _ => .nothing rfl rfl rfl
  rw [wp_bind]
  refine Delegate.wp_update (fun now' tb' p' _ _ hrows' _ => ?_) fun _ te hte => ?_
  · rw [wp_bind]
    have hthere : { p with status := .failed } ∈ tb'.rows := by
      rw [hrows']
      exact Table.mem_patch (f := fun p : Payment => { p with status := .failed }) hp
    refine Delegate.wp_findFirstOrThrow (fun q _ _ => wp_publish ?_) fun hnone => ?_
    · exact .reverted r hr hhash p hp htxid hrows hrows' ⟨_, _, rfl⟩
    · have hno := hnone _ hthere
      simp at hno
  · exact absurd hte (Table.update?_ne_error hp rfl rfl)

/-! ## Cancelling -/

/-- The event `cancelInvoice` makes of the invoice it reads back. -/
def cancelledEvent (invoice : Invoice) : Event :=
  { topic := "invoice.cancelled",
    app_id := orUndefined invoice.app_id, account_id := orUndefined invoice.account_id,
    body := [("invoice", .obj [
      ("uid", .str invoice.uid), ("status", .str invoice.status.toString)])] }

theorem cancelledEvent_passes {invoice : Invoice} (h : invoice.status = .cancelled) :
    passes "invoice.cancelled" (cancelledEvent invoice) = true := by
  have htopic : regexTest "invoice.cancelled" "invoice.cancelled" = true := by decide +kernel
  have hstatus : regexTest "cancelled" "cancelled" = true := by decide +kernel
  rw [passes, getSchema_cancelled]
  cases haccount : orUndefined invoice.account_id <;>
    cases happ : orUndefined invoice.app_id <;>
    simp [cancelledEvent, Event.toJson, optionalId, haccount, happ, InvoiceCancelledEvent,
      eventSchema, matching, Schema.parse, Schema.parseFields, Json.field, Json.ofInt, htopic,
      hstatus, h, InvoiceStatus.toString]

theorem wp_cancelInvoice_told (invoice : Invoice) :
    (cancelInvoice invoice).wp AnyAnswer
      (fun _ t => (∃ r ∈ s.invoices.rows, r.id = invoice.id) ∧
        t.invoices.rows = Table.patch invoice.id
          (fun r => { r with status := .cancelled, cancelled := true }) s.invoices.rows ∧
        ∃ r ∈ t.invoices.rows, r.uid = invoice.uid ∧
          t.published = s.published ++ publications ("invoice.cancelled", cancelledEvent r))
      (fun _ t => t.invoices = s.invoices ∨ ∀ r ∈ t.invoices.rows, r.uid ≠ invoice.uid) s := by
  unfold cancelInvoice
  split
  · exact .inl rfl
  · simp only [bind_eq, pure_eq]
    rw [wp_bind]
    refine Delegate.wp_update (fun now tb r hr hid hrows _ => ?_) fun _ _ _ => .inl rfl
    rw [wp_bind]
    refine Delegate.wp_findFirstOrThrow (fun r' hr' hw => ?_) fun hnone => ?_
    swap
    · exact .inr fun r hr => by simpa using hnone r hr
    rw [wp_bind]
    refine wp_publishEvent ("invoice.cancelled", cancelledEvent r') ?_
    exact ⟨⟨r, hr, hid⟩, hrows, r', hr', eq_of_beq hw, rfl⟩

/-! ## Creating -/

theorem invoiceCreated_passes {invoice : Invoice} (h : invoice.status = .unpaid) :
    passes "invoice.created" (invoiceCreated invoice) = true := by
  have htopic : regexTest "invoice.created" "invoice.created" = true := by decide +kernel
  have hstatus : regexTest "unpaid" "unpaid" = true := by decide +kernel
  rw [passes, getSchema_created]
  cases haccount : orUndefined invoice.account_id <;>
    cases happ : orUndefined invoice.app_id <;>
    simp [invoiceCreated, Event.toJson, optionalId, haccount, happ, InvoiceCreatedEvent,
      eventSchema, matching, Schema.parse, Schema.parseFields, Json.field, Json.ofInt, htopic,
      hstatus, h, InvoiceStatus.toString]

theorem keeps_createPaymentOptions_published {account : Json} {invoice : Invoice} :
    (createPaymentOptions env account invoice).Keeps World.published := by
  unfold createPaymentOptions listAvailableAddresses
  refine keeps_bind ?_ fun addresses => keeps_bind (keeps_mapAll fun record _ => ?_)
    fun _ => trivial
  · refine keeps_bind (keeps_ofExcept _) fun _ => keeps_bind keeps_query fun _ => trivial
  · refine keeps_tryCatch ?_ fun _ => trivial
    unfold paymentOptionFor
    refine keeps_bind (keeps_ofExcept _) fun _ => keeps_bind (keeps_convert _ _) fun _ => ?_
    refine keeps_bind (keeps_ofExcept _) fun address => ?_
    cases nonEmpty address with
    | none => exact trivial
    | some address =>
        refine keeps_bind (keeps_ofExcept _) fun paymentAmount => ?_
        refine keeps_bind ?_ fun _ => trivial
        unfold storeOption
        cases paymentAmount with
        | none => exact trivial
        | some amount => exact Delegate.keeps_create fun _ _ => rfl

theorem wp_createInvoice_told (params : List (String × Json)) :
    (createInvoice env params).wp AnyAnswer
      (fun invoice t => t.published =
        s.published ++ publications ("invoice.created", invoiceCreated invoice))
      (fun _ t => t.published = s.published) s := by
  unfold createInvoice
  simp only [bind_eq, pure_eq]
  rw [wp_bind]
  refine wp_ask (fun _ _ uid _ => ?_) fun _ => rfl
  rw [wp_bind]
  refine wp_ofExcept (fun account _ => ?_) fun _ _ => rfl
  rw [wp_bind]
  refine wp_ofExcept (fun data _ => ?_) fun _ _ => rfl
  rw [wp_bind]
  refine Delegate.wp_create (fun now tb _ _ => ?_) fun _ _ => rfl
  rw [wp_bind]
  refine wp_spawn ?_
  rw [wp_bind]
  refine wp_of_keeps keeps_createPaymentOptions_published (fun options t ht => ?_)
    fun _ t ht => ht
  rw [wp_bind]
  refine Delegate.wp_create (fun now' tb' _ _ => ?_) fun _ _ => ht
  rw [wp_bind]
  refine wp_publishEvent ("invoice.created", invoiceCreated _) ?_
  show t.published ++ _ = _
  rw [ht]
  rfl

/-- The options of a payment request: rows of their own, and nothing else. -/
theorem keeps_paymentRequestToPaymentOptions {δ : Type} {view : World → δ}
    (h : ∀ w t, view { w with paymentOptions := t } = view w) (request : PaymentRequest) :
    (paymentRequestToPaymentOptions env request).Keeps view := by
  unfold paymentRequestToPaymentOptions
  refine keeps_bind (keeps_mapAll fun entry _ => ?_) fun options => ?_
  · refine keeps_bind (keeps_mapAll fun to_ _ => ?_) fun _ => trivial
    exact keeps_bind (keeps_convert _ _) fun _ => keeps_bind (keeps_ofExcept _) fun _ => trivial
  · refine keeps_bind (keeps_mapAll fun option _ => ?_) fun _ => keeps_ofExcept _
    refine keeps_tryCatch (keeps_bind ?_ fun _ => trivial) fun _ => trivial
    unfold storeTemplateOption
    split
    · exact Delegate.keeps_create h
    · exact trivial

/-- An invoice that comes with a payment request is created without a word. -/
theorem keeps_createPaymentRequest_published (app_id : Int) (template : List Json)
    (options : Option Json) :
    (createPaymentRequest env app_id template options).Keeps World.published := by
  have hempty : ∀ options, (createEmptyInvoice env app_id options).Keeps World.published := by
    intro options
    unfold createEmptyInvoice chooseUid
    refine keeps_bind ?_ fun uid => keeps_bind keeps_query fun app => ?_
    · split
      · exact trivial
      · exact keeps_ask _
    · exact keeps_bind (keeps_ofExcept _) fun _ => Delegate.keeps_create fun _ _ => rfl
  have hupdate : ∀ invoice options,
      (updateFromOptions invoice options).Keeps World.published := by
    intro invoice options
    unfold updateFromOptions
    split
    · refine keeps_bind (keeps_ofExcept _) fun _ => ?_
      exact keeps_bind (Delegate.keeps_update fun _ _ => rfl) fun _ => trivial
    · exact trivial
  unfold createPaymentRequest
  refine keeps_bind (keeps_ofExcept _) fun found => ?_
  obtain ⟨currency, amount⟩ := found
  cases env.paymentRequestTemplate template with
  | none => exact keeps_reject _
  | some entries =>
      refine keeps_bind (Delegate.keeps_create fun _ _ => rfl) fun request => ?_
      refine keeps_bind (hempty _) fun invoice => keeps_bind (hupdate _ _) fun _ => ?_
      refine keeps_bind (keeps_ofExcept _) fun webpage_url => ?_
      refine keeps_bind (Delegate.keeps_update fun _ _ => rfl) fun _ => ?_
      refine keeps_bind keeps_query fun request => ?_
      exact keeps_bind (keeps_paymentRequestToPaymentOptions (fun _ _ => rfl) _) fun _ => trivial

end Lifecycle

end Anypay
