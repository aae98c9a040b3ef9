/-
Anypay.ActorTheorems — what an 'invoice.paid' message makes its consumers do.

`confirmTransaction` publishes an invoice row, with `uid` on top;
`completePayment` publishes an event, with the invoice inside its payload. The
consumers read `uid` on top. For a row that is the invoice; for an event it is
`undefined`, so "the refund of this invoice" becomes the first refund of the
table, whoever's it is (`refunds_anything`).

`actsOnly_iff`: a message makes every consumer act on its own invoice only, in
every database, exactly where it has the uid on top.
-/
import Anypay.Actors
import Anypay.LedgerTheorems

namespace Anypay

open Store Async Proc

namespace Paid

/-! ## Messages -/

/-- Some step of a producer puts the message on 'invoice.paid', in some state. -/
def Published (m : Json) : Prop :=
  ∃ s t : World, t.published = s.published ++ [("invoice.paid", m)] ∧
    ((∃ env option transaction confirming,
      (completePayment env option transaction confirming).CanStep s t) ∨
    ∃ payment found, (confirmTransaction payment found).CanStep s t)

/-- The invoice inside an event. -/
def eventUid (event : Json) : Option Json :=
  ((event.get "payload").bind fun payload => payload.get "invoice").bind fun invoice =>
    invoice.get "uid"

/-- The invoice a message is about: of a row its uid, of an event the invoice
in its payload, of a log message the one in the event it logs. -/
def about (m : Json) : Option String :=
  Json.str? ((m.get "uid").or ((eventUid m).or ((m.get "payload").bind eventUid)))

/-! ## What a consumer may do -/

/-- Refunds change only if they are refunds of this invoice, and then to paid by
its hash. -/
def OnlyRefundsOf (uid : String) (w t : World) : Prop :=
  ∀ r' ∈ t.refunds.rows, r' ∈ w.refunds.rows ∨
    ∃ r ∈ w.refunds.rows, r.refund_invoice_uid = uid ∧
      ∃ invoice ∈ w.invoices.rows, invoice.uid = uid ∧
        r' = { r with txid := invoice.hash, status := "paid" }

/-- Webhook rows are written, and posted, only if they are of this invoice. -/
def OnlyWebhooksOf (uid : String) (w t : World) : Prop :=
  (∀ r ∈ t.webhooks.rows, r ∈ w.webhooks.rows ∨ r.invoice_uid = some uid) ∧
    ∃ posts, t.posts = w.posts ++ posts ∧
      ∀ p ∈ posts, ∃ r ∈ t.webhooks.rows, r.invoice_uid = some uid ∧ p.1 = nullText r.url

/-- Whatever the database and the answers, each consumer acts only on the
invoice. -/
def ActsOnly (m : Json) (uid : String) : Prop :=
  ∀ (w : World) (o : Nat → Answer),
    OnlyRefundsOf uid w ((refundsActor m).exec o w).2 ∧
    OnlyWebhooksOf uid w ((webhooksActor m).exec o w).2 ∧
    OnlyWebhooksOf uid w ((paidWebhooksActor m).exec o w).2

/-! ## What is published -/

/-- A step that publishes, publishes such a message. -/
def Publishes (P : String → Json → Prop) (s t : World) : Prop :=
  t.published = s.published ∨ ∃ k m, t.published = s.published ++ [(k, m)] ∧ P k m

section Publishes

variable {P : String → Json → Prop} {α : Type}

theorem Publishes.message {s t : World} (h : Publishes P s t) {k : String} {m : Json}
    (ht : t.published = s.published ++ [(k, m)]) : P k m := by
  rcases h with he | ⟨k', m', he, hp⟩
  · rw [ht] at he
    exact absurd (congrArg List.length he) (by simp)
  · rw [ht] at he
    obtain ⟨rfl, rfl⟩ := Prod.mk.inj (List.singleton_inj.mp (List.append_cancel_left he))
    exact hp

/-- A message a run publishes is one that some step puts there. -/
theorem exists_message {p : Task α} (hp : p.Always (Publishes P) fun _ => True)
    (test : String × Json → Bool) (o : Nat → Answer) (w : World) (hw : w.published = [])
    (h : (p.exec o w).2.published.any test = true) :
    ∃ s t k m, p.CanStep s t ∧ t.published = s.published ++ [(k, m)] ∧ P k m ∧
      test (k, m) = true := by
  obtain ⟨s, t, hstep, hs, ht⟩ := canStep_of_exec
    (I := fun u : World => u.published.any test = true) (by simp [hw]) h
  rcases hp.of_canStep hstep with he | ⟨k, m, he, hP⟩
  · rw [he] at ht
    exact absurd ht hs
  · refine ⟨s, t, k, m, hstep, he, hP, ?_⟩
    rw [he, List.any_append, Bool.or_eq_true] at ht
    rcases ht with ht | ht
    · exact absurd ht hs
    · simpa using ht

/-- A program that leaves the messages alone. -/
theorem publishes_of_keeps {p : Task α} (h : p.Keeps World.published) :
    p.Always (Publishes P) fun _ => True :=
  always_mono h (fun _ _ he => .inl he) fun _ _ => trivial

theorem publishes_publish {k : String} {m : Json} (h : P k m) :
    (publish k m).Always (Publishes P) fun _ => True :=
  always_step (fun _ _ => .inr ⟨k, m, rfl, h⟩) fun _ _ _ _ => trivial

theorem publishes_spawn (j : Job) : (spawn j).Always (Publishes P) fun _ => True :=
  publishes_of_keeps (keeps_spawn j fun _ => rfl)

/-- `publishEvent` publishes the event and the log message that holds it. -/
theorem publishes_publishEvent {key : String} {e : Event} (hevent : ∀ k, P k e.toJson)
    (hlog : P key (.obj [("topic", .str key), ("payload", e.toJson)])) :
    (publishEvent key e).Always (Publishes P) fun _ => True := by
  have hrest : (Proc.bind (publish key e.toJson) fun _ =>
      (forEach (followers "apps" e.app_id e.topic) fun k => publish k e.toJson).bind fun _ =>
        forEach (followers "accounts" e.account_id e.topic) fun k =>
          publish k e.toJson).Always (Publishes P) fun _ => True :=
    always_bind (publishes_publish (hevent _)) fun _ _ =>
      always_bind (always_forEach fun _ _ => publishes_publish (hevent _)) fun _ _ =>
        always_forEach fun _ _ => publishes_publish (hevent _)
  unfold publishEvent
  refine always_bind (publishes_publish hlog) fun _ _ => ?_
  split
  · split
    · exact hrest
    · exact trivial
  · exact hrest

end Publishes

theorem keeps_settleInvoice_published {invoice : Invoice} {option : PaymentOption}
    {transaction : Transaction} {status : InvoiceStatus} {f : Time → Invoice → Invoice}
    {hid : ∀ t r, Record.id (f t r) = Record.id r} :
    (settleInvoice invoice option transaction status f hid).Keeps World.published := by
  refine keeps_step fun c w => ?_
  cases w.invoices.update? invoice.id (f c.now) (hid c.now) <;> rfl

/-- What is inside an event of an invoice. -/
theorem eventUid_toJson {topic uid : String} {account_id app_id : Option Int}
    {rest fields : List (String × Json)} :
    eventUid (Event.toJson { topic, account_id, app_id, body :=
      ("invoice", .obj (("uid", .str uid) :: fields)) :: rest }) = some (.str uid) := by
  cases account_id <;> cases app_id <;>
    simp [eventUid, Event.toJson, optionalId, Json.field_cons]

/-- What `completePayment` publishes has no uid on top, and is about the invoice
it pays. -/
theorem publishes_completePayment (env : Env) (option : PaymentOption)
    (transaction : Transaction) (confirming : Bool) :
    (completePayment env option transaction confirming).Always
      (Publishes fun _ m => m.get "uid" = none ∧ about m = some option.invoice_uid)
      fun _ => True := by
  unfold completePayment
  simp only [bind_eq, pure_eq]
  refine always_bind (publishes_of_keeps (keeps_paymentTxid _ _ _ _)) fun txid _ => ?_
  refine always_bind (publishes_of_keeps keeps_query) fun invoice _ => ?_
  refine always_bind (publishes_of_keeps (Delegate.keeps_create fun _ _ => rfl)) fun record _ => ?_
  refine always_bind (publishes_of_keeps keeps_settleInvoice_published) fun _ _ => ?_
  refine always_bind (Delegate.always_findFirstOrThrow (fun _ => .inl rfl) _)
    fun invoice hw => ?_
  have huid : invoice.uid = option.invoice_uid := by simpa using hw
  refine always_bind (always_tryCatch (publishes_publishEvent ?_ ?_) fun _ => trivial)
    fun _ _ => ?_
  · intro _
    refine ⟨rfl, ?_⟩
    rw [about, eventUid_toJson, huid]
    rfl
  · refine ⟨rfl, ?_⟩
    have hevent : ∀ event : Json, about (.obj [("topic", .str "invoice.paid"),
        ("payload", event)]) = Json.str? ((eventUid (.obj [("topic", .str "invoice.paid"),
          ("payload", event)])).or (eventUid event)) := fun _ => rfl
    rw [hevent, eventUid_toJson, huid]
    rfl
  · exact always_bind (publishes_spawn _) fun _ _ => trivial

/-- What `confirmTransaction` publishes there is an invoice row. -/
theorem publishes_confirmTransaction (payment : Payment) (found : Option Confirmation) :
    (confirmTransaction payment found).Always
      (Publishes fun k m => k = "invoice.paid" → ∃ invoice : Invoice, m = invoice.toJson)
      fun _ => True := by
  unfold confirmTransaction
  simp only [bind_eq, pure_eq]
  refine always_bind (P := fun _ => True) ?_ fun _ _ => ?_
  · cases found with
    | some transaction => exact trivial
    | none => exact publishes_of_keeps (keeps_ask _)
  · refine always_bind (publishes_of_keeps keeps_query) fun updated _ => ?_
    refine always_bind (publishes_publish fun h => by simp at h) fun _ _ => ?_
    refine always_bind (publishes_of_keeps keeps_query) fun invoice _ => ?_
    refine always_bind (publishes_of_keeps (Delegate.keeps_update fun _ _ => rfl))
      fun _ _ => ?_
    refine always_bind (publishes_of_keeps keeps_query) fun invoice' _ => ?_
    split
    · refine always_bind (publishes_publish fun _ => ⟨invoice', rfl⟩) fun _ _ => ?_
      exact always_bind (publishes_spawn _) fun _ _ => trivial
    · exact always_bind (publishes_spawn _) fun _ _ => trivial

/-! ## A message with the uid on top -/

variable {uid : String} {w t : World}

theorem wp_markRefundPaid :
    (markRefundPaid (some uid)).wp AnyAnswer (fun _ => OnlyRefundsOf uid w)
      (fun _ => OnlyRefundsOf uid w) w := by
  have hsame : OnlyRefundsOf uid w w := fun r hr => .inl hr
  unfold markRefundPaid
  simp only [bind_eq, pure_eq]
  rw [wp_bind]
  refine Delegate.wp_findFirstOrThrow (fun refund hrefund hu => ?_) fun _ => hsame
  have hu : refund.refund_invoice_uid = uid := by simpa [matchesField] using hu
  split
  · exact hsame
  · rw [wp_bind]
    refine Delegate.wp_findFirstOrThrow (fun _ _ _ => ?_) fun _ => hsame
    rw [wp_bind]
    refine Delegate.wp_findFirstOrThrow (fun invoice hinvoice hiu => ?_) fun _ => hsame
    have hiu : invoice.uid = uid := by simpa [matchesField] using hiu
    rw [wp_bind]
    refine Delegate.wp_update (fun now tb r hr hi hrows _ => ?_) fun _ _ _ => hsame
    intro r' hr'
    change r' ∈ tb.rows at hr'
    rw [hrows] at hr'
    obtain ⟨x, hx, rfl⟩ := List.mem_map.mp hr'
    split
    · rename_i hxi
      obtain rfl : x = refund := Table.eq_of_id hx hrefund hxi
      exact .inr ⟨x, hx, hu, invoice, hinvoice, hiu, rfl⟩
    · exact .inl hx

/-- The world has this webhook, and it is of the invoice. -/
def HasWebhook (uid : String) (webhook : Webhook) (t : World) : Prop :=
  ∃ r ∈ t.webhooks.rows, r.id = webhook.id ∧ r.invoice_uid = some uid ∧ r.url = webhook.url

theorem OnlyWebhooksOf.refl : OnlyWebhooksOf uid w w :=
  ⟨fun _ hr => .inl hr, [], by simp, by simp⟩

/-- Writing a webhook of the invoice. -/
theorem OnlyWebhooksOf.patch {webhook : Webhook} {f : Webhook → Webhook} {tb : Table Webhook}
    (h : OnlyWebhooksOf uid w t) (hhas : HasWebhook uid webhook t)
    (hrows : tb.rows = Table.patch webhook.id f t.webhooks.rows)
    (hf : ∀ r, (f r).invoice_uid = r.invoice_uid ∧ (f r).url = r.url) :
    OnlyWebhooksOf uid w { t with webhooks := tb } := by
  obtain ⟨hold, posts, hposts, hall⟩ := h
  obtain ⟨r₀, hr₀, hi₀, hu₀, -⟩ := hhas
  refine ⟨fun r' hr' => ?_, posts, hposts, fun p hp => ?_⟩
  · change r' ∈ tb.rows at hr'
    rw [hrows] at hr'
    obtain ⟨x, hx, rfl⟩ := List.mem_map.mp hr'
    split
    · rename_i hxi
      obtain rfl : x = r₀ := Table.eq_of_id hx hr₀ (Eq.trans hxi hi₀.symm)
      exact .inr ((hf x).1.trans hu₀)
    · exact hold x hx
  · obtain ⟨r, hr, hru, hurl⟩ := hall p hp
    refine ⟨if Record.id r = webhook.id then f r else r, ?_, ?_⟩
    · change _ ∈ tb.rows
      rw [hrows]
      exact List.mem_map.mpr ⟨r, hr, rfl⟩
    · split
      · exact ⟨(hf r).1.trans hru, by rw [hurl, (hf r).2]⟩
      · exact ⟨hru, hurl⟩

/-- Creating one. -/
theorem OnlyWebhooksOf.create {webhook : Webhook} {tb : Table Webhook}
    (h : OnlyWebhooksOf uid w t) (hu : webhook.invoice_uid = some uid)
    (hrows : tb.rows = t.webhooks.rows ++ [webhook]) :
    OnlyWebhooksOf uid w { t with webhooks := tb } := by
  obtain ⟨hold, posts, hposts, hall⟩ := h
  refine ⟨fun r hr => ?_, posts, hposts, fun p hp => ?_⟩
  · change r ∈ tb.rows at hr
    rw [hrows] at hr
    rcases List.mem_append.mp hr with hr | hr
    · exact hold r hr
    · rw [List.mem_singleton.mp hr]
      exact .inr hu
  · obtain ⟨r, hr, hrest⟩ := hall p hp
    exact ⟨r, by rw [hrows]; exact List.mem_append_left _ hr, hrest⟩

/-- Posting one. -/
theorem OnlyWebhooksOf.post {webhook : Webhook} (url : String) (body : Json)
    (h : OnlyWebhooksOf uid w t) (hhas : HasWebhook uid webhook t)
    (hurl : url = nullText webhook.url) :
    OnlyWebhooksOf uid w { t with posts := t.posts ++ [(url, body)] } := by
  obtain ⟨hold, posts, hposts, hall⟩ := h
  obtain ⟨r₀, hr₀, -, hu₀, hurl₀⟩ := hhas
  refine ⟨hold, posts ++ [(url, body)], ?_, fun p hp => ?_⟩
  · change t.posts ++ _ = _
    rw [hposts, List.append_assoc]
  · rcases List.mem_append.mp hp with hp | hp
    · exact hall p hp
    · rw [List.mem_singleton.mp hp]
      exact ⟨r₀, hr₀, hu₀, by rw [hurl₀]; exact hurl⟩

theorem wp_sendWebhook {webhook : Webhook} (h : OnlyWebhooksOf uid w t)
    (hhas : HasWebhook uid webhook t) :
    (sendWebhook webhook).wp AnyAnswer (fun _ => OnlyWebhooksOf uid w)
      (fun _ => OnlyWebhooksOf uid w) t := by
  unfold sendWebhook
  split
  · exact h
  · rename_i url hurl
    split
    · exact h
    · simp only [bind_eq, pure_eq, Anypay.post]
      rw [wp_bind]
      have hpost := h.post url webhook.payload hhas (by rw [hurl]; rfl)
      refine wp_step (fun c _ answer _ => ?_) fun _ _ he => (by cases he)
      cases answer with
      | ok reply =>
          rw [wp_bind]
          exact Delegate.wp_update (fun now tb r _ _ hrows _ =>
            hpost.patch hhas hrows fun _ => ⟨rfl, rfl⟩) fun _ _ _ => hpost
      | error message =>
          rw [wp_bind]
          exact Delegate.wp_update (fun now tb r _ _ hrows _ =>
            hpost.patch hhas hrows fun _ => ⟨rfl, rfl⟩) fun _ _ _ => hpost

theorem wp_sendWebhookForInvoice (type : String) :
    (sendWebhookForInvoice (some uid) type).wp AnyAnswer (fun _ => OnlyWebhooksOf uid w)
      (fun _ => OnlyWebhooksOf uid w) w := by
  have hrefl : OnlyWebhooksOf uid w w := .refl
  unfold sendWebhookForInvoice
  simp only [bind_eq]
  rw [wp_bind]
  refine Delegate.wp_findFirstOrThrow (fun invoice _ hiu => ?_) fun _ => hrefl
  have hiu : invoice.uid = uid := by simpa [matchesField] using hiu
  rw [wp_bind]
  have hstored : (storedWebhook invoice type invoice.toJson).wp AnyAnswer
      (fun webhook u => OnlyWebhooksOf uid w u ∧ HasWebhook uid webhook u)
      (fun _ => OnlyWebhooksOf uid w) w := by
    unfold storedWebhook
    simp only [bind_eq, pure_eq]
    rw [wp_bind]
    refine Delegate.wp_findFirst (fun webhook hr hw => ?_) fun _ => ?_
    · exact ⟨hrefl, webhook, hr, rfl, by simpa [hiu] using hw, rfl⟩
    · refine Delegate.wp_create (fun now tb hrows _ => ⟨hrefl.create ?_ hrows, ?_⟩)
        fun _ _ => hrefl
      · exact congrArg some hiu
      · refine ⟨_, ?_, rfl, congrArg some hiu, rfl⟩
        change _ ∈ tb.rows
        rw [hrows]
        exact List.mem_append_right _ (List.mem_singleton.mpr rfl)
  refine wp_mono (fun webhook u hu => ?_) (fun _ _ h => h) hstored
  obtain ⟨honly, hhas⟩ := hu
  rw [wp_bind]
  unfold fillPayload
  split
  · refine Delegate.wp_update (fun now tb r hr hi hrows _ => ?_) fun _ _ _ => honly
    refine wp_sendWebhook (honly.patch hhas hrows fun _ => ⟨rfl, rfl⟩) ?_
    obtain ⟨r₀, hr₀, hi₀, hu₀, hurl₀⟩ := hhas
    obtain rfl : r = r₀ := Table.eq_of_id hr hr₀ (hi.trans hi₀.symm)
    refine ⟨{ r with payload := invoice.toJson }, ?_, rfl, hu₀, rfl⟩
    change _ ∈ tb.rows
    rw [hrows]
    exact List.mem_map.mpr ⟨r, hr, if_pos hi⟩
  · exact wp_sendWebhook honly hhas

theorem wp_attemptWebhook {webhook : Webhook} (h : OnlyWebhooksOf uid w t)
    (hhas : HasWebhook uid webhook t) :
    (attemptWebhook webhook).wp AnyAnswer (fun _ => OnlyWebhooksOf uid w)
      (fun _ => OnlyWebhooksOf uid w) t := by
  unfold attemptWebhook
  split
  · exact h
  · simp only [bind_eq, pure_eq, Anypay.post]
    rw [wp_bind]
    refine Delegate.wp_create (fun now tb _ _ => ?_) fun _ _ => h
    rw [wp_bind]
    refine Delegate.wp_findFirstOrThrow (fun invoice _ _ => ?_) fun _ => h
    rw [wp_bind]
    have hpost := h.post (nullText webhook.url) invoice.toJson hhas rfl
    refine wp_step (fun c _ answer _ => ?_) fun _ _ he => (by cases he)
    cases answer with
    | ok reply =>
        rw [wp_bind]
        refine Delegate.wp_update (fun _ _ _ _ _ _ _ => ?_) fun _ _ _ => hpost
        rw [wp_bind]
        exact Delegate.wp_update (fun now tb r _ _ hrows _ =>
          hpost.patch hhas hrows fun _ => ⟨rfl, rfl⟩) fun _ _ _ => hpost
    | error message =>
        rw [wp_bind]
        exact Delegate.wp_update (fun _ _ _ _ _ _ _ => hpost) fun _ _ _ => hpost

theorem wp_attemptPaidWebhook :
    (attemptPaidWebhook (some uid)).wp AnyAnswer (fun _ => OnlyWebhooksOf uid w)
      (fun _ => OnlyWebhooksOf uid w) w := by
  have hrefl : OnlyWebhooksOf uid w w := .refl
  unfold attemptPaidWebhook getPaidWebhookForInvoice
  simp only [bind_eq]
  rw [wp_bind]
  refine Delegate.wp_findFirstOrThrow (fun invoice _ hiu => ?_) fun _ => hrefl
  have hiu : invoice.uid = uid := by simpa [matchesField] using hiu
  rw [wp_bind]
  have hrest : ((prisma.webhooks.findFirstOrThrow fun r =>
      r.invoice_uid == some invoice.uid && r.status == some "paid").bind fun webhook =>
        discard (attemptWebhook webhook)).wp AnyAnswer (fun _ => OnlyWebhooksOf uid w)
        (fun _ => OnlyWebhooksOf uid w) w := by
    rw [wp_bind]
    refine Delegate.wp_findFirstOrThrow (fun webhook hr hw => ?_) fun _ => hrefl
    simp only [Bool.and_eq_true, beq_iff_eq] at hw
    rw [discard_eq, wp_bind]
    exact wp_attemptWebhook hrefl ⟨webhook, hr, rfl, by rw [hw.1, hiu], rfl⟩
  exact Delegate.wp_findFirst (fun _ _ _ => hrest) fun _ => hrest

/-- With the uid on top, every consumer acts on that invoice only. -/
theorem actsOnly_of_uid {m : Json} (h : m.get "uid" = some (.str uid)) : ActsOnly m uid := by
  have huid : uidOf m = .ok (some uid) := by
    cases m with
    | obj fields => simp only [uidOf, h]
    | _ => cases h
  intro w o
  refine ⟨?_, ?_, ?_⟩
  · refine wp_exec_state ?_ (anyAnswer o)
    simp only [refundsActor, huid, bind_eq, Proc.ofExcept, done_bind]
    exact wp_markRefundPaid
  · refine wp_exec_state ?_ (anyAnswer o)
    simp only [webhooksActor, detached, huid, bind_eq, Proc.ofExcept, done_bind, wp_tryCatch]
    exact wp_sendWebhookForInvoice _
  · refine wp_exec_state ?_ (anyAnswer o)
    simp only [paidWebhooksActor, detached, huid, bind_eq, Proc.ofExcept, done_bind,
      wp_tryCatch]
    exact wp_attemptPaidWebhook

/-! ## A message without it -/

/-- A refund of another invoice, which nobody has paid. -/
def elsewhere (uid : String) : World :=
  { refunds := .single
      { id := 1, original_invoice_uid := uid, refund_invoice_uid := uid, address := "a" },
    invoices := .single { id := 1, uid, status := .unpaid } }

/-- Without the uid, the first refund there is becomes paid. -/
theorem markRefundPaid_anything (uid : String) (o : Nat → Answer) :
    ∃ r ∈ ((markRefundPaid none).exec o (elsewhere uid)).2.refunds.rows,
      r.refund_invoice_uid = uid ∧ r.status = "paid" := by
  refine wp_exec_state (I := fun t : World => ∃ r ∈ t.refunds.rows,
    r.refund_invoice_uid = uid ∧ r.status = "paid") ?_ (anyAnswer o)
  unfold markRefundPaid
  simp only [bind_eq, pure_eq]
  rw [wp_bind]
  refine Delegate.wp_findFirstOrThrow (fun refund hrefund _ => ?_) fun h => ?_
  · obtain rfl := List.mem_singleton.mp hrefund
    rw [if_neg (by simp), wp_bind]
    refine Delegate.wp_findFirstOrThrow (fun _ _ _ => ?_) fun h => ?_
    · rw [wp_bind]
      refine Delegate.wp_findFirstOrThrow (fun invoice _ _ => ?_) fun h => ?_
      · rw [wp_bind]
        refine Delegate.wp_update (fun now tb r hr hi hrows _ => ?_) fun now te h => ?_
        · let paid : Refund :=
            { id := 1, original_invoice_uid := uid, refund_invoice_uid := uid, address := "a",
              txid := invoice.hash, status := "paid" }
          refine ⟨paid, ?_, rfl, rfl⟩
          change _ ∈ tb.rows
          rw [hrows]
          exact List.mem_map.mpr ⟨_, hrefund, if_pos rfl⟩
        · obtain ⟨_, hok⟩ := Table.update?_of_key_eq hrefund rfl rfl
          cases h.symm.trans hok
      · exact absurd (h _ (.head _)) (by simp [matchesField])
    · exact absurd (h _ (.head _)) (by simp)
  · exact absurd (h _ (.head _)) (by simp [matchesField])

/-- So a message without the uid is dangerous wherever refunds are. -/
theorem not_actsOnly {m : Json} (h : uidOf m = .ok none) (uid : String) : ¬ ActsOnly m uid := by
  intro hacts
  obtain ⟨other, hne⟩ : ∃ other : String, other ≠ uid := by
    by_cases hu : uid = "a"
    · exact ⟨"b", by simp [hu]⟩
    · exact ⟨"a", fun he => hu he.symm⟩
  have honly := (hacts (elsewhere other) fun _ => {}).1
  simp only [refundsActor, h, bind_eq, Proc.ofExcept, done_bind] at honly
  obtain ⟨r', hr', hu', hs'⟩ := markRefundPaid_anything other fun _ => {}
  rcases honly r' hr' with hold | ⟨r, hr, hru, -⟩
  · rw [List.mem_singleton.mp hold] at hs'
    simp at hs'
  · rw [List.mem_singleton.mp hr] at hru
    exact hne hru

/-- **Which messages are safe.** A message published on 'invoice.paid' makes
every consumer act on the invoice it is about, and no other, in every database,
exactly where it has that invoice's uid on top. -/
theorem actsOnly_iff (m : Json) (uid : String) (hm : Published m) (ha : about m = some uid) :
    ActsOnly m uid ↔ m.get "uid" = some (.str uid) := by
  refine ⟨fun h => ?_, actsOnly_of_uid⟩
  obtain ⟨s, t, ht, ⟨env, option, transaction, confirming, hstep⟩ | ⟨payment, found, hstep⟩⟩ := hm
  · obtain ⟨hnone, -⟩ :=
      ((publishes_completePayment env option transaction confirming).of_canStep hstep).message ht
    refine absurd h (not_actsOnly ?_ uid)
    cases m with
    | null => cases ha
    | obj fields => simp only [uidOf, hnone]
    | _ => rfl
  · obtain ⟨invoice, rfl⟩ :=
      ((publishes_confirmTransaction payment found).of_canStep hstep).message ht rfl
    obtain rfl : invoice.uid = uid := Option.some.inj ha
    rfl

/-- Every message published there is about some invoice. -/
theorem about_published {m : Json} (hm : Published m) : ∃ uid, about m = some uid := by
  obtain ⟨s, t, ht, ⟨env, option, transaction, confirming, hstep⟩ | ⟨payment, found, hstep⟩⟩ := hm
  · exact ⟨_, (((publishes_completePayment env option transaction
      confirming).of_canStep hstep).message ht).2⟩
  · obtain ⟨invoice, rfl⟩ :=
      ((publishes_confirmTransaction payment found).of_canStep hstep).message ht rfl
    exact ⟨invoice.uid, rfl⟩

/-! ## One message of each kind -/

/-- An invoice that waits for its confirmation. -/
def waiting : World :=
  { invoices := .single { id := 1, uid := "inv", status := .confirming },
    payments := .single { id := 1, txid := "t1", currency := "BTC", invoice_uid := "inv" } }

/-- The way it is paid. -/
def btc : PaymentOption := { id := 1, invoice_uid := "inv", currency := "BTC", chain := "BTC" }

/-- The event of a payment makes the refunds actor pay any refund. -/
theorem refunds_anything :
    ¬ ∀ (m : Json) (uid : String), Published m → about m = some uid → ActsOnly m uid := by
  intro h
  obtain ⟨s, t, k, m, hstep, ht, ⟨hnone, ha⟩, hk⟩ := exists_message
    (publishes_completePayment {} btc { txhex := "", txid := some "t1" } false)
    (fun km => km.1 == "invoice.paid") (fun _ => {}) waiting rfl (by decide +kernel)
  obtain rfl : k = "invoice.paid" := by simpa using hk
  have hm : Published m := ⟨s, t, ht, .inl ⟨_, _, _, _, hstep⟩⟩
  refine not_actsOnly ?_ "inv" (h m "inv" hm ha)
  cases m with
  | null => cases ha
  | obj fields => simp only [uidOf, hnone]
  | _ => rfl

/-- The row of a confirmed invoice is safe. -/
theorem actsOnly_row : ∃ m, Published m ∧ about m = some "inv" ∧ ActsOnly m "inv" := by
  obtain ⟨s, t, k, m, hstep, ht, hrow, htest⟩ := exists_message
    (publishes_confirmTransaction { id := 1, txid := "t1", currency := "BTC", invoice_uid := "inv" }
      none)
    (fun km => km.1 == "invoice.paid" && about km.2 == some "inv") (fun _ => {}) waiting rfl
    (by decide +kernel)
  simp only [Bool.and_eq_true, beq_iff_eq] at htest
  obtain ⟨rfl, ha⟩ := htest
  obtain ⟨invoice, rfl⟩ := hrow rfl
  have hm : Published invoice.toJson := ⟨s, t, ht, .inr ⟨_, _, hstep⟩⟩
  refine ⟨_, hm, ha, (actsOnly_iff _ "inv" hm ha).mpr ?_⟩
  obtain hu : invoice.uid = "inv" := Option.some.inj ha
  exact congrArg (fun uid => some (Json.str uid)) hu

end Paid

end Anypay
