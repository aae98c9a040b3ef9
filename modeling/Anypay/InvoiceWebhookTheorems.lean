/-
Anypay.InvoiceWebhookTheorems — whether the webhook of an invoice tells its
present state.

The payload is written once, by the first `sendWebhookForInvoice`, and kept
(`keeps_payload`): later calls send it again, whatever became of the invoice
(`confirming_again`). `sent_current` says when that does no harm: at each call the
webhook has no payload yet, or the row is again what it was.
-/
import Anypay.Db.Rules
import Anypay.InvoiceWebhooks

namespace Anypay.InvoiceWebhooks

open Store Async Proc Machine

/-! ## When the payload is that of the row -/

/-- The body is an invoice of this uid, as it stands. -/
def IsRow (w : World) (uid : String) (body : Json) : Prop :=
  ∃ invoice ∈ w.invoices.rows, invoice.uid = uid ∧ body = invoice.toJson

/-- The webhook has an address to be sent to. -/
def Addressed (webhook : Webhook) : Prop := ∃ url, webhook.url = some url ∧ url ≠ ""

/-- What is stored for the invoice to be sent is nothing yet, or its present row. -/
def Fresh (w : World) (uid : String) : Prop :=
  (∃ invoice ∈ w.invoices.rows, invoice.uid = uid) →
    ∀ webhook ∈ w.webhooks.rows, webhook.invoice_uid = some uid → Addressed webhook →
      emptyPayload webhook.payload = true ∨ IsRow w uid webhook.payload

/-- Nothing stale is sent. -/
def SendsFresh (s : State) : Event → Prop
  | .sendWebhookForInvoice uid _ _ => Fresh s.world uid
  | _ => True

/-! ## One call -/

section Step

variable {A : Answer → Prop} {w : World}

/-- Since `w` nothing was posted, or one body of this kind. -/
def Posts (P : Json → Prop) (w t : World) : Prop :=
  t.posts = w.posts ∨ ∃ url body, P body ∧ t.posts = w.posts ++ [(url, body)]

theorem Posts.since {P : Json → Prop} {t : World} (h : Posts P w t) :
    ∀ body ∈ postsSince w t, P body := by
  intro body hbody
  rw [postsSince] at hbody
  rcases h with hsame | ⟨url, sent, hP, hone⟩
  · rw [hsame, List.drop_length] at hbody
    cases hbody
  · rw [hone, List.drop_left, List.map_singleton, List.mem_singleton] at hbody
    rw [hbody]
    exact hP

/-- The stored payload goes out, whatever the answer. -/
theorem wp_sendWebhook_addressed {webhook : Webhook} {url : String} {t : World}
    (hurl : webhook.url = some url) (hne : url ≠ "") (ht : t.posts = w.posts) :
    (sendWebhook webhook).wp A (fun _ u => u.posts = w.posts ++ [(url, webhook.payload)])
      (fun _ u => u.posts = w.posts ++ [(url, webhook.payload)]) t := by
  simp only [sendWebhook, hurl, if_neg hne, bind_eq, wp_bind]
  have hposts : t.posts ++ [(url, webhook.payload)] = w.posts ++ [(url, webhook.payload)] := by
    rw [ht]
  refine wp_step (fun c _ reply _ => ?_) fun _ _ _ => hposts
  cases reply with
  | ok reply =>
      rw [wp_bind]
      exact Delegate.wp_update (fun _ _ _ _ _ _ _ => hposts) fun _ _ _ => hposts
  | error message =>
      rw [wp_bind]
      exact Delegate.wp_update (fun _ _ _ _ _ _ _ => hposts) fun _ _ _ => hposts

/-- Without an address nothing goes out. -/
theorem wp_sendWebhook {P : Json → Prop} {webhook : Webhook} {t : World}
    (ht : t.posts = w.posts) (hP : Addressed webhook → P webhook.payload) :
    (sendWebhook webhook).wp A (fun _ => Posts P w) (fun _ => Posts P w) t := by
  cases hurl : webhook.url with
  | none =>
      rw [sendWebhook, hurl]
      exact .inl ht
  | some url =>
      by_cases hne : url = ""
      · simp only [sendWebhook, hurl, if_pos hne]
        exact .inl ht
      · have hone : ∀ u : World, u.posts = w.posts ++ [(url, webhook.payload)] → Posts P w u :=
          fun u hu => .inr ⟨url, webhook.payload, hP ⟨url, hurl, hne⟩, hu⟩
        exact wp_mono (fun _ => hone) (fun _ => hone) (wp_sendWebhook_addressed hurl hne ht)

/-- Where what is stored is fresh, the row goes out. -/
theorem wp_sendWebhookForInvoice {uid : String} (type : String) (h : Fresh w uid) :
    (sendWebhookForInvoice (some uid) type).wp A (fun _ => Posts (IsRow w uid) w)
      (fun _ => Posts (IsRow w uid) w) w := by
  unfold sendWebhookForInvoice
  simp only [bind_eq, wp_bind]
  refine Delegate.wp_findFirstOrThrow (fun invoice hinvoice huid => ?_) fun _ => .inl rfl
  have huid : invoice.uid = uid := by simpa [matchesField] using huid
  have hrow : IsRow w uid invoice.toJson := ⟨invoice, hinvoice, huid, rfl⟩
  have hfill : ∀ webhook : Webhook, ∀ t : World, t.posts = w.posts →
      (Addressed webhook → emptyPayload webhook.payload = true ∨
        IsRow w uid webhook.payload) →
      (fillPayload webhook invoice.toJson).wp A
        (fun webhook => (sendWebhook webhook).wp A (fun _ => Posts (IsRow w uid) w)
          fun _ => Posts (IsRow w uid) w)
        (fun _ => Posts (IsRow w uid) w) t := by
    intro webhook t ht hpayload
    unfold fillPayload
    split
    · exact Delegate.wp_update (fun now tb r _ _ _ _ => wp_sendWebhook ht fun _ => hrow)
        fun _ _ _ => .inl ht
    · rename_i hfull
      refine wp_sendWebhook ht fun haddr => ?_
      exact (hpayload haddr).resolve_left hfull
  unfold storedWebhook
  simp only [bind_eq, wp_bind]
  refine Delegate.wp_findFirst (fun webhook hwebhook hown => ?_) fun _ => ?_
  · refine hfill webhook w rfl fun haddr => ?_
    have hown : webhook.invoice_uid = some uid := by rw [← huid]; simpa using hown
    exact h ⟨invoice, hinvoice, huid⟩ webhook hwebhook hown haddr
  · exact Delegate.wp_create (fun _ _ _ _ => hfill _ _ rfl fun _ => .inr hrow)
      fun _ _ => .inl rfl

/-- A payload that is there is sent as it is. -/
theorem exec_stored (type : String) {uid url : String} {invoice : Invoice} {webhook : Webhook}
    (hinvoice : invoice ∈ w.invoices.rows) (huid : invoice.uid = uid)
    (hwebhook : webhook ∈ w.webhooks.rows) (hown : webhook.invoice_uid = some uid)
    (hurl : webhook.url = some url) (hne : url ≠ "")
    (hfull : emptyPayload webhook.payload = false) :
    ∃ o, ((sendWebhookForInvoice (some uid) type).exec o w).2.posts =
      w.posts ++ [(url, webhook.payload)] := by
  obtain ⟨i, hi⟩ : ∃ i, w.invoices.pick (fun r => matchesField (some uid) r.uid) i =
      some invoice := Table.exists_pick hinvoice (by simp [matchesField, huid])
  obtain ⟨j, hj⟩ : ∃ j, w.webhooks.pick (fun r => r.invoice_uid == some invoice.uid) j =
      some webhook := Table.exists_pick hwebhook (by simp [hown, huid])
  let o : Nat → Answer := fun n => n.casesOn { row := i } fun _ => { row := j }
  refine ⟨o, ?_⟩
  unfold sendWebhookForInvoice storedWebhook
  simp only [bind_eq, bind_assoc]
  rw [Delegate.exec_found_bind (o := o) hi, Delegate.exec_findFirst_bind]
  have hpick : (prisma.webhooks.get w).pick (fun r => r.invoice_uid == some invoice.uid)
      (tail o 0).row = some webhook := hj
  rw [hpick]
  simp only [fillPayload, hfull, pure_eq, done_bind]
  exact wp_exec_state (A := AnyAnswer) (wp_sendWebhook_addressed hurl hne rfl) (anyAnswer _)

end Step

/-! ## Whole runs -/

section Runs

variable {env : Env}

theorem sends_current {s t : State} {e : Event} (h : SendsFresh s e)
    (hs : ∀ p ∈ s.sent, p.Current) (ht : step env s e = some t) : ∀ p ∈ t.sent, p.Current := by
  cases e with
  | createWebhookForInvoice invoice o =>
      obtain rfl := Option.some.inj ht
      exact hs
  | sendWebhookForInvoice uid type o =>
      obtain rfl := Option.some.inj ht
      have hposts := wp_exec_state (A := AnyAnswer)
        (wp_sendWebhookForInvoice type h) (anyAnswer o)
      intro p hp
      rcases List.mem_append.mp hp with hp | hp
      · exact hs p hp
      · obtain ⟨body, hbody, rfl⟩ := List.mem_map.mp hp
        exact hposts.since body hbody
  | elsewhere w =>
      obtain rfl := Option.some.inj ht
      exact hs

/-- What one call sends is the present row, whatever it finds, where nothing else
is stored; and only there. -/
theorem sends_current_iff {w : World} {uid type : String} :
    (∀ o t, step env { world := w } (.sendWebhookForInvoice uid type o) = some t →
      ∀ p ∈ t.sent, p.Current) ↔ Fresh w uid := by
  constructor
  · rintro h ⟨invoice, hinvoice, huid⟩ webhook hwebhook hown ⟨url, hurl, hne⟩
    cases hfull : emptyPayload webhook.payload with
    | true => exact .inl rfl
    | false =>
        right
        obtain ⟨o, ho⟩ := exec_stored type hinvoice huid hwebhook hown hurl hne hfull
        refine h o _ rfl { uid, body := webhook.payload, invoices := w.invoices.rows } ?_
        have hsince : postsSince w ((sendWebhookForInvoice (some uid) type).exec o w).2 =
            [webhook.payload] := by
          rw [postsSince, ho, List.drop_left]
          rfl
        simp [hsince]
  · intro h o t ht
    have hfresh : SendsFresh { world := w } (.sendWebhookForInvoice uid type o) := h
    exact sends_current hfresh (fun p hp => (List.not_mem_nil hp).elim) ht

end Runs

/-- In every run that sends nothing stale each POST carries the invoice as it was
at its call; and a call may send something else as soon as something else is stored. -/
theorem sent_current (env : Env) :
    (∀ w s, Reach (step env) SendsFresh { world := w } s → ∀ p ∈ s.sent, p.Current) ∧
    ∀ (w : World) (uid type : String),
      (∀ o t, step env { world := w } (.sendWebhookForInvoice uid type o) = some t →
        ∀ p ∈ t.sent, p.Current) ↔ Fresh w uid := by
  constructor
  · intro w s hrun
    have hstart : ∀ p ∈ (show State from { world := w }).sent, p.Current :=
      fun p hp => (List.not_mem_nil hp).elim
    exact hrun.inv hstart fun t e u ht hok hstep => sends_current hok ht hstep
  · intro w uid type
    exact sends_current_iff

/-! ## An invoice confirmed after its webhook was sent -/

/-- An invoice whose merchant wants to hear of it. -/
def ordered (status : InvoiceStatus) : Invoice :=
  { id := 1, uid := "inv", status, webhook_url := some "https://shop" }

def withInvoice (status : InvoiceStatus) : World := { invoices := .single (ordered status) }

/-- Paid, sent, confirmed, sent. -/
def confirmedLater : List Event := [
  .createWebhookForInvoice (ordered .unpaid) fun _ => {},
  .elsewhere (withInvoice .confirming),
  .sendWebhookForInvoice "inv" "api_on_complete_payment" fun _ => {},
  .elsewhere (withInvoice .paid),
  .sendWebhookForInvoice "inv" "confirmTransaction" fun _ => {}]

/-- The status an invoice is said to have. -/
def saidStatus (body : Json) : String :=
  match body.get "status" with
  | some (.str s) => s
  | _ => ""

/-- What was said, and what was true then. -/
def told (s : State) : List (String × List InvoiceStatus) :=
  s.sent.map fun p => (saidStatus p.body, p.invoices.map Invoice.status)

theorem Sent.Current.saidStatus {p : Sent} (h : p.Current) :
    ∃ status ∈ p.invoices.map Invoice.status, saidStatus p.body = status.toString := by
  obtain ⟨invoice, hmem, -, hbody⟩ := h
  refine ⟨invoice.status, List.mem_map_of_mem hmem, ?_⟩
  rw [hbody]
  rfl

theorem told_confirmedLater : ((run (step {}) confirmedLater
    { world := withInvoice .unpaid }).map told) =
      some [("confirming", [.confirming]), ("confirming", [.paid])] := by
  decide +kernel

/-- The paid invoice is told as confirming once more. -/
theorem confirming_again :
    ¬ ∀ (env : Env) (w : World) (s : State), Reach (step env) Unguarded { world := w } s →
      ∀ p ∈ s.sent, p.Current := by
  intro h
  obtain ⟨s, hs, htold⟩ := Option.map_eq_some_iff.mp told_confirmedLater
  have hall := h {} _ s (reach_of_run (guarded_unguarded _ _) hs)
  have hlast : ("confirming", [InvoiceStatus.paid]) ∈ told s := by
    rw [htold]
    simp
  obtain ⟨p, hp, hpe⟩ := List.mem_map.mp hlast
  obtain ⟨hsaid, hstatus⟩ := Prod.mk.inj hpe
  obtain ⟨status, hmem, heq⟩ := (hall p hp).saidStatus
  rw [hstatus, List.mem_singleton] at hmem
  rw [hsaid, hmem] at heq
  exact absurd heq (by decide)

/-- Sent for the first time, it tells the truth. -/
theorem sent_current_first :
    ∃ s, Reach (step {}) SendsFresh { world := withInvoice .paid } s ∧ s.sent.length = 1 ∧
      ∀ p ∈ s.sent, p.Current := by
  have hfresh : Fresh (withInvoice .paid) "inv" := fun _ _ hwebhook => nomatch hwebhook
  have hrun : Reach (step {}) SendsFresh { world := withInvoice .paid } _ :=
    .step .start (e := .sendWebhookForInvoice "inv" "api_on_complete_payment" fun _ => {})
      hfresh rfl
  exact ⟨_, hrun, by decide +kernel, (sent_current {}).1 _ _ hrun⟩

end Anypay.InvoiceWebhooks
