/-
Anypay.WebhookServerTheorems — which transitions the webhook server hears of.

The server wants an ENVELOPE: a topic, and the invoice's uid inside the payload.
Three of its producers send one (`createInvoice`, `cancelInvoice`, and
`completePayment` of a payment that needs no confirmation). The others send a bare
payment row or invoice row, or use another routing key, or send nothing; the
handler finds no uid there and only logs. `heard_iff` is the table of all of
them; that a uid can be given to two invoices is the other way to go wrong, since
the handler and the builders look invoices up by it.
-/
import Anypay.LifecycleTheorems
import Anypay.WebhookServer

namespace Anypay

open Store Async Proc Session Lifecycle

namespace WebhookServer

/-! ## Transitions -/

/-- A step in the life of an invoice or of a payment, with the call that makes
it. -/
inductive Transition where
  /-- `createInvoice`. -/
  | created (params : List (String × Json))
  /-- The invoice of `createPaymentRequest`. -/
  | requested (app_id : Int) (template : List Json) (options : Option Json)
  | cancelled (invoice : Invoice)
  /-- `completePayment`, of a payment that needs no confirmation. -/
  | paid (option : PaymentOption) (transaction : Transaction)
  /-- The invoice is paid because `confirmPayment` confirms the payment. -/
  | paidByBlock (payment : Payment) (confirmation : Confirmation)
  /-- The same in `confirmTransaction` of blockcypher. -/
  | paidByBlockcypher (payment : Payment) (found : Option Confirmation)
  /-- `completePayment`, of a payment that waits for its confirmation. -/
  | confirming (option : PaymentOption) (transaction : Transaction)
  /-- `handleUnconfirmedPayment`. -/
  | unconfirmed (option : PaymentOption) (transaction : Transaction)
  | confirmed (payment : Payment) (confirmation : Confirmation)
  /-- `revertPayment`. -/
  | failed (txid : String)

namespace Transition

/-- The routing key the server listens to for it. -/
def topic : Transition → String
  | created _ | requested _ _ _ => "invoice.created"
  | cancelled _ => "invoice.cancelled"
  | paid _ _ | paidByBlock _ _ | paidByBlockcypher _ _ => "invoice.paid"
  | confirming _ _ | unconfirmed _ _ => "payment.confirming"
  | confirmed _ _ => "payment.confirmed"
  | failed _ => "payment.failed"

def code (env : Env) : Transition → Task Unit
  | created params => discard (createInvoice env params)
  | requested app_id template options =>
      discard (createPaymentRequest env app_id template options)
  | cancelled invoice => discard (cancelInvoice invoice)
  | paid option transaction => discard (completePayment env option transaction false)
  | paidByBlock payment confirmation => discard (confirmPayment payment confirmation)
  | paidByBlockcypher payment found => discard (confirmTransaction payment found)
  | confirming option transaction => discard (completePayment env option transaction true)
  | unconfirmed option transaction => discard (handleUnconfirmedPayment env option transaction)
  | confirmed payment confirmation => discard (confirmPayment payment confirmation)
  | failed txid => revertPayment txid

/-- The world the call leaves. -/
def after (env : Env) (transition : Transition) (o : Nat → Answer) (w : World) : World :=
  ((transition.code env).exec o w).2

/-- The transition took place: of an invoice where the invoices were written, of
a payment where the payments were. -/
def Happened (transition : Transition) (w t : World) : Prop :=
  match transition with
  | confirming _ _ | unconfirmed _ _ | confirmed _ _ | failed _ => t.payments ≠ w.payments
  | _ => t.invoices ≠ w.invoices

/-- The transition is one of the invoice with this uid. -/
def Concerns (transition : Transition) (w t : World) (uid : String) : Prop :=
  match transition with
  | created _ | requested _ _ _ => ∃ r ∈ t.invoices.rows, r ∉ w.invoices.rows ∧ r.uid = uid
  | cancelled invoice =>
      invoice.uid = uid ∧ ∃ r ∈ w.invoices.rows, r.id = invoice.id ∧ r.uid = invoice.uid
  | paid option _ | confirming option _ | unconfirmed option _ => option.invoice_uid = uid
  | paidByBlock payment _ | paidByBlockcypher payment _ | confirmed payment _ =>
      payment.invoice_uid = uid
  | failed txid => ∃ p ∈ w.payments.rows, p.txid = txid ∧ p.invoice_uid = uid

/-- The call sends an envelope, and the uid, which is not empty, names the invoice
alone. -/
def Announced (transition : Transition) (w : World) (uid : String) : Prop :=
  match transition with
  | created _ => uid ≠ "" ∧ ∀ r ∈ w.invoices.rows, r.uid ≠ uid
  | cancelled _ | paid _ _ => uid ≠ "" ∧ w.OneInvoice uid
  | _ => False

end Transition

/-! ## What is promised -/

/-- The messages sent between two worlds. -/
def news (w t : World) : List (String × Json) := t.published.drop w.published.length

/-- The topic a posted body has. -/
def bodyTopic (body : Json) : Option String := Json.str? (body.get "topic")

/-- The uid in the messages names the invoice, and once they are delivered one
body of the transition's topic was posted, to its URL. -/
structure Covered (topic uid url : String) (w t : World) : Prop where
  named : t.OneInvoice uid
  once : ∀ o, ∃ payload,
    (((serve (news w t)).exec o t).2.posts.drop t.posts.length).filter
      (fun p => bodyTopic p.2 == some topic) = [(url, payload)]

/-! ## Builders -/

variable {t : World} {topic uid url : String}

/-- `t` with these bodies posted. -/
def posting (t : World) (ps : List (String × Json)) : World :=
  { t with posts := t.posts ++ ps }

theorem posting_nil (t : World) : posting t [] = t := by
  unfold posting
  rw [List.append_nil]

theorem posting_posting (t : World) (ps ps' : List (String × Json)) :
    posting (posting t ps) ps' = posting t (ps ++ ps') := by
  unfold posting
  rw [List.append_assoc]

theorem bodyTopic_invoiceEvent (topic : String) (invoice : Invoice)
    (body : List (String × Json)) :
    bodyTopic (invoiceEvent topic invoice body) = some topic := rfl

/-- A call that only reads ends with a body of this topic, or throws. -/
def Reads (topic : String) (t : World) (p : Task Json) : Prop :=
  p.wp AnyAnswer (fun payload u => u = t ∧ bodyTopic payload = some topic)
    (fun _ u => u = t) t

theorem reads_findInvoice {f : Invoice → Task Json} (h : ∀ r, Reads topic t (f r)) :
    Reads topic t ((findInvoice uid).bind f) := by
  rw [Reads, wp_bind]
  exact Delegate.wp_findFirstOrThrow (fun r _ _ => h r) fun _ => rfl

theorem reads_findPayment {f : Payment → Task Json} (h : ∀ p, Reads topic t (f p)) :
    Reads topic t ((findPayment uid).bind f) := by
  rw [Reads, wp_bind]
  exact Delegate.wp_findFirstOrThrow (fun p _ _ => h p) fun _ => rfl

theorem reads_event {invoice : Invoice} {body : List (String × Json)} :
    Reads topic t (done (invoiceEvent topic invoice body)) := ⟨rfl, rfl⟩

theorem reads_check {b : Prop} [Decidable b] {message : String} {p : Task Json}
    (h : Reads topic t p) : Reads topic t (if b then reject message else p) := by
  split
  · exact rfl
  · exact h

/-- A builder reads the database, and its payload has its topic. -/
theorem reads_buildPayload : Reads topic t (buildPayload topic uid) := by
  unfold buildPayload
  cases hlookup : builderFunctions.lookup topic with
  | none => exact rfl
  | some build =>
      obtain ⟨before, rest, hmem, -⟩ := List.lookup_eq_some_iff.mp hlookup
      have hbuild : (topic, build) ∈ builderFunctions := by
        rw [hmem]
        simp
      simp only [builderFunctions, List.mem_cons, Prod.mk.injEq, List.not_mem_nil,
        or_false] at hbuild
      rcases hbuild with ⟨rfl, rfl⟩ | ⟨rfl, rfl⟩ | ⟨rfl, rfl⟩ | ⟨rfl, rfl⟩ | ⟨rfl, rfl⟩ |
        ⟨rfl, rfl⟩
      · exact reads_findInvoice fun _ => reads_check reads_event
      · exact reads_findInvoice fun _ => reads_check (reads_findPayment fun _ => reads_event)
      · exact reads_findInvoice fun _ => reads_check reads_event
      · exact reads_findPayment fun _ => reads_findInvoice fun _ => reads_check reads_event
      · exact reads_findPayment fun _ => reads_findInvoice fun _ =>
          reads_check (reads_check reads_event)
      · exact reads_findPayment fun _ => reads_findInvoice fun _ =>
          reads_check (reads_check reads_event)

/-- What the builder of a topic asks for, of the invoice. -/
inductive Ready (t : World) (r : Invoice) : String → Prop where
  | created : Ready t r "invoice.created"
  | cancelled (status : r.status = .cancelled) : Ready t r "invoice.cancelled"
  | paid (status : r.status = .paid) (p : Payment) (row : p ∈ t.payments.rows)
      (invoice_uid : p.invoice_uid = r.uid) : Ready t r "invoice.paid"

section Found

variable {A : Answer → Prop} {E : Failure → World → Prop} {r : Invoice}
  (hone : t.OneInvoice r.uid) (hr : r ∈ t.invoices.rows)
include hone hr

theorem wp_findInvoice {Q : Invoice → World → Prop} (h : Q r t) :
    (findInvoice r.uid).wp A Q E t := by
  refine Delegate.wp_findFirstOrThrow (fun r' hr' hw => ?_) fun hnone => ?_
  · rw [hone r' hr' r hr (eq_of_beq hw) rfl]
    exact h
  · have hno := hnone r hr
    simp at hno

theorem wp_buildPayload_ready (hready : Ready t r topic) :
    (buildPayload topic r.uid).wp A (fun payload u => u = t ∧ bodyTopic payload = some topic)
      E t := by
  cases hready with
  | created =>
      change (buildInvoiceCreated r.uid).wp A _ E t
      unfold buildInvoiceCreated
      rw [bind_eq, wp_bind]
      refine wp_findInvoice hone hr ?_
      rw [if_neg (not_not_intro rfl)]
      exact ⟨rfl, rfl⟩
  | cancelled hstatus =>
      change (buildInvoiceCancelled r.uid).wp A _ E t
      unfold buildInvoiceCancelled
      rw [bind_eq, wp_bind]
      refine wp_findInvoice hone hr ?_
      rw [if_neg (not_not_intro hstatus)]
      exact ⟨rfl, rfl⟩
  | paid hstatus p hp hpu =>
      change (buildInvoicePaid r.uid).wp A _ E t
      unfold buildInvoicePaid
      rw [bind_eq, wp_bind]
      refine wp_findInvoice hone hr ?_
      rw [if_neg (not_not_intro hstatus), bind_eq, wp_bind]
      refine Delegate.wp_findFirstOrThrow (fun p' _ _ => ⟨rfl, rfl⟩) fun hnone => ?_
      have hno := hnone p hp
      simp [hpu] at hno

end Found

/-! ## The handler -/

/-- A body is posted, and the answer makes no difference to the world. -/
theorem wp_sendWebhook_posting {A : Answer → Prop} {Q : World → Prop}
    (h : (buildPayload topic uid).wp A
      (fun payload u => u = t ∧ Q (posting t [(url, payload)])) (fun _ => Q) t) :
    (sendWebhook topic uid url).wp A (fun _ => Q) (fun _ => Q) t := by
  unfold sendWebhook
  rw [bind_eq, wp_bind]
  refine wp_mono (fun payload u hu => ?_) (fun _ _ h => h) h
  obtain ⟨rfl, hQ⟩ := hu
  rw [bind_eq, wp_bind]
  refine wp_step (fun c _ reply hreply => ?_) fun _ _ he => nomatch he
  obtain rfl := Except.ok.inj hreply
  cases c.post with
  | ok reply =>
      obtain ⟨status, body⟩ := reply
      change Proc.wp A _ _ (if status = 200 then _ else _) _
      split
      · exact hQ
      · exact hQ
  | error message => exact hQ

/-- A body with a uid: what is posted to the invoice's URL. -/
theorem wp_handle_named {json : Json} {uid : String} (huid : invoiceUid json = some (.str uid))
    (hne : uid ≠ "") {A : Answer → Prop} {E : Failure → World → Prop}
    {Q : Unit → World → Prop}
    (h : ((findInvoice uid).bind fun invoice =>
      (buildPayload ((bodyTopic json).getD "undefined") uid).bind fun _ =>
        match nonEmpty invoice.webhook_url with
        | none => done ()
        | some url => sendWebhook ((bodyTopic json).getD "undefined") uid url).wp A Q E t) :
    (handle json).wp A Q E t := by
  have htruthy : Json.truthy (invoiceUid json) = true := by
    rw [huid]
    exact decide_eq_true hne
  unfold handle
  split
  · cases huid
  · rw [htruthy, if_neg (by decide), huid]
    exact h

theorem handle_unnamed {json : Json} (h : ∀ uid, invoiceUid json = some (.str uid) → uid = "") :
    ∃ e, handle json = fail e := by
  unfold handle
  split
  · exact ⟨_, rfl⟩
  · split
    · exact ⟨_, rfl⟩
    · rename_i htruthy
      split
      · rename_i uid huid
        refine absurd ?_ htruthy
        rw [huid, h uid huid]
        rfl
      · exact ⟨_, rfl⟩

theorem buildPayload_undefined (uid : String) :
    buildPayload "undefined" uid = reject ("No builder function for topic: " ++ "undefined") := by
  have hlookup : builderFunctions.lookup "undefined" = none := by
    simp [builderFunctions, List.lookup_cons]
  rw [buildPayload, hlookup]

/-- Whatever the message, bodies of its own topic are posted, and nothing else
happens. -/
theorem wp_onMessage (json : Json) : (onMessage json).wp AnyAnswer
    (fun _ u => ∃ ps, u = posting t ps ∧ ∀ p ∈ ps, bodyTopic p.2 = bodyTopic json)
    (fun _ _ => False) t := by
  have hsame : ∃ ps, t = posting t ps ∧ ∀ p ∈ ps, bodyTopic p.2 = bodyTopic json :=
    ⟨[], (posting_nil t).symm, by simp⟩
  unfold onMessage detached
  rw [wp_tryCatch]
  by_cases hnamed : ∀ uid, invoiceUid json = some (.str uid) → uid = ""
  · obtain ⟨e, he⟩ := handle_unnamed hnamed
    rw [he]
    exact hsame
  · push Not at hnamed
    obtain ⟨uid, huid, hne⟩ := hnamed
    refine wp_handle_named huid hne ?_
    rw [wp_bind]
    refine Delegate.wp_findFirstOrThrow (fun r _ _ => ?_) fun _ => hsame
    cases htopic : bodyTopic json with
    | none =>
        rw [htopic] at hsame
        rw [Option.getD_none, buildPayload_undefined]
        exact hsame
    | some topic =>
        rw [htopic] at hsame
        rw [wp_bind]
        refine wp_mono (fun payload u hu => ?_) (fun _ u hu => hu ▸ hsame) reads_buildPayload
        obtain ⟨rfl, -⟩ := hu
        cases nonEmpty r.webhook_url with
        | none => exact hsame
        | some url =>
            refine wp_sendWebhook_posting ?_
            refine wp_mono (fun payload u hu => ⟨hu.1, _, rfl, ?_⟩)
              (fun _ u hu => hu ▸ hsame) reads_buildPayload
            intro p hp
            obtain rfl := List.mem_singleton.mp hp
            exact hu.2

/-- A message that names no invoice is logged. -/
theorem wp_onMessage_unnamed {json : Json}
    (h : ∀ uid, invoiceUid json = some (.str uid) → uid = "") :
    (onMessage json).wp AnyAnswer (fun _ u => u = t) (fun _ _ => False) t := by
  unfold onMessage detached
  rw [wp_tryCatch]
  obtain ⟨e, he⟩ := handle_unnamed h
  rw [he]
  exact rfl

/-- An envelope of an invoice the builder is ready for: one body, to its URL. -/
theorem wp_onMessage_ready {json : Json} {r : Invoice} (hone : t.OneInvoice r.uid)
    (hr : r ∈ t.invoices.rows) (hne : r.uid ≠ "") (hready : Ready t r topic)
    (huid : invoiceUid json = some (.str r.uid)) (htopic : bodyTopic json = some topic)
    (hurl : nonEmpty r.webhook_url = some url) :
    (onMessage json).wp AnyAnswer
      (fun _ u => ∃ payload, u = posting t [(url, payload)] ∧ bodyTopic payload = some topic)
      (fun _ _ => False) t := by
  unfold onMessage detached
  rw [wp_tryCatch]
  refine wp_handle_named huid hne ?_
  rw [wp_bind]
  refine wp_findInvoice hone hr ?_
  rw [htopic, Option.getD_some, wp_bind]
  refine wp_mono (fun payload u hu => ?_) (fun _ _ h => h.elim)
    (@wp_buildPayload_ready t topic _ (fun _ _ => False) r hone hr hready)
  obtain ⟨rfl, -⟩ := hu
  rw [hurl]
  refine wp_sendWebhook_posting ?_
  exact wp_mono (fun payload u hu => ⟨hu.1, payload, rfl, hu.2⟩) (fun _ _ h => h.elim)
    (@wp_buildPayload_ready _ topic _ (fun _ _ => False) r hone hr hready)

/-! ## The queues -/

/-- What is proved of the bodies of every run is true of the posts of each. -/
theorem posted_of_wp {published : List (String × Json)} {P : List (String × Json) → Prop}
    (h : (serve published).wp AnyAnswer (fun _ u => ∃ ps, u = posting t ps ∧ P ps)
      (fun _ _ => False) t) (o : Nat → Answer) :
    P (((serve published).exec o t).2.posts.drop t.posts.length) := by
  have hend := wp_exec h (anyAnswer o)
  revert hend
  generalize (serve published).exec o t = run
  intro hend
  cases hrun : run.1 with
  | error e =>
      rw [hrun] at hend
      exact hend.elim
  | ok _ =>
      rw [hrun] at hend
      obtain ⟨ps, hu, hP⟩ := hend
      rw [hu]
      change P ((t.posts ++ ps).drop t.posts.length)
      rwa [List.drop_left]

/-- No body of a topic is posted where no message has it. -/
theorem wp_serve_silent {published : List (String × Json)}
    (h : ∀ m ∈ published, bodyTopic m.2 ≠ some topic) :
    (serve published).wp AnyAnswer
      (fun _ u => ∃ ps, u = posting t ps ∧ ∀ p ∈ ps, bodyTopic p.2 ≠ some topic)
      (fun _ _ => False) t := by
  refine wp_forEach (fun m hm u hu => ?_) ⟨[], (posting_nil t).symm, by simp⟩
  obtain ⟨ps, rfl, hps⟩ := hu
  split
  · refine wp_mono (fun _ v hv => ?_) (fun _ _ h => h) (wp_onMessage m.2)
    obtain ⟨ps', rfl, hps'⟩ := hv
    refine ⟨ps ++ ps', posting_posting t ps ps', fun p hp => ?_⟩
    rcases List.mem_append.mp hp with hp | hp
    · exact hps p hp
    · rw [hps' p hp]
      exact h m hm
  · exact ⟨ps, rfl, hps⟩

/-- Messages that name no invoice, or that nobody listens to. -/
theorem wp_serve_ignored {published : List (String × Json)}
    (h : ∀ m ∈ published, m.1 ∈ topics →
      ∀ uid, invoiceUid m.2 = some (.str uid) → uid = "") :
    (serve published).wp AnyAnswer (fun _ u => u = t) (fun _ _ => False) t := by
  refine wp_forEach (fun m hm u hu => ?_) rfl
  split
  · rename_i hheard
    rw [hu]
    exact wp_onMessage_unnamed (h m hm (by simpa using hheard))
  · exact hu

theorem followers_unheard {kind topic key : String} {id : Option Int}
    (hkind : kind.toList.head? = some 'a') (h : key ∈ followers kind id topic) :
    key ∉ topics := by
  have hlisten : ∀ key ∈ topics, key.toList.head? ≠ some 'a' := by decide
  exact fun hmem => hlisten key hmem (followers_head hkind h)

/-- The uid an event carries. -/
theorem invoiceUid_event {e : Event} {uid : String} {rest : List (String × Json)}
    (h : Json.field "invoice" e.body = some (.obj (("uid", .str uid) :: rest))) :
    invoiceUid e.toJson = some (.str uid) := by
  cases haccount : e.account_id <;> cases happ : e.app_id <;>
    simp [invoiceUid, Event.toJson, optionalId, haccount, happ, Json.field_cons, h]

/-- The log line has the event where the payload should be. -/
theorem invoiceUid_logLine (key : String) (e : Event) : invoiceUid (logLine key e) = none := by
  simp [invoiceUid, logLine, Event.toJson, Json.field_cons]

/-- An event sent as an envelope: the log line is passed over, the followers' keys
are not listened to. -/
theorem wp_serve_publications {e : Event} {r : Invoice} {rest : List (String × Json)}
    (hone : t.OneInvoice r.uid) (hr : r ∈ t.invoices.rows) (hne : r.uid ≠ "")
    (hready : Ready t r topic) (hpasses : passes topic e = true) (htopic : e.topic = topic)
    (hbody : Json.field "invoice" e.body = some (.obj (("uid", .str r.uid) :: rest)))
    (hurl : nonEmpty r.webhook_url = some url) :
    (serve (publications (topic, e))).wp AnyAnswer
      (fun _ u => ∃ ps, u = posting t ps ∧
        ∃ payload, ps = [(url, payload)] ∧ bodyTopic payload = some topic)
      (fun _ _ => False) t := by
  have hheard : topics.contains topic = true := by
    cases hready <;> decide
  have hrest : ∀ m ∈ (followers "apps" e.app_id e.topic ++
      followers "accounts" e.account_id e.topic).map fun k => (k, e.toJson), m.1 ∉ topics := by
    intro m hm
    obtain ⟨k, hk, rfl⟩ := List.mem_map.mp hm
    rcases List.mem_append.mp hk with hk | hk
    · exact followers_unheard rfl hk
    · exact followers_unheard rfl hk
  simp only [publications, hpasses, if_true, eventKeys, List.map_cons]
  unfold serve
  simp only [forEach, hheard, if_true]
  rw [wp_bind]
  refine wp_mono (fun _ u hu => ?_) (fun _ _ h => h) (wp_onMessage_unnamed fun uid huid => ?_)
  swap
  · rw [invoiceUid_logLine] at huid
    cases huid
  rw [hu, wp_bind]
  refine wp_mono (fun _ u hu => ?_) (fun _ _ h => h)
    (wp_onMessage_ready hone hr hne hready (invoiceUid_event hbody) ?_ hurl)
  · obtain ⟨payload, rfl, hpayload⟩ := hu
    refine wp_mono (fun _ v hv => ?_) (fun _ _ h => h)
      (wp_serve_ignored fun m hm hheard => absurd hheard (hrest m hm))
    exact ⟨[(url, payload)], hv, payload, rfl, hpayload⟩
  · rw [← htopic]
    rfl

/-! ## Envelopes -/

/-- Between two worlds an event was published, about this invoice. -/
structure Enveloped (topic : String) (r : Invoice) (w t : World) : Prop where
  sent : ∃ e, t.published = w.published ++ publications (topic, e) ∧ passes topic e = true ∧
    e.topic = topic ∧
    ∃ rest, Json.field "invoice" e.body = some (.obj (("uid", .str r.uid) :: rest))
  ready : Ready t r topic

theorem news_of_append {w t : World} {ms : List (String × Json)}
    (h : t.published = w.published ++ ms) : news w t = ms := by
  rw [news, h]
  exact List.drop_left

theorem nonEmpty_some {s : String} (h : s ≠ "") : nonEmpty (some s) = some s := by
  simp [nonEmpty, h]

/-- Where the uid is empty the envelope goes by. -/
theorem once_fails_of_empty {r : Invoice} {w t : World} (h : Enveloped topic r w t)
    (huid : r.uid = "") : ¬ Covered topic r.uid url w t := by
  obtain ⟨e, hpublished, hpasses, -, rest, hbody⟩ := h.sent
  have hignored : ∀ m ∈ publications (topic, e), m.1 ∈ topics →
      ∀ uid, invoiceUid m.2 = some (.str uid) → uid = "" := by
    intro m hm _ uid hnamed
    simp only [publications, hpasses, if_true] at hm
    rcases List.mem_cons.mp hm with rfl | hm
    · rw [invoiceUid_logLine] at hnamed
      cases hnamed
    · obtain ⟨k, -, rfl⟩ := List.mem_map.mp hm
      rw [invoiceUid_event hbody] at hnamed
      cases hnamed
      exact huid
  intro hcovered
  obtain ⟨payload, honce⟩ := hcovered.once fun _ => {}
  have hsilent := @posted_of_wp t _ (fun ps => ps = []) (wp_mono
    (fun _ u hu => ⟨[], hu.trans (posting_nil t).symm, rfl⟩) (fun _ _ h => h)
    (wp_serve_ignored hignored)) fun _ => {}
  rw [news_of_append hpublished, hsilent] at honce
  cases honce

/-- An envelope covers its invoice where the uid names it alone and is not empty. -/
theorem covered_of_enveloped {r : Invoice} {w t : World}
    (h : t.OneInvoice r.uid → Enveloped topic r w t) (hr : r ∈ t.invoices.rows)
    (hurl : r.webhook_url = some url) (hne : url ≠ "") :
    Covered topic r.uid url w t ↔ r.uid ≠ "" ∧ t.OneInvoice r.uid := by
  constructor
  · intro hcovered
    exact ⟨fun huid => once_fails_of_empty (h hcovered.named) huid hcovered, hcovered.named⟩
  · rintro ⟨huid, hone⟩
    obtain ⟨e, hpublished, hpasses, htopic, rest, hbody⟩ := (h hone).sent
    have hnonempty : nonEmpty r.webhook_url = some url := by
      rw [hurl, nonEmpty_some hne]
    refine ⟨hone, fun o => ?_⟩
    obtain ⟨payload, hposted, hpayload⟩ := posted_of_wp
      (wp_serve_publications hone hr huid (h hone).ready hpasses htopic hbody hnonempty) o
    refine ⟨payload, ?_⟩
    rw [news_of_append hpublished, hposted]
    simp [hpayload]

/-- Messages were published, none of them with this topic. -/
def Silent (topic : String) (w t : World) : Prop :=
  ∃ ms, t.published = w.published ++ ms ∧ ∀ m ∈ ms, bodyTopic m.2 ≠ some topic

theorem Silent.of_same {w t : World} (h : t.published = w.published) : Silent topic w t :=
  ⟨[], by rw [h, List.append_nil], by simp⟩

theorem Silent.not_covered {w t : World} (h : Silent topic w t) :
    ¬ Covered topic uid url w t := by
  obtain ⟨ms, hpublished, hms⟩ := h
  intro hcovered
  obtain ⟨payload, honce⟩ := hcovered.once fun _ => {}
  rw [news_of_append hpublished] at honce
  have hsilent := @posted_of_wp t _ _ (wp_serve_silent hms) fun _ => {}
  have hmem := List.mem_filter.mp (honce ▸ List.mem_singleton_self (url, payload))
  exact hsilent _ hmem.1 (eq_of_beq hmem.2)

theorem bodyTopic_payment (p : Payment) : bodyTopic p.toJson = none := by
  simp [bodyTopic, Payment.toJson, Json.field_cons, Json.str?]

theorem bodyTopic_invoice (r : Invoice) : bodyTopic r.toJson = none := by
  simp [bodyTopic, Invoice.toJson, Json.field_cons, Json.str?]

/-! ## The transitions -/

namespace Transition

variable {env : Env} {o : Nat → Answer} {w : World}

/-- What holds at every end of the call holds in the world it leaves. -/
theorem after_of_wp {transition : Transition} {I : World → Prop}
    (h : (transition.code env).wp AnyAnswer (fun _ => I) (fun _ => I) w) :
    I (transition.after env o w) :=
  wp_exec_state h (anyAnswer o)

theorem wp_discard {α : Type} {p : Task α} {I : World → Prop}
    (h : p.wp AnyAnswer (fun _ => I) (fun _ => I) w) :
    (discard p : Task Unit).wp AnyAnswer (fun _ => I) (fun _ => I) w := by
  rw [discard_eq, wp_bind]
  exact h

/-! ### Silent ones -/

theorem silent_payment {t : World} {topic key : String} {p : Payment}
    (h : t.published = w.published ++ [(key, p.toJson)]) : Silent topic w t := by
  refine ⟨_, h, fun m hm => ?_⟩
  rw [List.mem_singleton.mp hm, bodyTopic_payment]
  exact fun h => nomatch h

theorem silent_confirmPayment (payment : Payment) (confirmation : Confirmation)
    (topic : String) : (confirmPayment payment confirmation).wp AnyAnswer
      (fun _ => Silent topic w) (fun _ => Silent topic w) w := by
  have htold : ∀ t, ConfirmOutcome payment confirmation w t → Silent topic w t := by
    intro t ht
    cases ht with
    | nothing _ _ hpublished => exact .of_same hpublished
    | orphan _ _ _ _ _ _ hpublished => exact .of_same hpublished
    | confirmed p _ _ _ _ _ _ _ hpublished => exact silent_payment hpublished
  exact wp_mono (fun _ t ht => htold t ht) (fun _ t ht => htold t ht)
    (wp_confirmPayment_told payment confirmation)

theorem silent_confirmTransaction (payment : Payment) (found : Option Confirmation)
    (topic : String) : (confirmTransaction payment found).wp AnyAnswer
      (fun _ => Silent topic w) (fun _ => Silent topic w) w := by
  have htold : ∀ t, BlockOutcome payment w t → Silent topic w t := by
    intro t ht
    cases ht with
    | nothing _ _ hpublished => exact .of_same hpublished
    | orphan p _ _ hpublished => exact silent_payment hpublished
    | met p _ r _ _ _ hpublished =>
        refine ⟨_, hpublished, fun m hm => ?_⟩
        rcases List.mem_cons.mp hm with rfl | hm
        · rw [bodyTopic_payment]
          exact fun h => nomatch h
        · split at hm
          · rw [List.mem_singleton.mp hm, bodyTopic_invoice]
            exact fun h => nomatch h
          · cases hm
  exact wp_mono (fun _ t ht => htold t ht) (fun _ t ht => htold t ht)
    (wp_confirmTransaction_told payment found)

theorem bodyTopic_publications {m : String × Json} {key : String} {e : Event}
    (hm : m ∈ publications (key, e)) (he : e.topic = key) : bodyTopic m.2 = some key := by
  rcases List.mem_cons.mp hm with rfl | hm
  · rfl
  · split at hm
    · obtain ⟨k, -, rfl⟩ := List.mem_map.mp hm
      exact congrArg some he
    · cases hm

/-- The event of a payment that waits is `invoice.paid` too. -/
theorem silent_confirming (option : PaymentOption) (transaction : Transaction) :
    (completePayment env option transaction true).wp AnyAnswer
      (fun _ => Silent "payment.confirming" w) (fun _ => Silent "payment.confirming" w) w := by
  refine wp_mono (fun p t ht => ?_) (fun _ t ht => .of_same ht.2) wp_completePayment_told
  obtain ⟨-, -, r, -, -, hpublished⟩ := ht
  refine ⟨_, hpublished, fun m hm => ?_⟩
  rw [bodyTopic_publications hm rfl]
  decide

theorem silent_revertPayment (txid topic : String) : (revertPayment txid).wp AnyAnswer
    (fun _ => Silent topic w) (fun _ => Silent topic w) w := by
  have htold : ∀ t, RevertOutcome txid w t → Silent topic w t := by
    intro t ht
    cases ht with
    | nothing _ _ hpublished => exact .of_same hpublished
    | reverted _ _ _ _ _ _ _ _ hpublished =>
        obtain ⟨p, r, hpublished⟩ := hpublished
        refine ⟨_, hpublished, fun m hm => ?_⟩
        rw [List.mem_singleton.mp hm]
        simp [bodyTopic, Json.field_cons, Json.str?]
  exact wp_mono (fun _ t ht => htold t ht) (fun _ t ht => htold t ht)
    (wp_revertPayment_told txid)

/-! ### The three with an envelope -/

theorem created_told (params : List (String × Json)) :
    (createInvoice env params).wp AnyAnswer
      (fun r t => t.invoices.rows = w.invoices.rows ++ [r] ∧
        Enveloped "invoice.created" r w t)
      (fun _ t => t = w) w := by
  refine wp_mono (fun r t ht => ?_) (fun _ _ h => h.1)
    (wp_and (wp_createInvoice env params) (wp_createInvoice_told params))
  obtain ⟨⟨_, _, _, -, -, hissued⟩, hpublished⟩ := ht
  refine ⟨hissued.invoices, ⟨_, hpublished, ?_, rfl, _, rfl⟩, .created⟩
  exact invoiceCreated_passes hissued.columns.payable.status

/-- The row of the uid is the cancelled one. -/
theorem cancelled_told (invoice : Invoice) :
    (cancelInvoice invoice).wp AnyAnswer
      (fun _ t => t.names = w.names ∧ ∀ r ∈ t.invoices.rows, r.uid = invoice.uid →
        (∃ r₀ ∈ w.invoices.rows, r₀.id = invoice.id ∧ r₀.uid = invoice.uid) →
        t.OneInvoice r.uid → Enveloped "invoice.cancelled" r w t)
      (fun _ t => t.invoices = w.invoices ∨ ∀ r ∈ t.invoices.rows, r.uid ≠ invoice.uid) w := by
  refine wp_mono (fun _ t ht => ?_) (fun _ _ h => h) (wp_cancelInvoice_told invoice)
  obtain ⟨-, hrows, r', hr', huid', hpublished⟩ := ht
  refine ⟨World.names_patch hrows fun _ => ⟨rfl, rfl⟩, fun r hr huid hthere hone => ?_⟩
  obtain ⟨r₀, hr₀, hid, huid₀⟩ := hthere
  have hmem : { r₀ with status := .cancelled, cancelled := true } ∈ t.invoices.rows := by
    rw [hrows, ← hid]
    exact Table.mem_patch
      (f := fun r : Invoice => { r with status := .cancelled, cancelled := true }) hr₀
  obtain rfl : r = { r₀ with status := .cancelled, cancelled := true } :=
    hone r hr _ hmem rfl (huid₀.trans huid.symm)
  obtain rfl : r' = { r₀ with status := .cancelled, cancelled := true } :=
    hone r' hr' _ hr (huid'.trans huid.symm) rfl
  exact ⟨⟨_, hpublished, cancelledEvent_passes rfl, rfl, _, rfl⟩, .cancelled rfl⟩

/-- The row of the uid is the settled one. -/
theorem paid_told (option : PaymentOption) (transaction : Transaction) :
    (completePayment env option transaction false).wp AnyAnswer
      (fun _ t => t.names = w.names ∧ ∀ r ∈ t.invoices.rows, r.uid = option.invoice_uid →
        t.OneInvoice r.uid → Enveloped "invoice.paid" r w t)
      (fun _ t => t.invoices = w.invoices) w := by
  refine wp_mono (fun p t ht => ?_) (fun _ _ h => h.1.invoices) wp_completePayment_told
  obtain ⟨hrecorded, ⟨r₀, hr₀, huid₀, f, hf, hrows⟩, r', hr', huid', hpublished⟩ := ht
  refine ⟨World.names_patch hrows fun x => ⟨(hf x).id, (hf x).uid⟩,
    fun r hr huid hone => ?_⟩
  have hmem : f r₀ ∈ t.invoices.rows := by
    rw [hrows]
    exact Table.mem_patch hr₀
  have hstatus : r.status = .paid := by
    rw [hone r hr _ hmem rfl ((hf r₀).uid.trans (huid₀.trans huid.symm)), (hf r₀).status_eq]
    rfl
  obtain rfl : r' = r := hone r' hr' r hr (huid'.trans huid.symm) rfl
  refine ⟨⟨_, hpublished, ?_, rfl, _, rfl⟩,
    .paid hstatus p ?_ (hrecorded.invoice_uid.trans huid.symm)⟩
  · rw [paidEvent_passes, hstatus]
    decide +kernel
  · rw [hrecorded.payments]
    simp

/-- A new row has its uid alone where the uid was fresh. -/
theorem oneInvoice_append {t : World} {r : Invoice}
    (hrows : t.invoices.rows = w.invoices.rows ++ [r]) (hnew : r ∉ w.invoices.rows) :
    t.OneInvoice r.uid ↔ ∀ r' ∈ w.invoices.rows, r'.uid ≠ r.uid := by
  have hmem : r ∈ t.invoices.rows := by rw [hrows]; simp
  constructor
  · intro hone r' hr' huid
    have hold : r' ∈ t.invoices.rows := by rw [hrows]; exact List.mem_append_left _ hr'
    exact hnew (hone r' hold r hmem huid rfl ▸ hr')
  · intro hfresh x hx y hy hxu hyu
    have honly : ∀ z ∈ t.invoices.rows, z.uid = r.uid → z = r := by
      intro z hz hzu
      rw [hrows] at hz
      rcases List.mem_append.mp hz with hz | hz
      · exact absurd hzu (hfresh z hz)
      · exact List.mem_singleton.mp hz
    rw [honly x hx hxu, honly y hy hyu]

section Covered

variable {invoice : Invoice} {t : World}

theorem covered_created {r : Invoice} (hrows : t.invoices.rows = w.invoices.rows ++ [r])
    (henveloped : Enveloped "invoice.created" r w t) (hinvoice : invoice ∈ t.invoices.rows)
    (hconcerns : ∃ r ∈ t.invoices.rows, r ∉ w.invoices.rows ∧ r.uid = invoice.uid)
    (hurl : invoice.webhook_url = some url) (hne : url ≠ "") :
    Covered "invoice.created" invoice.uid url w t ↔
      invoice.uid ≠ "" ∧ ∀ r ∈ w.invoices.rows, r.uid ≠ invoice.uid := by
  obtain ⟨x, hx, hnew, huid⟩ := hconcerns
  have hr : r ∈ t.invoices.rows := by rw [hrows]; simp
  obtain rfl : x = r := by
    rw [hrows] at hx
    rcases List.mem_append.mp hx with hx | hx
    · exact absurd hx hnew
    · exact List.mem_singleton.mp hx
  have hsame : t.OneInvoice invoice.uid → Enveloped "invoice.created" invoice w t := by
    intro hone
    obtain rfl : invoice = x := hone invoice hinvoice x hr rfl huid
    exact henveloped
  rw [covered_of_enveloped hsame hinvoice hurl hne, ← huid, oneInvoice_append hrows hnew]

theorem covered_named {topic uid : String} (hnames : t.names = w.names)
    (henveloped : ∀ r ∈ t.invoices.rows, r.uid = uid → t.OneInvoice r.uid →
      Enveloped topic r w t)
    (hinvoice : invoice ∈ t.invoices.rows) (huid : invoice.uid = uid)
    (hurl : invoice.webhook_url = some url) (hne : url ≠ "") :
    Covered topic invoice.uid url w t ↔ invoice.uid ≠ "" ∧ w.OneInvoice invoice.uid := by
  rw [covered_of_enveloped (henveloped invoice hinvoice huid) hinvoice hurl hne]
  have hone : t.OneInvoice invoice.uid ↔ w.OneInvoice invoice.uid :=
    ⟨fun h => h.of_names hnames.symm, fun h => h.of_names hnames⟩
  rw [hone]

end Covered

end Transition

/-- **A transition is covered exactly when it is announced.** Of one that happened,
for an invoice it concerns that has a webhook URL. -/
theorem heard_iff (env : Env) (transition : Transition) (o : Nat → Answer) (w : World)
    (invoice : Invoice) (url : String)
    (hhappened : transition.Happened w (transition.after env o w))
    (hinvoice : invoice ∈ (transition.after env o w).invoices.rows)
    (hconcerns : transition.Concerns w (transition.after env o w) invoice.uid)
    (hurl : invoice.webhook_url = some url) (hne : url ≠ "") :
    Covered transition.topic invoice.uid url w (transition.after env o w) ↔
      transition.Announced w invoice.uid := by
  have hsilent : ∀ {topic : String}, Silent topic w (transition.after env o w) →
      (Covered topic invoice.uid url w (transition.after env o w) ↔ False) :=
    fun h => iff_of_false h.not_covered id
  cases transition with
  | created params =>
      have htold := @Transition.after_of_wp env o w (.created params)
        (fun t => t = w ∨ ∃ r, t.invoices.rows = w.invoices.rows ++ [r] ∧
          Enveloped "invoice.created" r w t)
        (Transition.wp_discard (wp_mono (fun r t ht => .inr ⟨r, ht⟩) (fun _ t ht => .inl ht)
          (Transition.created_told params)))
      rcases htold with hsame | ⟨r, hrows, henveloped⟩
      · exact absurd (congrArg World.invoices hsame) hhappened
      · exact Transition.covered_created hrows henveloped hinvoice hconcerns hurl hne
  | requested app_id template options =>
      exact hsilent (Transition.after_of_wp (Transition.wp_discard (wp_of_keeps
        (keeps_createPaymentRequest_published _ _ _) (fun _ _ ht => .of_same ht)
        fun _ _ ht => .of_same ht)))
  | cancelled copy =>
      obtain ⟨huid, hthere⟩ := hconcerns
      have htold := @Transition.after_of_wp env o w (.cancelled copy)
        (fun t => (t.invoices = w.invoices ∨ ∀ r ∈ t.invoices.rows, r.uid ≠ copy.uid) ∨
          t.names = w.names ∧ ∀ r ∈ t.invoices.rows, r.uid = copy.uid →
            (∃ r₀ ∈ w.invoices.rows, r₀.id = copy.id ∧ r₀.uid = copy.uid) →
            t.OneInvoice r.uid → Enveloped "invoice.cancelled" r w t)
        (Transition.wp_discard (wp_mono (fun _ t ht => .inr ht) (fun _ t ht => .inl ht)
          (Transition.cancelled_told copy)))
      rcases htold with (hsame | hgone) | ⟨hnames, henveloped⟩
      · exact absurd hsame hhappened
      · exact absurd huid.symm (hgone invoice hinvoice)
      · exact Transition.covered_named hnames
          (fun r hr hru hone => henveloped r hr hru hthere hone) hinvoice huid.symm hurl hne
  | paid option transaction =>
      have htold := @Transition.after_of_wp env o w (.paid option transaction)
        (fun t => t.invoices = w.invoices ∨ t.names = w.names ∧
          ∀ r ∈ t.invoices.rows, r.uid = option.invoice_uid →
            t.OneInvoice r.uid → Enveloped "invoice.paid" r w t)
        (Transition.wp_discard (wp_mono (fun _ t ht => .inr ht) (fun _ t ht => .inl ht)
          (Transition.paid_told option transaction)))
      rcases htold with hsame | ⟨hnames, henveloped⟩
      · exact absurd hsame hhappened
      · exact Transition.covered_named hnames henveloped hinvoice (Eq.symm hconcerns) hurl hne
  | paidByBlock payment confirmation =>
      exact hsilent (Transition.after_of_wp (Transition.wp_discard
        (Transition.silent_confirmPayment payment confirmation _)))
  | paidByBlockcypher payment found =>
      exact hsilent (Transition.after_of_wp (Transition.wp_discard
        (Transition.silent_confirmTransaction payment found _)))
  | confirming option transaction =>
      exact hsilent (Transition.after_of_wp (Transition.wp_discard
        (Transition.silent_confirming option transaction)))
  | unconfirmed option transaction =>
      exact hsilent (Transition.after_of_wp (Transition.wp_discard (wp_mono
        (fun p t ht => Transition.silent_payment ht.2.2) (fun _ t ht => .of_same ht.2)
        wp_handleUnconfirmedPayment_told)))
  | confirmed payment confirmation =>
      exact hsilent (Transition.after_of_wp (Transition.wp_discard
        (Transition.silent_confirmPayment payment confirmation _)))
  | failed txid =>
      exact hsilent (Transition.after_of_wp (Transition.silent_revertPayment txid _))

/-! ## A shop that wants to be told -/

def hook : String := "https://shop.example/hook"

def order : Invoice := { id := 1, uid := "inv", status := .unpaid, webhook_url := some hook }

def shop : World := { invoices := .single order }

def calledOff : Invoice := { order with status := .cancelled, cancelled := true }

/-- The cancellation is posted. -/
theorem told_of_cancellation : Covered "invoice.cancelled" "inv" hook shop
    ((Transition.cancelled order).after {} (fun _ => {}) shop) := by
  have hrows : ((Transition.cancelled order).after {} (fun _ => {}) shop).invoices.rows =
      [calledOff] := rfl
  refine (heard_iff {} (.cancelled order) (fun _ => {}) shop calledOff hook (fun h => ?_) ?_
    ⟨rfl, order, List.mem_singleton.mpr rfl, rfl, rfl⟩ rfl (by decide)).mpr
    ⟨by decide, fun r hr r' hr' _ _ => ?_⟩
  · have hstatus := congrArg (fun tb => tb.rows.map Invoice.status) h
    rw [hrows] at hstatus
    cases hstatus
  · rw [hrows]
    exact List.mem_singleton.mpr rfl
  · rw [List.mem_singleton.mp hr, List.mem_singleton.mp hr']

def sent : Payment := { id := 1, txid := "t1", currency := "BTC", invoice_uid := "inv" }

/-- The invoice was paid, and waits for the block. -/
def waiting : World :=
  { invoices := .single { order with status := .confirming }, payments := .single sent }

def found : Confirmation :=
  { confirmation_hash := "b1", confirmation_height := 7, confirmation_date := 0 }

/-- The confirmation of a payment is never posted. -/
theorem never_told_of_confirmation :
    ¬ ∀ (env : Env) (transition : Transition) (o : Nat → Answer) (w : World)
        (invoice : Invoice) (url : String),
      transition.Happened w (transition.after env o w) →
      invoice ∈ (transition.after env o w).invoices.rows →
      transition.Concerns w (transition.after env o w) invoice.uid →
      invoice.webhook_url = some url → url ≠ "" →
      Covered transition.topic invoice.uid url w (transition.after env o w) := by
  intro h
  have hsilent : Silent "payment.confirmed" waiting
      ((Transition.confirmed sent found).after {} (fun _ => {}) waiting) :=
    Transition.after_of_wp (Transition.wp_discard
      (Transition.silent_confirmPayment sent found _))
  have hrows : ((Transition.confirmed sent found).after {} (fun _ => {}) waiting).invoices.rows =
      [{ order with status := .paid }] := rfl
  have hpayments : ((Transition.confirmed sent found).after {} (fun _ => {})
      waiting).payments.rows.map Payment.status = [.confirmed] := rfl
  refine hsilent.not_covered (h {} (.confirmed sent found) (fun _ => {}) waiting
    { order with status := .paid } hook (fun he => ?_) ?_ rfl rfl (by decide))
  · rw [he] at hpayments
    cases hpayments
  · rw [hrows]
    exact List.mem_singleton.mpr rfl

end WebhookServer

end Anypay
