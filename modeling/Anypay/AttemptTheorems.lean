/-
Anypay.AttemptTheorems — how often a webhook is attempted.

`attemptWebhook` asks the caller's copy of the record whether it was sent already,
and writes the success to the database. A caller that keeps its copy, as the test of
the function does, sends again (`sent_twice`). `attempts_stop`: no later call
makes a POST where the copies say what the attempts say; and whatever the copies,
every POST has one attempt of its own, with its outcome, once its call has ended.
-/
import Anypay.Async.Stages
import Anypay.Db.Rules
import Anypay.Webhooks

namespace Anypay

open Store Async Proc Pool

namespace Attempts

/-! ## Calls -/

/-- What a POST is answered. -/
abbrev Reply := Except String (Nat × String)

/-- `attemptWebhook(webhook)`, with some copy of the record. -/
def code (webhook : Webhook) : Task Unit := discard (attemptWebhook webhook)

abbrev Calls := Pool World Answer Failure Webhook

/-- `WebhookAlreadySent`. -/
def alreadySent : Failure := .error "webhook already sent for this invoice"

/-- What the POSTs of a step are answered. -/
def replies (c : Answer) (s t : World) : List Reply :=
  (t.posts.drop s.posts.length).map fun _ => c.post

/-- Calls for one record, with any copies of it. -/
def anyCopy (id : Nat) (_ : Calls) : Move Answer Webhook → Prop
  | .start webhook => webhook.id = id
  | .run _ _ => True

/-- An attempt at the webhook has got an answer. -/
def Succeeded (id : Nat) (w : World) : Prop :=
  ∃ row ∈ w.webhookAttempts.rows, row.webhook_id = some id ∧ row.response_code ≠ none

/-- Who calls after an attempt has succeeded has a copy that says so. -/
def knowingCopy (id : Nat) (p : Calls) : Move Answer Webhook → Prop
  | .start webhook =>
      webhook.id = id ∧ (Succeeded id p.state → webhook.status = some "success")
  | .run _ _ => True

/-! ## What is promised -/

/-- Nothing came of the attempt yet. -/
def Blank (row : WebhookAttempt) : Prop :=
  row.response_code = none ∧ row.error = none ∧ row.ended_at = none

/-- The attempt says what the POST was answered. -/
def Outcome (row : WebhookAttempt) : Reply → Prop
  | .ok (response_code, response_body) =>
      row.response_code = some response_code ∧ row.response_body = some response_body ∧
        row.error = none ∧ row.ended_at ≠ none
  | .error message =>
      row.response_code = none ∧ row.error = some message ∧ row.ended_at ≠ none

/-- The attempt is one at this webhook, and says what its POST was answered; or its
call is still to write it. -/
def Recorded (id : Nat) (q : Calls) (n : Nat) (reply : Reply) : Prop :=
  ∃ row ∈ q.state.webhookAttempts.rows, row.id = n ∧ row.webhook_id = some id ∧
    (Outcome row reply ∨ (Blank row ∧ ∃ th ∈ q.threads, th.2.running = true))

/-- Every POST made since `w` has an attempt of its own; and no attempt that is new
has an outcome without a POST. -/
def Accounted (id : Nat) (w : World) (log : List Reply) (q : Calls) : Prop :=
  q.state.posts.length = w.posts.length + log.length ∧
  ∃ ids : List Nat, ids.Nodup ∧ List.Forall₂ (Recorded id q) ids log ∧
    ∀ row ∈ q.state.webhookAttempts.rows, row.webhook_id = some id →
      Blank row ∨ row ∈ w.webhookAttempts.rows ∨ row.id ∈ ids

/-- From `w` to `p`, and on to `q`, where these answers were got: if an attempt has
succeeded at `p`, the calls that start later are rejected as they start; and the POSTs
are accounted for. -/
def Promised (id : Nat) (w : World) (log : List Reply) (p q : Calls) : Prop :=
  (Succeeded id p.state →
    ∀ th ∈ q.threads.drop p.threads.length, th.2 = .fail alreadySent) ∧
  Accounted id w log q

/-! ## The lines of a call -/

/-- What is written of an answer. -/
def recordReply (reply : Reply) (now : Time) (r : WebhookAttempt) : WebhookAttempt :=
  match reply with
  | .ok (response_code, response_body) =>
      { r with response_code := some response_code, response_body := some response_body,
               ended_at := some now, updatedAt := now }
  | .error message => { r with error := some message, ended_at := some now, updatedAt := now }

theorem recordReply_id (reply : Reply) (now : Time) (r : WebhookAttempt) :
    Record.id (recordReply reply now r) = Record.id r := by
  rcases reply with message | ⟨code, body⟩ <;> rfl

/-- Where a call has come to. -/
inductive Stage where
  | waiting
  | opened (attempt : WebhookAttempt)
  | found (attempt : WebhookAttempt) (invoice : Invoice)
  | answered (attempt : WebhookAttempt) (reply : Reply)
  | recorded
  | ended (outcome : Except Failure Unit)

theorem sent_id (now : Time) (r : Webhook) :
    Record.id { r with status := some "success", ended_at := some now } = Record.id r := rfl

/-- The webhook is marked as sent. -/
def markSent (webhook : Webhook) : Task Unit :=
  (prisma.webhooks.update webhook.id (fun now r =>
    { r with status := some "success", ended_at := some now }) sent_id).bind fun _ => done ()

/-- What follows the answer. -/
def afterReply (webhook : Webhook) : Reply → Task Unit
  | .ok _ => markSent webhook
  | .error _ => done ()

def recordAnswer (webhook : Webhook) (attempt : WebhookAttempt) (reply : Reply) : Task Unit :=
  (prisma.webhookAttempts.update attempt.id (recordReply reply) (recordReply_id reply)).bind
    fun _ => afterReply webhook reply

def sendBody (webhook : Webhook) (attempt : WebhookAttempt) (invoice : Invoice) : Task Unit :=
  (post (nullText webhook.url) invoice.toJson).bind (recordAnswer webhook attempt)

def lookUp (webhook : Webhook) (attempt : WebhookAttempt) : Task Unit :=
  (prisma.invoices.findFirstOrThrow fun r => r.uid == nullText webhook.invoice_uid).bind
    (sendBody webhook attempt)

theorem newAttempt_id (webhook : Webhook) (now : Time) (id : Nat) :
    Record.id (
      { id, webhook_id := some webhook.id, started_at := some now, createdAt := now,
        updatedAt := now } : WebhookAttempt) = id := rfl

def openAttempt (webhook : Webhook) : Task Unit :=
  (prisma.webhookAttempts.create (fun now id =>
    { id, webhook_id := some webhook.id, started_at := some now, createdAt := now,
      updatedAt := now }) (newAttempt_id webhook)).bind (lookUp webhook)

/-- What is left of the call. -/
def Stage.rest (webhook : Webhook) : Stage → Task Unit
  | waiting => openAttempt webhook
  | opened attempt => lookUp webhook attempt
  | found attempt invoice => sendBody webhook attempt invoice
  | answered attempt reply => recordAnswer webhook attempt reply
  | recorded => markSent webhook
  | ended outcome => Proc.ofExcept outcome

/-- Where a call begins. -/
def begins (webhook : Webhook) : Stage :=
  if webhook.status = some "success" then .ended (.error alreadySent) else .waiting

theorem code_eq (webhook : Webhook) : code webhook = (begins webhook).rest webhook := by
  unfold code attemptWebhook begins
  split
  · rfl
  · simp only [bind_eq, pure_eq, discard_eq, Proc.bind_assoc]
    unfold Stage.rest openAttempt lookUp sendBody
    simp only
    congr 1
    funext attempt
    congr 1
    funext invoice
    congr 1
    funext reply
    rcases reply with message | ⟨response_code, response_body⟩
    · simp only [Proc.bind_assoc, done_bind]
      rfl
    · simp only [Proc.bind_assoc, done_bind]
      rfl

/-- The attempt the call has opened and not yet closed. -/
def Stage.attempt : Stage → Option Nat
  | opened attempt => some attempt.id
  | found attempt _ => some attempt.id
  | answered attempt _ => some attempt.id
  | _ => none

/-- Its POST is still to come. -/
def Stage.unsent : Stage → Bool
  | opened _ => true
  | found _ _ => true
  | _ => false

/-- What one line does, and where it leads. -/
inductive Advance (webhook : Webhook) (c : Answer) (s : World) :
    Stage → World → Stage → Prop where
  | opens {t : World} {attempt : WebhookAttempt} (hposts : t.posts = s.posts)
      (hrows : t.webhookAttempts.rows = s.webhookAttempts.rows ++ [attempt])
      (hid : attempt.id = s.webhookAttempts.next)
      (hown : attempt.webhook_id = some webhook.id) (hblank : Blank attempt) :
      Advance webhook c s .waiting t (.opened attempt)
  | finds {attempt : WebhookAttempt} {invoice : Invoice} :
      Advance webhook c s (.opened attempt) s (.found attempt invoice)
  | posts {t : World} {attempt : WebhookAttempt} {invoice : Invoice} {x : String × Json}
      (hposts : t.posts = s.posts ++ [x]) (hsame : t.webhookAttempts = s.webhookAttempts) :
      Advance webhook c s (.found attempt invoice) t (.answered attempt c.post)
  | records {t : World} {attempt : WebhookAttempt} {reply : Reply} {now : Time} {g' : Stage}
      (hposts : t.posts = s.posts)
      (hrows : t.webhookAttempts.rows =
        Table.patch attempt.id (recordReply reply now) s.webhookAttempts.rows)
      (hclosed : g'.attempt = none) : Advance webhook c s (.answered attempt reply) t g'
  | leaves {t : World} {g g' : Stage} (hposts : t.posts = s.posts)
      (hsame : t.webhookAttempts = s.webhookAttempts)
      (hmissing : ∀ attempt reply, g = .answered attempt reply →
        ∀ row ∈ s.webhookAttempts.rows, row.id ≠ attempt.id)
      (hclosed : g'.attempt = none) : Advance webhook c s g t g'

theorem advance (webhook : Webhook) (g : Stage) (write : Answer → World → World)
    (next : Answer → World → Task Unit) (h : g.rest webhook = .atomic write next) (c : Answer)
    (s : World) : ∃ g', next c s = g'.rest webhook ∧ Advance webhook c s g (write c s) g' := by
  cases g with
  | waiting =>
      obtain ⟨hw, ⟨a, ha, hn⟩ | ⟨e, he, hn⟩⟩ := next_step_bind h c s
      · obtain ⟨t, ht, hput⟩ := Delegate.commit_ok ha
        obtain ⟨rfl, hrows, -⟩ := Table.insert?_ok ht
        rw [hw, hput]
        exact ⟨.opened _, hn, .opens rfl hrows rfl rfl ⟨rfl, rfl, rfl⟩⟩
      · obtain ⟨te, hte, -, -⟩ := Delegate.commit_error he
        obtain ⟨-, _, _, _, hkey⟩ := Table.insert?_error hte
        exact absurd rfl hkey
  | opened attempt =>
      obtain ⟨hw, ⟨a, -, hn⟩ | ⟨e, -, hn⟩⟩ := next_step_bind h c s
      · rw [hw]
        exact ⟨.found attempt a, hn, .finds⟩
      · rw [hw]
        exact ⟨.ended (.error e), hn, .leaves rfl rfl nofun rfl⟩
  | found attempt invoice =>
      obtain ⟨hw, ⟨a, ha, hn⟩ | ⟨e, he, hn⟩⟩ := next_step_bind h c s
      · obtain rfl := Except.ok.inj ha
        rw [hw]
        exact ⟨.answered attempt c.post, hn, .posts rfl rfl⟩
      · cases he
  | answered attempt reply =>
      obtain ⟨hw, ⟨a, ha, hn⟩ | ⟨e, he, hn⟩⟩ := next_step_bind h c s
      · obtain ⟨t, ht, hput⟩ := Delegate.commit_ok ha
        obtain ⟨_, _, _, _, hrows, -⟩ := Table.update?_ok ht
        rw [hw, hput]
        cases reply with
        | ok answer => exact ⟨.recorded, hn, .records rfl hrows rfl⟩
        | error message => exact ⟨.ended (.ok ()), hn, .records rfl hrows rfl⟩
      · obtain ⟨te, hte, -, hsame⟩ := Delegate.commit_error he
        rw [hw, hsame]
        refine ⟨.ended (.error e), hn, .leaves rfl rfl ?_ rfl⟩
        intro attempt' reply' hsame row hrow hid
        cases hsame
        exact Table.update?_ne_error hrow hid rfl hte
  | recorded =>
      obtain ⟨hw, ⟨a, ha, hn⟩ | ⟨e, he, hn⟩⟩ := next_step_bind h c s
      · obtain ⟨t, -, hput⟩ := Delegate.commit_ok ha
        rw [hw, hput]
        exact ⟨.ended (.ok ()), hn, .leaves rfl rfl nofun rfl⟩
      · obtain ⟨te, -, -, hsame⟩ := Delegate.commit_error he
        rw [hw, hsame]
        exact ⟨.ended (.error e), hn, .leaves rfl rfl nofun rfl⟩
  | ended outcome =>
      rcases outcome with e | u <;> cases h

/-! ## The books -/

/-- The POSTs made, each under its attempt: its outcome is written there, or the call
is still to write it. An attempt a call has open is blank, the call's own, and not
under a POST unless that is the call's. -/
structure Books (id : Nat) (w : World) (entries : List (Nat × Reply)) (s : World)
    (gs : List Stage) : Prop where
  apart : (entries.map Prod.fst).Nodup
  posts : s.posts.length = w.posts.length + entries.length
  entry : ∀ e ∈ entries, ∃ row ∈ s.webhookAttempts.rows, row.id = e.1 ∧
    row.webhook_id = some id ∧ (Outcome row e.2 ∨ (Blank row ∧
      ∃ (i : Nat) (attempt : WebhookAttempt),
        gs[i]? = some (.answered attempt e.2) ∧ attempt.id = e.1))
  held : ∀ (i : Nat) g n, gs[i]? = some g → g.attempt = some n →
    ∃ row ∈ s.webhookAttempts.rows, row.id = n ∧ row.webhook_id = some id ∧ Blank row
  own : ∀ (i j : Nat) g k n, gs[i]? = some g → gs[j]? = some k → g.attempt = some n →
    k.attempt = some n → i = j
  unsent : ∀ (i : Nat) g n, gs[i]? = some g → g.unsent = true → g.attempt = some n →
    n ∉ entries.map Prod.fst
  sent : ∀ (i : Nat) attempt reply, gs[i]? = some (.answered attempt reply) →
    (attempt.id, reply) ∈ entries
  rest : ∀ row ∈ s.webhookAttempts.rows, row.webhook_id = some id →
    Blank row ∨ row ∈ w.webhookAttempts.rows ∨ row.id ∈ entries.map Prod.fst

theorem Books.init (id : Nat) (w : World) : Books id w [] w [] where
  apart := List.nodup_nil
  posts := rfl
  entry := nofun
  held := by simp
  own := by simp
  unsent := by simp
  sent := by simp
  rest := fun row hrow _ => .inr (.inl hrow)

section Steps

variable {id : Nat} {w s t : World} {entries : List (Nat × Reply)} {gs : List Stage}
  {webhook : Webhook} {c : Answer} {i : Nat} {g g' : Stage}

/-- Calls that open no attempt, while nothing is written. -/
theorem Books.fewer {gs' : List Stage} (h : Books id w entries s gs)
    (hposts : t.posts = s.posts) (hsame : t.webhookAttempts = s.webhookAttempts)
    (hold : ∀ (j : Nat) k n, gs'[j]? = some k → k.attempt = some n → gs[j]? = some k)
    (hkeep : ∀ (j : Nat) attempt reply, gs[j]? = some (.answered attempt reply) →
      (∃ row ∈ s.webhookAttempts.rows, row.id = attempt.id) →
        gs'[j]? = some (.answered attempt reply)) : Books id w entries t gs' := by
  refine ⟨h.apart, hposts ▸ h.posts, fun e he => ?_, fun j k n hj hk => ?_,
    fun j l k m n hj hl hk hm => ?_, fun j k n hj hun hk => ?_, fun j a r hj => ?_, ?_⟩
  · rw [hsame]
    obtain ⟨row, hrow, hid, hown, hout | ⟨hblank, j, attempt, hj, ha⟩⟩ := h.entry e he
    · exact ⟨row, hrow, hid, hown, .inl hout⟩
    · have hj' := hkeep j attempt e.2 hj ⟨row, hrow, hid.trans ha.symm⟩
      exact ⟨row, hrow, hid, hown, .inr ⟨hblank, j, attempt, hj', ha⟩⟩
  · rw [hsame]
    exact h.held j k n (hold j k n hj hk) hk
  · exact h.own j l k m n (hold j k n hj hk) (hold l m n hl hm) hk hm
  · exact h.unsent j k n (hold j k n hj hk) hun hk
  · exact h.sent j a r (hold j _ _ hj rfl)
  · rw [hsame]
    exact h.rest

/-- A call begins. -/
theorem Books.begin (h : Books id w entries s gs) (hg : g.attempt = none) :
    Books id w entries s (gs ++ [g]) := by
  refine h.fewer rfl rfl (fun j k n hj hk => ?_) fun j attempt reply hj _ => ?_
  · rcases getElem?_concat hj with hj | ⟨-, rfl⟩
    · exact hj
    · rw [hg] at hk
      cases hk
  · obtain ⟨hlt, -⟩ := List.getElem?_eq_some_iff.mp hj
    rw [List.getElem?_append_left hlt]
    exact hj

/-- The other calls, once the `i`-th has no attempt open. -/
theorem open_of_closed (hclosed : g'.attempt = none) {j : Nat} {k : Stage} {n : Nat}
    (hj : (gs.set i g')[j]? = some k) (hk : k.attempt = some n) :
    j ≠ i ∧ gs[j]? = some k := by
  rcases getElem?_set_cases hj with ⟨-, rfl⟩ | hj
  · rw [hclosed] at hk
    cases hk
  · exact hj

/-- A call ends without writing anything, or marks the webhook. -/
theorem Books.leave (h : Books id w entries s gs) (hi : gs[i]? = some g)
    (hposts : t.posts = s.posts) (hsame : t.webhookAttempts = s.webhookAttempts)
    (hmissing : ∀ attempt reply, g = .answered attempt reply →
      ∀ row ∈ s.webhookAttempts.rows, row.id ≠ attempt.id)
    (hclosed : g'.attempt = none) : Books id w entries t (gs.set i g') := by
  refine h.fewer hposts hsame (fun j k n hj hk => (open_of_closed hclosed hj hk).2) ?_
  rintro j attempt reply hj ⟨row, hrow, hid⟩
  have hne : i ≠ j := by
    rintro rfl
    exact hmissing attempt reply (Option.some.inj (hi.symm.trans hj)) row hrow hid
  rw [List.getElem?_set_ne hne]
  exact hj

/-- An attempt is opened. -/
theorem Books.opening {attempt : WebhookAttempt} (h : Books id w entries s gs)
    (hi : gs[i]? = some .waiting) (hposts : t.posts = s.posts)
    (hrows : t.webhookAttempts.rows = s.webhookAttempts.rows ++ [attempt])
    (hid : attempt.id = s.webhookAttempts.next) (hown : attempt.webhook_id = some id)
    (hblank : Blank attempt) : Books id w entries t (gs.set i (.opened attempt)) := by
  have hnew : ∀ row ∈ s.webhookAttempts.rows, row.id ≠ attempt.id := by
    intro row hrow
    have hlt : row.id < s.webhookAttempts.next := s.webhookAttempts.id_lt row hrow
    omega
  have hfree : attempt.id ∉ entries.map Prod.fst := by
    intro hmem
    obtain ⟨e, he, heq⟩ := List.mem_map.mp hmem
    obtain ⟨row, hrow, hrid, -⟩ := h.entry e he
    exact hnew row hrow (hrid.trans heq)
  have hold : ∀ row ∈ s.webhookAttempts.rows, row ∈ t.webhookAttempts.rows := by
    intro row hrow
    rw [hrows]
    exact List.mem_append_left _ hrow
  refine ⟨h.apart, hposts ▸ h.posts, fun e he => ?_, fun j k n hj hk => ?_,
    fun j l k m n hj hl hk hm => ?_, fun j k n hj hun hk => ?_, fun j a r hj => ?_,
    fun row hrow hro => ?_⟩
  · obtain ⟨row, hrow, hrid, hro, hout | ⟨hrb, j, a, hj, ha⟩⟩ := h.entry e he
    · exact ⟨row, hold row hrow, hrid, hro, .inl hout⟩
    · have hne : i ≠ j := by
        rintro rfl
        cases hi.symm.trans hj
      refine ⟨row, hold row hrow, hrid, hro, .inr ⟨hrb, j, a, ?_, ha⟩⟩
      rw [List.getElem?_set_ne hne]
      exact hj
  · rcases getElem?_set_cases hj with ⟨-, rfl⟩ | ⟨-, hj⟩
    · obtain rfl := Option.some.inj hk
      exact ⟨attempt, by rw [hrows]; simp, rfl, hown, hblank⟩
    · obtain ⟨row, hrow, hrest⟩ := h.held j k n hj hk
      exact ⟨row, hold row hrow, hrest⟩
  · rcases getElem?_set_cases hj with ⟨rfl, rfl⟩ | ⟨-, hj'⟩
    · rcases getElem?_set_cases hl with ⟨rfl, -⟩ | ⟨-, hl⟩
      · rfl
      · obtain ⟨row, hrow, hrid, -⟩ := h.held l m n hl hm
        exact absurd (hrid.trans (Option.some.inj hk).symm) (hnew row hrow)
    · rcases getElem?_set_cases hl with ⟨rfl, rfl⟩ | ⟨-, hl⟩
      · obtain ⟨row, hrow, hrid, -⟩ := h.held j k n hj' hk
        exact absurd (hrid.trans (Option.some.inj hm).symm) (hnew row hrow)
      · exact h.own j l k m n hj' hl hk hm
  · rcases getElem?_set_cases hj with ⟨-, rfl⟩ | ⟨-, hj⟩
    · rw [← Option.some.inj hk]
      exact hfree
    · exact h.unsent j k n hj hun hk
  · rcases getElem?_set_cases hj with ⟨-, hno⟩ | ⟨-, hj⟩
    · cases hno
    · exact h.sent j a r hj
  · rw [hrows] at hrow
    rcases List.mem_append.mp hrow with hrow | hrow
    · exact h.rest row hrow hro
    · rw [List.mem_singleton.mp hrow]
      exact .inl hblank

/-- The invoice is found: the call goes on with the same attempt. -/
theorem Books.find {attempt : WebhookAttempt} {invoice : Invoice} (h : Books id w entries s gs)
    (hi : gs[i]? = some (.opened attempt)) :
    Books id w entries s (gs.set i (.found attempt invoice)) := by
  have hold : ∀ (j : Nat) k n, (gs.set i (.found attempt invoice))[j]? = some k →
      k.attempt = some n → ∃ k', gs[j]? = some k' ∧ k'.attempt = some n ∧
        (k.unsent = true → k'.unsent = true) := by
    intro j k n hj hk
    rcases getElem?_set_cases hj with ⟨rfl, rfl⟩ | ⟨-, hj⟩
    · exact ⟨_, hi, hk, fun _ => rfl⟩
    · exact ⟨k, hj, hk, fun hun => hun⟩
  refine ⟨h.apart, h.posts, fun e he => ?_, fun j k n hj hk => ?_,
    fun j l k m n hj hl hk hm => ?_, fun j k n hj hun hk => ?_, fun j a r hj => ?_, h.rest⟩
  · obtain ⟨row, hrow, hrid, hro, hout | ⟨hrb, j, a, hj, ha⟩⟩ := h.entry e he
    · exact ⟨row, hrow, hrid, hro, .inl hout⟩
    · have hne : i ≠ j := by
        rintro rfl
        cases hi.symm.trans hj
      refine ⟨row, hrow, hrid, hro, .inr ⟨hrb, j, a, ?_, ha⟩⟩
      rw [List.getElem?_set_ne hne]
      exact hj
  · obtain ⟨k', hj', hk', -⟩ := hold j k n hj hk
    exact h.held j k' n hj' hk'
  · obtain ⟨k', hj', hk', -⟩ := hold j k n hj hk
    obtain ⟨m', hl', hm', -⟩ := hold l m n hl hm
    exact h.own j l k' m' n hj' hl' hk' hm'
  · obtain ⟨k', hj', hk', hun'⟩ := hold j k n hj hk
    exact h.unsent j k' n hj' (hun' hun) hk'
  · rcases getElem?_set_cases hj with ⟨-, hno⟩ | ⟨-, hj⟩
    · cases hno
    · exact h.sent j a r hj

/-- The POST is made, and entered. -/
theorem Books.post {attempt : WebhookAttempt} {invoice : Invoice} {x : String × Json}
    {reply : Reply} (h : Books id w entries s gs) (hi : gs[i]? = some (.found attempt invoice))
    (hposts : t.posts = s.posts ++ [x]) (hsame : t.webhookAttempts = s.webhookAttempts) :
    Books id w (entries ++ [(attempt.id, reply)]) t (gs.set i (.answered attempt reply)) := by
  have hfree : attempt.id ∉ entries.map Prod.fst := h.unsent i _ _ hi rfl rfl
  have hlt : i < gs.length := (List.getElem?_eq_some_iff.mp hi).1
  have hold : ∀ (j : Nat) k n, (gs.set i (.answered attempt reply))[j]? = some k →
      k.attempt = some n → ∃ k', gs[j]? = some k' ∧ k'.attempt = some n := by
    intro j k n hj hk
    rcases getElem?_set_cases hj with ⟨rfl, rfl⟩ | ⟨-, hj⟩
    · exact ⟨_, hi, hk⟩
    · exact ⟨k, hj, hk⟩
  refine ⟨?_, ?_, fun e he => ?_, fun j k n hj hk => ?_,
    fun j l k m n hj hl hk hm => ?_, fun j k n hj hun hk => ?_, fun j a r hj => ?_,
    fun row hrow hro => ?_⟩
  · rw [List.map_append]
    refine List.nodup_append.mpr ⟨h.apart, List.nodup_singleton _, ?_⟩
    rintro n hn m hm rfl
    rw [List.map_singleton, List.mem_singleton] at hm
    rw [hm] at hn
    exact hfree hn
  · rw [hposts, List.length_append, List.length_append, h.posts]
    rfl
  · rw [hsame]
    rcases List.mem_append.mp he with he | he
    · obtain ⟨row, hrow, hrid, hro, hout | ⟨hrb, j, a, hj, ha⟩⟩ := h.entry e he
      · exact ⟨row, hrow, hrid, hro, .inl hout⟩
      · have hne : i ≠ j := by
          rintro rfl
          cases hi.symm.trans hj
        refine ⟨row, hrow, hrid, hro, .inr ⟨hrb, j, a, ?_, ha⟩⟩
        rw [List.getElem?_set_ne hne]
        exact hj
    · obtain rfl := List.mem_singleton.mp he
      obtain ⟨row, hrow, hrid, hro, hrb⟩ := h.held i _ _ hi rfl
      exact ⟨row, hrow, hrid, hro, .inr ⟨hrb, i, attempt, List.getElem?_set_self hlt, rfl⟩⟩
  · rw [hsame]
    obtain ⟨k', hj', hk'⟩ := hold j k n hj hk
    exact h.held j k' n hj' hk'
  · obtain ⟨k', hj', hk'⟩ := hold j k n hj hk
    obtain ⟨m', hl', hm'⟩ := hold l m n hl hm
    exact h.own j l k' m' n hj' hl' hk' hm'
  · rcases getElem?_set_cases hj with ⟨-, rfl⟩ | ⟨hne, hj⟩
    · cases hun
    · rw [List.map_append, List.mem_append, List.map_singleton, List.mem_singleton]
      rintro (hmem | rfl)
      · exact h.unsent j k n hj hun hk hmem
      · exact hne (h.own j i k _ _ hj hi hk rfl)
  · rcases getElem?_set_cases hj with ⟨-, heq⟩ | ⟨-, hj⟩
    · cases heq
      exact List.mem_append_right _ (List.mem_singleton.mpr rfl)
    · exact List.mem_append_left _ (h.sent j a r hj)
  · rw [hsame] at hrow
    rcases h.rest row hrow hro with hblank | hw | hmem
    · exact .inl hblank
    · exact .inr (.inl hw)
    · rw [List.map_append]
      exact .inr (.inr (List.mem_append_left _ hmem))

theorem outcome_recordReply {row : WebhookAttempt} (hblank : Blank row) (reply : Reply)
    (now : Time) : Outcome (recordReply reply now row) reply := by
  obtain ⟨hcode, herror, -⟩ := hblank
  rcases reply with message | ⟨response_code, response_body⟩
  · exact ⟨hcode, rfl, nofun⟩
  · exact ⟨rfl, rfl, herror, nofun⟩

/-- The outcome is written, and the attempt closed. -/
theorem Books.record {attempt : WebhookAttempt} {reply : Reply} {now : Time}
    (h : Books id w entries s gs) (hi : gs[i]? = some (.answered attempt reply))
    (hposts : t.posts = s.posts)
    (hrows : t.webhookAttempts.rows =
      Table.patch attempt.id (recordReply reply now) s.webhookAttempts.rows)
    (hclosed : g'.attempt = none) : Books id w entries t (gs.set i g') := by
  have hentry : (attempt.id, reply) ∈ entries := h.sent i attempt reply hi
  have hother : ∀ row ∈ s.webhookAttempts.rows, row.id ≠ attempt.id →
      row ∈ t.webhookAttempts.rows := by
    intro row hrow hne
    rw [hrows]
    exact Table.mem_patch_of_ne hrow hne
  refine ⟨h.apart, hposts ▸ h.posts, fun e he => ?_, fun j k n hj hk => ?_,
    fun j l k m n hj hl hk hm => ?_, fun j k n hj hun hk => ?_, fun j a r hj => ?_,
    fun row hrow hro => ?_⟩
  · by_cases hid : e.1 = attempt.id
    · have he' : e = (attempt.id, reply) := List.inj_on_of_nodup_map h.apart he hentry hid
      subst he'
      obtain ⟨row, hrow, hrid, hro, hblank⟩ := h.held i _ _ hi rfl
      refine ⟨recordReply reply now row, ?_, ?_, ?_, .inl (outcome_recordReply hblank _ _)⟩
      · rw [hrows, ← hrid]
        exact Table.mem_patch hrow
      · exact (recordReply_id reply now row).trans hrid
      · rcases reply with message | ⟨code, body⟩ <;> exact hro
    · obtain ⟨row, hrow, hrid, hro, hout | ⟨hrb, j, a, hj, ha⟩⟩ := h.entry e he
      · exact ⟨row, hother row hrow (hrid ▸ hid), hrid, hro, .inl hout⟩
      · have hne : i ≠ j := by
          rintro rfl
          cases hi.symm.trans hj
          exact hid ha.symm
        refine ⟨row, hother row hrow (hrid ▸ hid), hrid, hro, .inr ⟨hrb, j, a, ?_, ha⟩⟩
        rw [List.getElem?_set_ne hne]
        exact hj
  · obtain ⟨hne, hj⟩ := open_of_closed hclosed hj hk
    obtain ⟨row, hrow, hrid, hrest⟩ := h.held j k n hj hk
    refine ⟨row, hother row hrow fun heq => hne ?_, hrid, hrest⟩
    exact h.own j i k _ n hj hi hk (by rw [← hrid, heq]; rfl)
  · exact h.own j l k m n (open_of_closed hclosed hj hk).2 (open_of_closed hclosed hl hm).2 hk hm
  · exact h.unsent j k n (open_of_closed hclosed hj hk).2 hun hk
  · exact h.sent j a r (open_of_closed hclosed hj rfl).2
  · rw [hrows] at hrow
    obtain ⟨row', hrow', rfl⟩ := List.mem_map.mp hrow
    by_cases hid : Record.id row' = attempt.id
    · right; right
      rw [if_pos hid, show (recordReply reply now row').id = attempt.id from
        (recordReply_id reply now row').trans hid]
      exact List.mem_map.mpr ⟨_, hentry, rfl⟩
    · rw [if_neg hid] at hro ⊢
      exact h.rest row' hrow' hro

/-- Every line keeps the books. -/
theorem Books.advance (h : Books id w entries s gs) (hid : webhook.id = id)
    (hi : gs[i]? = some g) (hadvance : Advance webhook c s g t g') :
    ∃ entries', entries'.map Prod.snd = entries.map Prod.snd ++ replies c s t ∧
      Books id w entries' t (gs.set i g') := by
  have hquiet : t.posts = s.posts → entries.map Prod.snd = entries.map Prod.snd ++
      replies c s t := by
    intro hposts
    rw [replies, hposts, List.drop_length, List.map_nil, List.append_nil]
  cases hadvance with
  | opens hposts hrows hnext hown hblank =>
      rw [hid] at hown
      exact ⟨entries, hquiet hposts, h.opening hi hposts hrows hnext hown hblank⟩
  | finds => exact ⟨entries, hquiet rfl, h.find hi⟩
  | @posts _ attempt _ _ hposts hsame =>
      refine ⟨entries ++ [(attempt.id, c.post)], ?_, h.post hi hposts hsame⟩
      rw [replies, hposts, List.drop_left, List.map_append]
      rfl
  | records hposts hrows hclosed =>
      exact ⟨entries, hquiet hposts, h.record hi hposts hrows hclosed⟩
  | leaves hposts hsame hmissing hclosed =>
      exact ⟨entries, hquiet hposts, h.leave hi hposts hsame hmissing hclosed⟩

/-- Success is not taken back. -/
theorem Advance.succeeded (h : Advance webhook c s g t g') (hs : Succeeded id s) :
    Succeeded id t := by
  obtain ⟨row, hrow, hown, hcode⟩ := hs
  have hsame : t.webhookAttempts = s.webhookAttempts → Succeeded id t := fun hsame =>
    ⟨row, hsame ▸ hrow, hown, hcode⟩
  cases h with
  | opens _ hrows => exact ⟨row, by rw [hrows]; exact List.mem_append_left _ hrow, hown, hcode⟩
  | finds => exact hsame rfl
  | posts _ h => exact hsame h
  | @records _ attempt reply now _ _ hrows _ =>
      by_cases hid : Record.id row = attempt.id
      · refine ⟨recordReply reply now row, ?_, ?_, ?_⟩
        · rw [hrows, ← hid]
          exact Table.mem_patch hrow
        · rcases reply with message | ⟨code, body⟩ <;> exact hown
        · rcases reply with message | ⟨code, body⟩
          · exact hcode
          · exact nofun
      · exact ⟨row, by rw [hrows]; exact Table.mem_patch_of_ne hrow hid, hown, hcode⟩
  | leaves _ h => exact hsame h

end Steps

/-! ## Whole runs -/

section Runs

variable {id : Nat} {w : World} {p q : Calls} {log log' : List Reply}
  {admits : Calls → Move Answer Webhook → Prop}

/-- A call has an attempt open only while it is under way. -/
theorem begins_attempt (webhook : Webhook) : (begins webhook).attempt = none := by
  unfold begins
  split
  · rfl
  · rfl

/-- The answers are entered in books that are kept. -/
def Entered (id : Nat) (w : World) (log : List Reply) (s : World) (gs : List Stage) : Prop :=
  ∃ entries, entries.map Prod.snd = log ∧ Books id w entries s gs

/-- The calls under way and the books agree. -/
theorem staged (hadmits : ∀ q webhook, admits q (.start webhook) → webhook.id = id)
    (h : Noted code admits replies (Pool.init w) log q) :
    ∃ gs, Staged (fun webhook => webhook.id = id) (fun webhook g => Stage.rest webhook g) q gs ∧
      Entered id w log q.state gs := by
  refine noted_inv advance ?_ ?_ ⟨[], rfl, Books.init id w⟩ h
  · intro q webhook hm
    refine ⟨hadmits q webhook hm, begins webhook, code_eq webhook, ?_⟩
    rintro log gs ⟨entries, hlog, hbooks⟩
    exact ⟨entries, hlog, hbooks.begin (begins_attempt webhook)⟩
  · rintro log s gs i webhook c g s' g' hid ⟨entries, hlog, hbooks⟩ hi hadvance
    obtain ⟨entries', hlog', hbooks'⟩ := hbooks.advance hid hi hadvance
    exact ⟨entries', by rw [hlog', hlog], hbooks'⟩

/-- The POSTs are accounted for, whatever the copies. -/
theorem accounted (hadmits : ∀ q webhook, admits q (.start webhook) → webhook.id = id)
    (h : Noted code admits replies (Pool.init w) log q) : Accounted id w log q := by
  obtain ⟨gs, hstaged, entries, rfl, hbooks⟩ := staged hadmits h
  refine ⟨by rw [hbooks.posts, List.length_map], entries.map Prod.fst, hbooks.apart, ?_,
    hbooks.rest⟩
  rw [List.forall₂_map_left_iff, List.forall₂_map_right_iff, List.forall₂_same]
  intro e he
  obtain ⟨row, hrow, hrid, hro, hout | ⟨hblank, i, attempt, hi, -⟩⟩ := hbooks.entry e he
  · exact ⟨row, hrow, hrid, hro, .inl hout⟩
  · refine ⟨row, hrow, hrid, hro, .inr ⟨hblank, ?_⟩⟩
    obtain ⟨hlt, hget⟩ := List.getElem?_eq_some_iff.mp hi
    have hlt' : i < q.threads.length := by
      rw [List.Forall₂.length_eq hstaged]
      exact hlt
    have hcall := List.Forall₂.get hstaged hlt' hlt
    refine ⟨q.threads[i], List.getElem_mem hlt', ?_⟩
    rw [List.get_eq_getElem, List.get_eq_getElem, hget] at hcall
    rw [hcall.2]
    rfl

theorem knowing_id (q : Calls) (webhook : Webhook) (h : knowingCopy id q (.start webhook)) :
    webhook.id = id :=
  h.1

/-- A copy that says so is rejected as its call starts. -/
theorem code_of_success {webhook : Webhook} (h : webhook.status = some "success") :
    code webhook = .fail alreadySent := by
  rw [code_eq, begins, if_pos h]
  rfl

/-- After a success, with such copies, the calls that start later have no step. -/
theorem later_rejected (h : Noted code (knowingCopy id) replies (Pool.init w) log p)
    (hs : Succeeded id p.state) (h' : Noted code (knowingCopy id) replies p log' q) :
    Succeeded id q.state ∧ p.threads.length ≤ q.threads.length ∧
      ∀ th ∈ q.threads.drop p.threads.length, th.2 = .fail alreadySent := by
  induction h' with
  | start => exact ⟨hs, Nat.le_refl _, by simp⟩
  | @move log' q r m hq hm hmv ih =>
      obtain ⟨hsq, hle, hlater⟩ := ih
      cases m with
      | start webhook =>
          obtain rfl := move_start hmv
          have hcode := code_of_success (hm.2 hsq)
          refine ⟨hsq, by simpa using Nat.le_succ_of_le hle, fun th hth => ?_⟩
          rw [List.drop_append_of_le_length hle] at hth
          rcases List.mem_append.mp hth with hth | hth
          · exact hlater th hth
          · rw [List.mem_singleton.mp hth]
            exact hcode
      | run i c =>
          obtain ⟨gs, hstaged, -⟩ := staged knowing_id (h.trans hq)
          obtain ⟨webhook, g, g', -, -, hadvance, -⟩ := hstaged.run advance hmv
          obtain ⟨t, write, next, hi, rfl⟩ := move_run hmv
          refine ⟨hadvance.succeeded hsq, by simpa using hle, fun th hth => ?_⟩
          have hearly : i < p.threads.length := by
            by_contra hlate
            have hmem : (t, Proc.atomic write next) ∈ q.threads.drop p.threads.length := by
              refine List.mem_of_getElem? (i := i - p.threads.length) ?_
              rw [List.getElem?_drop, Nat.add_sub_cancel' (Nat.le_of_not_lt hlate), hi]
            cases hlater _ hmem
          rw [List.drop_set, if_pos hearly] at hth
          exact hlater th hth

/-- A copy that does not say so makes its call start. -/
theorem code_running {webhook : Webhook} (h : webhook.status ≠ some "success") :
    (code webhook).running = true := by
  rw [code_eq, begins, if_neg h]
  rfl

/-- After a success, what is promised of a call is a matter of its copy. -/
theorem promised_start_iff (h : Noted code (anyCopy id) replies (Pool.init w) log p)
    (hs : Succeeded id p.state) {webhook : Webhook} (hid : webhook.id = id) :
    (∀ q, p.move code (.start webhook) = some q → Promised id w log p q) ↔
      webhook.status = some "success" := by
  constructor
  · intro hpromised
    by_contra hno
    have hlater := (hpromised _ rfl).1 hs (webhook, code webhook) (by simp)
    have hrun := code_running hno
    rw [show code webhook = .fail alreadySent from hlater] at hrun
    cases hrun
  · intro hstatus q hmv
    have hm : anyCopy id p (.start webhook) := hid
    have hq : Noted code (anyCopy id) replies (Pool.init w) (log ++ []) q := .move h hm hmv
    rw [List.append_nil] at hq
    refine ⟨fun _ th hth => ?_, accounted (fun _ _ h => h) hq⟩
    obtain rfl := move_start hmv
    rw [List.drop_left, List.mem_singleton] at hth
    rw [hth]
    exact code_of_success hstatus

end Runs

/-- **Stopped by success.** Whoever calls after an attempt has succeeded, with a copy
that says so, is rejected and makes no POST; a copy that does not makes its call go on.
Every POST has an attempt of its own. -/
theorem attempts_stop (id : Nat) (w : World) :
    (∀ (log log' : List Reply) (p q : Calls),
      Noted code (knowingCopy id) replies (Pool.init w) log p →
      Noted code (knowingCopy id) replies p log' q → Promised id w (log ++ log') p q) ∧
    ∀ (log : List Reply) (p : Calls) (webhook : Webhook),
      Noted code (anyCopy id) replies (Pool.init w) log p → Succeeded id p.state →
      webhook.id = id →
        ((∀ q, p.move code (.start webhook) = some q → Promised id w log p q) ↔
          webhook.status = some "success") := by
  constructor
  · intro log log' p q hp hq
    constructor
    · intro hs
      exact (later_rejected hp hs hq).2.2
    · exact accounted knowing_id (hp.trans hq)
  · intro log p webhook hp hs hid
    exact promised_start_iff hp hs hid

/-! ## A copy kept too long -/

/-- An invoice's webhook, and a copy of it. -/
def pending : Webhook :=
  { id := 1, invoice_uid := some "inv", url := some "https://shop" }

def shop : World :=
  { invoices := .single { id := 1, uid := "inv", status := .paid },
    webhooks := .single pending }

def oneCall (i : Nat) : List (Move Answer Webhook) :=
  .start pending :: Pool.steps i 5 {}

def succeeded (p : Calls) : Bool :=
  p.state.webhookAttempts.rows.any fun row => row.webhook_id == some 1 && row.response_code.isSome

theorem succeeded_of_test {p : Calls} (h : succeeded p = true) : Succeeded 1 p.state := by
  obtain ⟨row, hrow, htest⟩ := List.any_eq_true.mp h
  rw [Bool.and_eq_true, beq_iff_eq] at htest
  refine ⟨row, hrow, htest.1, fun hnone => ?_⟩
  rw [hnone] at htest
  cases htest.2

theorem oneCall_admitted (i : Nat) (p : Calls) :
    Pool.Admitted code (anyCopy 1) (oneCall i) p :=
  ⟨rfl, fun q _ => Pool.admitted_steps (fun _ _ _ => trivial) i 5 _ q⟩

/-- The same copy, attempted twice: the merchant hears of it twice. -/
theorem sent_twice :
    ¬ ∀ (id : Nat) (w : World) (log log' : List Reply) (p q : Calls),
      Noted code (anyCopy id) replies (Pool.init w) log p →
      Noted code (anyCopy id) replies p log' q → Promised id w (log ++ log') p q := by
  intro h
  have htwice : ∃ p, Pool.run code (oneCall 0) (Pool.init shop) = some p ∧ succeeded p = true ∧
      p.threads.length = 1 ∧ ∃ q, Pool.run code (oneCall 1) p = some q ∧
        q.state.posts.length = 2 ∧ ∃ th ∈ q.threads.drop 1, th.2 = .done () := 
    ⟨_, rfl, by decide +kernel, rfl, _, rfl, by decide +kernel, _, .head _, rfl⟩
  obtain ⟨p, hp, hs, hlen, q, hq, -, th, hth, hdone⟩ := htwice
  have hfirst : ∃ log, Noted code (anyCopy 1) replies (Pool.init shop) log p :=
    Pool.noted_of_run (oneCall_admitted 0 _) hp
  have hsecond : ∃ log, Noted code (anyCopy 1) replies p log q :=
    Pool.noted_of_run (oneCall_admitted 1 _) hq
  obtain ⟨log, hlog⟩ := hfirst
  obtain ⟨log', hlog'⟩ := hsecond
  have hlater := (h 1 shop log log' p q hlog hlog').1 (succeeded_of_test hs) th
    (by rw [hlen]; exact hth)
  rw [hdone] at hlater
  cases hlater

/-- A copy read again, after the success. -/
def delivered : Webhook := { pending with status := some "success" }

/-- The second call has read the record again: the merchant hears of it once. -/
theorem sent_once : ∃ log log' p q,
    Noted code (knowingCopy 1) replies (Pool.init shop) log p ∧ Succeeded 1 p.state ∧
      Noted code (knowingCopy 1) replies p log' q ∧ q.threads.length = 2 ∧
      q.state.posts.length = 1 ∧ Promised 1 shop (log ++ log') p q := by
  have hrun : ∃ p, Pool.run code (oneCall 0) (Pool.init shop) = some p ∧ succeeded p = true ∧
      ∃ q, Pool.run code [.start delivered] p = some q ∧ q.threads.length = 2 ∧
        q.state.posts.length = 1 :=
    ⟨_, rfl, by decide +kernel, _, rfl, rfl, by decide +kernel⟩
  obtain ⟨p, hp, hs, q, hq, hlen, hposts⟩ := hrun
  have hadm : Pool.Admitted code (knowingCopy 1) (oneCall 0) (Pool.init shop) :=
    ⟨⟨rfl, fun ⟨_, hrow, _⟩ => nomatch hrow⟩, fun q _ =>
      Pool.admitted_steps (fun _ _ _ => trivial) 0 5 _ q⟩
  have hadm' : Pool.Admitted code (knowingCopy 1) [.start delivered] p :=
    ⟨⟨rfl, fun _ => rfl⟩, fun _ _ => trivial⟩
  have hfirst : ∃ log, Noted code (knowingCopy 1) replies (Pool.init shop) log p :=
    Pool.noted_of_run hadm hp
  have hsecond : ∃ log, Noted code (knowingCopy 1) replies p log q :=
    Pool.noted_of_run hadm' hq
  obtain ⟨log, hlog⟩ := hfirst
  obtain ⟨log', hlog'⟩ := hsecond
  exact ⟨log, log', p, q, hlog, succeeded_of_test hs, hlog', hlen, hposts,
    (attempts_stop 1 shop).1 log log' p q hlog hlog'⟩

end Attempts

end Anypay
