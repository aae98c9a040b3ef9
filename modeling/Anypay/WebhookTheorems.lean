/-
Anypay.WebhookTheorems — to whom `createAndSendWebhook` sends an event.

The query for subscriptions takes its ids from the VALIDATED event, one level
above where every event schema puts them. What a schema does not name is
stripped, so both ids are `undefined`, and `undefined` is no constraint: every
subscription to the topic is served, whoever's it is (`sent_to_others`). A
subscription whose id is no number stops the loop.

`sent_eq` computes what is sent from the tables alone, whatever the answers;
`separated_iff` says when that is right: the subscriptions reached are the
event's own, and every one of its own is reached.
-/
import Mathlib.Data.List.TakeWhile
import Anypay.Db.Rules
import Anypay.Webhooks

namespace Anypay

open Store Async Proc

namespace Subscriptions

/-! ## What is asked for -/

/-- What a webhook tells, to whom. -/
structure Message where
  url : Option String
  app_id : Option Int
  account_id : Option Int
  payload : Json

def message (webhook : Webhook) : Message :=
  { url := webhook.url, app_id := webhook.app_id, account_id := webhook.account_id,
    payload := webhook.payload }

/-- The id inside an event's payload. -/
def eventId (k : String) (event : Json) : Option Json :=
  (event.get "payload").bind fun payload => payload.get k

/-- The number an id is stored as. -/
def idOf (id : String) : Option Int := (columnId id).toOption

/-- The id of a subscription is the number the event names. -/
def isOwn (id : String) (x : Option Json) : Bool :=
  match idOf id, x with
  | some n, some (.num q) => decide (q = n)
  | _, _ => false

def ownApp (event : Json) (s : AppWebhook) : Bool := isOwn s.app_id (eventId "app_id" event)

def ownAccount (event : Json) (s : AccountWebhook) : Bool :=
  isOwn s.account_id (eventId "account_id" event)

/-- The world without the other tenants' subscriptions. -/
def withoutOthers (event : Json) (w : World) : World :=
  { w with
    appWebhooks := w.appWebhooks.restrict (ownApp event)
    accountWebhooks := w.accountWebhooks.restrict (ownAccount event) }

/-- The webhook rows one run of `createAndSendWebhook` creates; `o` are the
answers it gets. -/
def created (topic : String) (event : Json) (w : World) (o : Nat → Answer) : List Webhook :=
  ((createAndSendWebhook topic event).exec o w).2.webhooks.rows.drop w.webhooks.rows.length

/-- The calls it leaves behind. -/
def left (topic : String) (event : Json) (w : World) (o : Nat → Answer) : List Job :=
  ((createAndSendWebhook topic event).exec o w).2.jobs.drop w.jobs.length

def sent (topic : String) (event : Json) (w : World) (o : Nat → Answer) : List Message :=
  (created topic event w o).map message

/-- The webhook is for a subscription the event is meant for. -/
def Addressed (topic : String) (event : Json) (w : World) (webhook : Webhook) : Prop :=
  (∃ s ∈ w.appWebhooks.rows, s.topics.contains topic = true ∧ ownApp event s = true ∧
    webhook.url = some s.url ∧ webhook.app_id = idOf s.app_id ∧ webhook.account_id = none) ∨
  (∃ s ∈ w.accountWebhooks.rows, ownAccount event s = true ∧
    webhook.url = some s.url ∧ webhook.app_id = none ∧
    webhook.account_id = idOf s.account_id)

/-- Webhooks are created, and sent, for the event's own subscriptions only; and
what is sent is what would be sent if nobody else had subscribed. -/
structure Separated (topic : String) (event : Json) (w : World) : Prop where
  created : ∀ o, ∀ webhook ∈ created topic event w o, Addressed topic event w webhook
  left : ∀ o, left topic event w o = (Subscriptions.created topic event w o).map .sendWebhook
  alone : ∀ o o', sent topic event w o = sent topic event (withoutOthers event w) o'

/-! ## What is sent -/

/-- The subscriptions up to the first whose id is no number. -/
def reached {α : Type} (key : α → String) (subs : List α) : List α :=
  subs.takeWhile fun s => (columnId (key s)).isOk

def topicApps (topic : String) (w : World) : List AppWebhook :=
  w.appWebhooks.select fun s => s.topics.contains topic

/-- The app subscriptions served. -/
def reachedApps (topic : String) (w : World) : List AppWebhook :=
  reached AppWebhook.app_id (topicApps topic w)

/-- The account subscriptions served: none where an app subscription stopped the
loop. -/
def reachedAccounts (topic : String) (w : World) : List AccountWebhook :=
  if (topicApps topic w).all fun s => (columnId s.app_id).isOk then
    reached AccountWebhook.account_id w.accountWebhooks.rows
  else []

/-- Every subscription queried for has a number for an id. -/
def everyId (topic : String) (w : World) : Bool :=
  ((topicApps topic w).all fun s => (columnId s.app_id).isOk) &&
    w.accountWebhooks.rows.all fun s => (columnId s.account_id).isOk

def appMessage (validated : Json) (s : AppWebhook) : Message :=
  { url := some s.url, app_id := idOf s.app_id, account_id := none, payload := validated }

def accountMessage (validated : Json) (s : AccountWebhook) : Message :=
  { url := some s.url, app_id := none, account_id := idOf s.account_id, payload := validated }

def messages (topic : String) (validated : Json) (w : World) : List Message :=
  (reachedApps topic w).map (appMessage validated) ++
    (reachedAccounts topic w).map (accountMessage validated)

/-- From `w` to `t` these messages were written down and handed on. -/
def Sends (w t : World) (ms : List Message) : Prop :=
  ∃ rows, t.webhooks.rows = w.webhooks.rows ++ rows ∧
    t.jobs = w.jobs ++ rows.map .sendWebhook ∧ rows.map message = ms

theorem Sends.refl (w : World) : Sends w w [] := ⟨[], by simp, by simp, rfl⟩

/-- One webhook is created and handed on. -/
theorem wp_deliver {w t : World} {ms : List Message} {mk : Time → Nat → Webhook}
    {hid : ∀ t n, Record.id (mk t n) = n} {m : Message}
    (hm : ∀ now id, message (mk now id) = m) (h : Sends w t ms) {E : Failure → World → Prop} :
    ((prisma.webhooks.create mk hid).bind fun webhook => spawn (.sendWebhook webhook)).wp AnyAnswer
      (fun _ u => Sends w u (ms ++ [m])) E t := by
  obtain ⟨rows, hrows, hjobs, hms⟩ := h
  rw [wp_bind]
  refine Delegate.wp_create (fun now tb htb _ => ?_) fun now hkey => ?_
  · refine wp_step (fun _ _ _ _ => ?_) fun _ _ he => by cases he
    refine ⟨rows ++ [mk now t.webhooks.next], ?_, ?_, ?_⟩
    · exact htb.trans (by rw [← List.append_assoc, ← hrows]; rfl)
    · change t.jobs ++ [_] = _
      rw [hjobs, List.map_append, List.append_assoc]
      rfl
    · rw [List.map_append, hms, List.map_singleton, hm]
  · obtain ⟨_, _, _, hne⟩ := hkey
    exact absurd rfl hne

/-- The loop over the subscriptions: all of them where every id is a number,
else those before the first that is not. -/
theorem wp_deliverAll {α : Type} {key : α → String} {mk : α → Int → Time → Nat → Webhook}
    {hid : ∀ s n t i, Record.id (mk s n t i) = i} {msg : α → Message} {w : World}
    (hmsg : ∀ s n, columnId (key s) = .ok n → ∀ now id, message (mk s n now id) = msg s)
    (subs : List α) {t : World} {ms : List Message} (h : Sends w t ms) :
    (forEach subs fun s => (Proc.ofExcept (columnId (key s)) : Task Int).bind fun n =>
        (prisma.webhooks.create (mk s n) (hid s n)).bind fun webhook =>
          spawn (.sendWebhook webhook)).wp AnyAnswer
      (fun _ u => Sends w u (ms ++ subs.map msg) ∧
        (subs.all fun s => (columnId (key s)).isOk) = true)
      (fun _ u => Sends w u (ms ++ (reached key subs).map msg) ∧
        (subs.all fun s => (columnId (key s)).isOk) = false) t := by
  induction subs generalizing t ms with
  | nil => simpa [forEach] using h
  | cons s subs ih =>
      rw [forEach, wp_bind]
      cases hs : columnId (key s) with
      | error e =>
          simp only [Proc.ofExcept, fail_bind, wp_fail, reached, List.takeWhile, hs, Except.isOk,
            Except.toBool, List.all_cons, Bool.false_and, List.map_nil, List.append_nil]
          exact ⟨h, trivial⟩
      | ok n =>
          simp only [Proc.ofExcept, done_bind]
          refine wp_mono (fun _ u hu => ?_) (fun _ _ he => he) (wp_deliver (hmsg s n hs) h)
          refine wp_mono (fun _ v hv => ?_) (fun _ v hv => ?_) (ih hu)
          · simpa [hs, Except.isOk, Except.toBool, List.append_assoc] using hv
          · simpa [reached, hs, Except.isOk, Except.toBool, List.append_assoc] using hv

/-- Every event schema is `{ topic, payload }`. -/
theorem schema_fields {topic : String} {schema : Schema}
    (h : webhookSchemas.lookup topic = some schema) :
    ∃ pattern invoice rest, schema = eventSchema pattern invoice rest := by
  obtain ⟨before, after, he, -⟩ := List.lookup_eq_some_iff.mp h
  have hmem : schema ∈ webhookSchemas.map Prod.snd :=
    List.mem_map.mpr ⟨(topic, schema), by rw [he]; simp, rfl⟩
  simp only [webhookSchemas, List.map_cons, List.map_nil, List.mem_cons, List.not_mem_nil,
    or_false] at hmem
  rcases hmem with rfl | rfl | rfl | rfl | rfl | rfl <;> exact ⟨_, _, _, rfl⟩

/-- The validated event has neither id at its top level. -/
theorem validated_get_id {topic k : String} {schema : Schema} {event validated : Json}
    (hs : webhookSchemas.lookup topic = some schema)
    (hv : schema.parse event = some validated) (hk : k = "app_id" ∨ k = "account_id") :
    validated.get k = none := by
  obtain ⟨pattern, invoice, rest, rfl⟩ := schema_fields hs
  refine Schema.parse_get_of_not_field ?_ hv
  rcases hk with rfl | rfl <;> simp

variable {topic : String} {schema : Schema} {event validated : Json} {w : World}

/-- Whatever the answers: the loop runs to its end, or is stopped, as the ids say. -/
theorem wp_createAndSendWebhook (hs : webhookSchemas.lookup topic = some schema)
    (hv : schema.parse event = some validated) :
    (createAndSendWebhook topic event).wp AnyAnswer
      (fun _ t => Sends w t (messages topic validated w) ∧ everyId topic w = true)
      (fun _ t => Sends w t (messages topic validated w) ∧ everyId topic w = false) w := by
  have happ := validated_get_id hs hv (.inl rfl)
  have haccount := validated_get_id hs hv (.inr rfl)
  have hmsgApp : ∀ (s : AppWebhook) n, columnId s.app_id = .ok n → ∀ now id,
      message { id, app_id := some n, url := some s.url, type := some topic,
                payload := validated, status := some "pending",
                createdAt := now, updatedAt := now } = appMessage validated s := by
    intro s n hn now id
    simp only [message, appMessage, idOf, hn, Except.toOption]
  have hmsgAccount : ∀ (s : AccountWebhook) n, columnId s.account_id = .ok n → ∀ now id,
      message { id, account_id := some n, url := some s.url, type := some topic,
                payload := validated, status := some "pending",
                createdAt := now, updatedAt := now } = accountMessage validated s := by
    intro s n hn now id
    simp only [message, accountMessage, idOf, hn, Except.toOption]
  simp only [createAndSendWebhook, hs, hv, findAppWebhooks, findAccountWebhooks, happ,
    haccount, whereField, bind_eq, Proc.ofExcept, done_bind, Bool.true_and]
  rw [wp_bind]
  refine Delegate.wp_findMany ?_
  rw [wp_bind]
  refine Delegate.wp_findMany ?_
  rw [wp_bind]
  refine wp_mono (fun _ t ht => ?_) (fun _ t ht => ?_)
    (wp_deliverAll hmsgApp (topicApps topic w) (Sends.refl w))
  · obtain ⟨hsends, hall⟩ := ht
    have hreached : reachedApps topic w = topicApps topic w :=
      List.takeWhile_eq_self_iff.mpr fun s hs => List.all_eq_true.mp hall s hs
    refine wp_mono (fun _ u hu => ?_) (fun _ u hu => ?_)
      (wp_deliverAll hmsgAccount (w.accountWebhooks.select fun _ => true) hsends)
    · obtain ⟨hsends', hall'⟩ := hu
      rw [Table.select_true] at hsends' hall'
      have haccounts : reachedAccounts topic w = w.accountWebhooks.rows := by
        rw [reachedAccounts, if_pos hall, reached, List.takeWhile_eq_self_iff]
        exact fun s hs => List.all_eq_true.mp hall' s hs
      rw [List.nil_append] at hsends'
      rw [messages, hreached, haccounts]
      exact ⟨hsends', by rw [everyId, hall, hall']; rfl⟩
    · obtain ⟨hsends', hall'⟩ := hu
      rw [Table.select_true] at hsends' hall'
      rw [List.nil_append] at hsends'
      rw [messages, hreached, reachedAccounts, if_pos hall]
      exact ⟨hsends', by rw [everyId, hall, hall']; rfl⟩
  · obtain ⟨hsends, hall⟩ := ht
    rw [messages, reachedAccounts, if_neg (by simp [hall]), List.map_nil, List.append_nil]
    exact ⟨hsends, by rw [everyId, hall]; rfl⟩

theorem exec_createAndSendWebhook (hs : webhookSchemas.lookup topic = some schema)
    (hv : schema.parse event = some validated) (o : Nat → Answer) :
    left topic event w o = (created topic event w o).map .sendWebhook ∧
      sent topic event w o = messages topic validated w := by
  obtain ⟨rows, hrows, hjobs, hms⟩ :=
    wp_exec_state (wp_mono (fun _ _ h => h.1) (fun _ _ h => h.1)
      (wp_createAndSendWebhook (w := w) hs hv)) (anyAnswer o)
  have hcreated : created topic event w o = rows := by
    rw [created, hrows, List.drop_left]
  constructor
  · rw [left, hjobs, List.drop_left, hcreated]
  · rw [sent, hcreated, hms]

/-- What is sent is a matter of the tables alone. -/
theorem sent_eq (hs : webhookSchemas.lookup topic = some schema)
    (hv : schema.parse event = some validated) (o : Nat → Answer) :
    sent topic event w o = messages topic validated w :=
  (exec_createAndSendWebhook hs hv o).2

/-! ## When only the event's own are served -/

/-- The subscriptions served are the event's own, and all of its own are. -/
structure OnlyOwn (topic : String) (event : Json) (w : World) : Prop where
  apps : ∀ s ∈ reachedApps topic w, ownApp event s = true
  accounts : ∀ s ∈ reachedAccounts topic w, ownAccount event s = true
  everyApp : ∀ s ∈ topicApps topic w, ownApp event s = true → s ∈ reachedApps topic w
  everyAccount : ∀ s ∈ w.accountWebhooks.rows, ownAccount event s = true →
    s ∈ reachedAccounts topic w

section Prefix

variable {α : Type} {l p : List α} {own : α → Bool}

/-- A prefix of own elements is a prefix of the own elements. -/
theorem prefix_filter (hp : p <+: l) (hown : ∀ s ∈ p, own s = true) : p <+: l.filter own := by
  obtain ⟨rest, rfl⟩ := hp
  rw [List.filter_append, List.filter_eq_self.mpr hown]
  exact List.prefix_append _ _

/-- A prefix that holds every own element, and nothing else. -/
theorem prefix_eq_filter (hn : l.Nodup) (hp : p <+: l) (hown : ∀ s ∈ p, own s = true)
    (hall : ∀ s ∈ l, own s = true → s ∈ p) : p = l.filter own := by
  obtain ⟨rest, rfl⟩ := hp
  have hrest : rest.filter own = [] := by
    refine List.filter_eq_nil_iff.mpr fun s hs hso => ?_
    have hsp := hall s (List.mem_append_right p hs) hso
    exact List.disjoint_of_nodup_append hn hsp hs
  rw [List.filter_append, List.filter_eq_self.mpr hown, hrest, List.append_nil]

end Prefix

theorem reached_prefix {α : Type} (key : α → String) (subs : List α) :
    reached key subs <+: subs := List.takeWhile_prefix _

theorem reachedAccounts_prefix : reachedAccounts topic w <+: w.accountWebhooks.rows := by
  unfold reachedAccounts
  split
  · exact reached_prefix _ _
  · exact List.nil_prefix

theorem rows_nodup {α : Type} [Record α] (t : Table α) : t.rows.Nodup :=
  t.id_nodup.of_map Record.id

/-- An own subscription has a number for an id. -/
theorem isOk_of_isOwn {id : String} {x : Option Json} (h : isOwn id x = true) :
    (columnId id).isOk = true := by
  cases hid : columnId id with
  | ok n => rfl
  | error e => simp [isOwn, idOf, hid, Except.toOption] at h

/-- Where nobody else subscribes, all of the own are served. -/
theorem messages_withoutOthers :
    messages topic validated (withoutOthers event w) =
      ((topicApps topic w).filter (ownApp event)).map (appMessage validated) ++
        (w.accountWebhooks.rows.filter (ownAccount event)).map (accountMessage validated) := by
  have happs : topicApps topic (withoutOthers event w) =
      (topicApps topic w).filter (ownApp event) := List.filter_comm _ _ _
  have hall : ∀ s ∈ (topicApps topic w).filter (ownApp event),
      (columnId s.app_id).isOk = true := fun s hs => isOk_of_isOwn (List.mem_filter.mp hs).2
  have hreached : reachedApps topic (withoutOthers event w) =
      (topicApps topic w).filter (ownApp event) := by
    rw [reachedApps, happs]
    exact List.takeWhile_eq_self_iff.mpr hall
  have haccounts : reachedAccounts topic (withoutOthers event w) =
      w.accountWebhooks.rows.filter (ownAccount event) := by
    rw [reachedAccounts, happs, if_pos (List.all_eq_true.mpr hall)]
    exact List.takeWhile_eq_self_iff.mpr fun s hs => isOk_of_isOwn (List.mem_filter.mp hs).2
  rw [messages, hreached, haccounts]

theorem mem_reached {α : Type} {key : α → String} {subs : List α} {s : α}
    (h : s ∈ reached key subs) : (columnId (key s)).isOk = true :=
  List.mem_takeWhile_imp (p := fun s => (columnId (key s)).isOk) h

theorem idOf_isSome {id : String} (h : (columnId id).isOk = true) : (idOf id).isSome = true := by
  cases hid : columnId id with
  | ok n => simp [idOf, hid, Except.toOption]
  | error e => simp [hid, Except.isOk, Except.toBool] at h

/-- Whether an id is own depends on its number only. -/
theorem isOwn_congr {id id' : String} (h : idOf id = idOf id') (x : Option Json) :
    isOwn id x = isOwn id' x := by
  simp only [isOwn, h]

theorem reachedAccounts_ok {s : AccountWebhook} (h : s ∈ reachedAccounts topic w) :
    (columnId s.account_id).isOk = true := by
  unfold reachedAccounts at h
  split at h
  · exact mem_reached h
  · cases h

/-- **Who is told.** For every event its schema accepts, the webhooks go to the
event's own subscriptions, whoever else subscribes, exactly where those reached
are its own and all of its own are reached. -/
theorem separated_iff (topic : String) (schema : Schema) (event validated : Json) (w : World)
    (hs : webhookSchemas.lookup topic = some schema)
    (hv : schema.parse event = some validated) :
    Separated topic event w ↔ OnlyOwn topic event w := by
  have hpre : reachedApps topic w <+: topicApps topic w := reached_prefix _ _
  constructor
  · intro h
    have hmem : ∀ m ∈ messages topic validated w, ∃ webhook,
        Addressed topic event w webhook ∧ message webhook = m := by
      intro m hm
      rw [← sent_eq hs hv fun _ => {}] at hm
      obtain ⟨webhook, hw, rfl⟩ := List.mem_map.mp hm
      exact ⟨webhook, h.created _ webhook hw, rfl⟩
    have happs : ∀ s ∈ reachedApps topic w, ownApp event s = true := by
      intro s hsr
      obtain ⟨webhook, haddr, hm⟩ := hmem (appMessage validated s)
        (List.mem_append_left _ (List.mem_map.mpr ⟨s, hsr, rfl⟩))
      have hid : webhook.app_id = idOf s.app_id := congrArg Message.app_id hm
      rcases haddr with ⟨s', -, -, hown, -, hid', -⟩ | ⟨s', -, -, -, hid', -⟩
      · exact (isOwn_congr (hid.symm.trans hid') _).trans hown
      · have hsome := idOf_isSome (mem_reached hsr)
        rw [← hid, hid'] at hsome
        cases hsome
    have haccounts : ∀ s ∈ reachedAccounts topic w, ownAccount event s = true := by
      intro s hsr
      obtain ⟨webhook, haddr, hm⟩ := hmem (accountMessage validated s)
        (List.mem_append_right _ (List.mem_map.mpr ⟨s, hsr, rfl⟩))
      have hid : webhook.account_id = idOf s.account_id := congrArg Message.account_id hm
      rcases haddr with ⟨s', -, -, -, -, -, hid'⟩ | ⟨s', -, hown, -, -, hid'⟩
      · have hsome := idOf_isSome (reachedAccounts_ok hsr)
        rw [← hid, hid'] at hsome
        cases hsome
      · exact (isOwn_congr (hid.symm.trans hid') _).trans hown
    have hpa := prefix_filter hpre happs
    have hpc := prefix_filter reachedAccounts_prefix haccounts
    have hlen : (reachedApps topic w).length + (reachedAccounts topic w).length =
        ((topicApps topic w).filter (ownApp event)).length +
          (w.accountWebhooks.rows.filter (ownAccount event)).length := by
      have heq := h.alone (fun _ => {}) fun _ => {}
      rw [sent_eq hs hv, sent_eq hs hv, messages_withoutOthers] at heq
      simpa [messages] using congrArg List.length heq
    have hla := hpa.length_le
    have hlc := hpc.length_le
    have hea := hpa.eq_of_length (by omega)
    have hec := hpc.eq_of_length (by omega)
    refine ⟨happs, haccounts, fun s hsm hown => ?_, fun s hsm hown => ?_⟩
    · rw [hea]
      exact List.mem_filter.mpr ⟨hsm, hown⟩
    · rw [hec]
      exact List.mem_filter.mpr ⟨hsm, hown⟩
  · intro h
    have hea : reachedApps topic w = (topicApps topic w).filter (ownApp event) :=
      prefix_eq_filter ((rows_nodup w.appWebhooks).filter _) hpre h.apps h.everyApp
    have hec := prefix_eq_filter (rows_nodup w.accountWebhooks) reachedAccounts_prefix h.accounts
      h.everyAccount
    refine ⟨fun o webhook hw => ?_, fun o => (exec_createAndSendWebhook hs hv o).1,
      fun o o' => ?_⟩
    · have hm : message webhook ∈ messages topic validated w := by
        rw [← sent_eq hs hv o]
        exact List.mem_map.mpr ⟨webhook, hw, rfl⟩
      rcases List.mem_append.mp hm with hm | hm
      · obtain ⟨s, hsr, hsm⟩ := List.mem_map.mp hm
        obtain ⟨hrow, htopic⟩ := Table.mem_select.mp (hpre.subset hsr)
        exact .inl ⟨s, hrow, htopic, h.apps s hsr, (congrArg Message.url hsm).symm,
          (congrArg Message.app_id hsm).symm, (congrArg Message.account_id hsm).symm⟩
      · obtain ⟨s, hsr, hsm⟩ := List.mem_map.mp hm
        exact .inr ⟨s, reachedAccounts_prefix.subset hsr, h.accounts s hsr,
          (congrArg Message.url hsm).symm, (congrArg Message.app_id hsm).symm,
          (congrArg Message.account_id hsm).symm⟩
    · rw [sent_eq hs hv, sent_eq hs hv, messages_withoutOthers, ← hea, ← hec]
      rfl

/-- Two databases that differ in other tenants' subscriptions only. -/
theorem sent_congr {w' : World} (hs : webhookSchemas.lookup topic = some schema)
    (hv : schema.parse event = some validated) (h : OnlyOwn topic event w)
    (h' : OnlyOwn topic event w') (hsame : (withoutOthers event w).appWebhooks.rows =
      (withoutOthers event w').appWebhooks.rows ∧ (withoutOthers event w).accountWebhooks.rows =
      (withoutOthers event w').accountWebhooks.rows) (o o' : Nat → Answer) :
    sent topic event w o = sent topic event w' o' := by
  rw [((separated_iff topic schema event validated w hs hv).mpr h).alone o o',
    ((separated_iff topic schema event validated w' hs hv).mpr h').alone o' o', sent_eq hs hv,
    sent_eq hs hv, messages, messages, reachedApps, reachedApps, reachedAccounts,
    reachedAccounts, topicApps, topicApps, Table.select, Table.select, hsame.1, hsame.2]

/-! ## An event told to a stranger -/

/-- App 1 was paid. -/
def paid : Json :=
  .obj [
    ("topic", .str "invoice.paid"),
    ("payload", .obj [
      ("app_id", .num 1),
      ("invoice", .obj [("uid", .str "inv"), ("status", .str "paid")]),
      ("payment", .obj [
        ("chain", .str "BTC"), ("currency", .str "BTC"), ("txid", .str "t1"),
        ("status", .str "paid")])])]

/-- A subscription of an app to what is paid. -/
def subscription (app_id : String) : AppWebhook :=
  { id := 1, app_id, url := "https://" ++ app_id, topics := ["invoice.paid"] }

theorem paid_valid : InvoicePaidEvent.parse paid = some paid := by
  have htopic : regexTest "invoice.paid" "invoice.paid" = true := by decide +kernel
  have hstatus : regexTest "paid" "paid" = true := by decide +kernel
  simp [InvoicePaidEvent, eventSchema, matching, paymentField, paid, Schema.parse,
    Schema.parseFields, Json.field, htopic, hstatus]

/-- App 2 hears of it. -/
theorem sent_to_others :
    ¬ ∀ (topic : String) (schema : Schema) (event validated : Json) (w : World),
      webhookSchemas.lookup topic = some schema → schema.parse event = some validated →
      Separated topic event w := by
  intro h
  have hsep := h "invoice.paid" InvoicePaidEvent paid paid
    { appWebhooks := .single (subscription "2") } rfl paid_valid
  have heq := hsep.alone (fun _ => {}) fun _ => {}
  rw [sent_eq rfl paid_valid, sent_eq rfl paid_valid] at heq
  have hlen := congrArg List.length heq
  revert hlen
  decide +kernel

/-- A subscription of app 1 alone. -/
theorem separated_own :
    Separated "invoice.paid" paid { appWebhooks := .single (subscription "1") } := by
  refine (separated_iff "invoice.paid" InvoicePaidEvent paid paid _ rfl paid_valid).mpr ?_
  have hok : (columnId "1").isOk = true := by decide +kernel
  have hown : ownApp paid (subscription "1") = true := by decide +kernel
  have happs : reachedApps "invoice.paid" { appWebhooks := .single (subscription "1") } =
      [subscription "1"] := by
    simp [reachedApps, reached, topicApps, Table.select, Table.single, subscription, hok]
  refine ⟨fun s hs => ?_, fun s hs => ?_, fun s hs _ => ?_, fun s hs => (by cases hs)⟩
  · rw [happs, List.mem_singleton] at hs
    rw [hs]
    exact hown
  · cases reachedAccounts_prefix.subset hs
  · obtain ⟨hrow, -⟩ := Table.mem_select.mp hs
    rw [happs]
    exact hrow

end Subscriptions

end Anypay
