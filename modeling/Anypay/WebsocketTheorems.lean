/-
Anypay.WebsocketTheorems — what the sessions receive of the events published.

`publishEvent` publishes one event under up to FIVE routing keys: its own, and
two for the app and two for the account it concerns. A session's queue is bound
to the shorter of the account's two keys, and with an app's token to the shorter
of the app's. `receives_publications` counts the keys that are bound;
`delivered_iff` says when the count is right. It is wrong for every event of the
session's app AND account: both keys deliver it.
-/
import Mathlib.Data.List.Count
import Std.Data.String.ToInt
import Anypay.Db.Rules
import Anypay.Websockets

namespace Anypay

open Async Proc

namespace Session

/-! ## Routing keys -/

/-- The key of everything that concerns an app or an account. -/
def idKey (kind : String) (n : Int) : String := kind ++ "." ++ toString n ++ ".events"

/-- The key of an id, where there is one. -/
def keyOf (kind : String) (id : Option Int) : List String :=
  match orUndefined id with
  | none => []
  | some n => [idKey kind n]

/-- How many dots a text has. -/
def dots (s : String) : Nat := s.toList.count '.'

theorem dots_append (s t : String) : dots (s ++ t) = dots s + dots t := by
  simp [dots, String.toList_append]

theorem dots_repr (n : Nat) : dots n.repr = 0 := by
  rw [dots, Nat.toList_repr, List.count_eq_zero]
  intro h
  have hdigit := Nat.isDigit_of_mem_toDigits (by decide) (by decide) h
  exact absurd hdigit (by decide)

theorem dots_toString (n : Int) : dots (toString n) = 0 := by
  cases n with
  | ofNat n => exact dots_repr n
  | negSucc n =>
      change dots ("-" ++ (n + 1).repr) = 0
      rw [dots_append, dots_repr]
      rfl

theorem dots_idKey (kind : String) (n : Int) : dots (idKey kind n) = dots kind + 2 := by
  simp only [idKey, dots_append, dots_toString]
  rfl

/-- The key of one topic is nobody's. -/
theorem idKey_topic (kind : String) (n : Int) (topic kind' : String) (n' : Int)
    (h : dots kind' ≤ dots kind) : idKey kind n ++ "." ++ topic ≠ idKey kind' n' := by
  intro he
  have hdots := congrArg dots he
  rw [dots_append, dots_append, dots_idKey, dots_idKey] at hdots
  have hdot : dots "." = 1 := rfl
  omega

theorem idKey_inj {kind : String} {n n' : Int} (h : idKey kind n = idKey kind n') :
    n = n' := by
  have hlist := congrArg String.toList h
  simp only [idKey, String.toList_append, List.append_assoc] at hlist
  have hnum := List.append_cancel_right (List.append_cancel_left (List.append_cancel_left hlist))
  exact Int.repr_injective (String.toList_injective hnum)

theorem idKey_kinds (n n' : Int) : idKey "apps" n ≠ idKey "accounts" n' := by
  intro h
  have hlist := congrArg String.toList h
  simp [idKey, String.toList_append] at hlist

/-- A follower's key begins like its kind. -/
theorem followers_head {kind topic key : String} {id : Option Int} {c : Char}
    (hkind : kind.toList.head? = some c) (h : key ∈ followers kind id topic) :
    key.toList.head? = some c := by
  cases hlist : kind.toList with
  | nil => rw [hlist] at hkind; cases hkind
  | cons d ds =>
      rw [hlist] at hkind
      unfold followers at h
      cases hid : orUndefined id with
      | none =>
          rw [hid] at h
          cases h
      | some n =>
          simp only [hid, List.mem_cons, List.not_mem_nil, or_false] at h
          rcases h with rfl | rfl <;> simpa [String.toList_append, hlist] using hkind

/-! ## Sessions -/

/-- The queue is bound to the keys of the session's ids. -/
def Bound (session : Session) : Prop :=
  session.keys = keyOf "apps" session.app_id ++ keyOf "accounts" session.account_id

/-- A session `authenticate` let in. -/
def Authenticated (session : Session) : Prop :=
  ∃ request o w, ((authenticate request).exec o w).1 = .ok (some session)

theorem subscribeToAppEvents_bound (id : Nat) :
    ({ app_id := some id : Session }.subscribeToAppEvents).keys = keyOf "apps" (some id) ∧
      ({ app_id := some id : Session }.subscribeToAppEvents).app_id = some (id : Int) := by
  unfold subscribeToAppEvents keyOf
  simp only
  cases orUndefined (some (id : Int)) with
  | none => exact ⟨rfl, rfl⟩
  | some n => exact ⟨rfl, rfl⟩

/-- The account's key comes last. -/
theorem subscribeToAccountEvents_bound {session : Session}
    (h : session.keys = keyOf "apps" session.app_id) (id : Nat) :
    Bound { session with account_id := some id }.subscribeToAccountEvents := by
  unfold subscribeToAccountEvents Bound
  simp only
  cases hid : orUndefined (some (id : Int)) with
  | none =>
      simp only [keyOf, hid, List.append_nil]
      exact h
  | some n =>
      simp only [keyOf, hid]
      rw [h]
      rfl

theorem wp_authenticate (request : WebsocketRequest) (w : World) :
    (authenticate request).wp AnyAnswer (fun r _ => ∀ session, r = some session → Bound session)
      (fun _ _ => True) w := by
  unfold authenticate
  cases request.bearer with
  | none =>
      intro session h
      cases h
  | some token =>
      simp only [bind_eq, wp_bind]
      apply Delegate.wp_findFirstOrThrow
      · intro accessToken _ _
        apply Delegate.wp_findFirstOrThrow
        · intro account _ _
          cases orUndefined accessToken.app_id with
          | none =>
              intro session h
              obtain rfl := Option.some.inj h
              exact subscribeToAccountEvents_bound rfl account.id
          | some app_id =>
              rw [wp_bind]
              apply Delegate.wp_findFirstOrThrow
              · intro app _ _ session h
                obtain rfl := Option.some.inj h
                have happ := subscribeToAppEvents_bound app.id
                apply subscribeToAccountEvents_bound
                rw [happ.1, happ.2]
              · intro _
                trivial
        · intro _
          trivial
      · intro _
        trivial

theorem Authenticated.bound {session : Session} (h : Authenticated session) :
    Bound session := by
  obtain ⟨request, o, w, hok⟩ := h
  have hend := wp_exec (wp_authenticate request w) (anyAnswer o)
  rw [hok] at hend
  exact hend session rfl

/-! ## What one call publishes -/

/-- The event has the shape its routing key asks for. -/
def passes (key : String) (e : Event) : Bool :=
  match getSchema key with
  | none => true
  | some schema => (schema.parse e.toJson).isSome

/-- The log line with the event inside. -/
def logLine (key : String) (e : Event) : Json :=
  .obj [("topic", .str key), ("payload", e.toJson)]

/-- The routing keys the event goes out under. -/
def eventKeys (key : String) (e : Event) : List String :=
  key :: (followers "apps" e.app_id e.topic ++ followers "accounts" e.account_id e.topic)

def publications (call : String × Event) : List (String × Json) :=
  (call.1, logLine call.1 call.2) ::
    if passes call.1 call.2 then (eventKeys call.1 call.2).map fun k => (k, call.2.toJson)
    else []

/-- `w` with these messages published. -/
def sending (w : World) (messages : List (String × Json)) : World :=
  { w with published := w.published ++ messages }

theorem wp_publishAll {Q : Unit → World → Prop} {E : Failure → World → Prop} {j : Json}
    (keys : List String) {w : World} (h : Q () (sending w (keys.map fun k => (k, j)))) :
    (forEach keys fun k => publish k j).wp AnyAnswer Q E w := by
  induction keys generalizing w with
  | nil =>
      unfold sending at h
      rw [List.map_nil, List.append_nil] at h
      exact h
  | cons k keys ih =>
      rw [forEach, wp_bind]
      apply wp_publish
      apply ih
      unfold sending at h ⊢
      rw [List.map_cons, List.append_cons] at h
      exact h

theorem sending_sending (w : World) (ms ms' : List (String × Json)) :
    sending (sending w ms) ms' = sending w (ms ++ ms') := by
  unfold sending
  rw [List.append_assoc]

/-- The event itself, once it was checked. -/
theorem wp_publishChecked {Q : Unit → World → Prop} {E : Failure → World → Prop} {w : World}
    (key : String) (e : Event)
    (h : Q () (sending w ((eventKeys key e).map fun k => (k, e.toJson)))) :
    (Proc.bind (publish key e.toJson) fun _ =>
      (forEach (followers "apps" e.app_id e.topic) fun k => publish k e.toJson).bind fun _ =>
        forEach (followers "accounts" e.account_id e.topic) fun k =>
          publish k e.toJson).wp AnyAnswer Q E w := by
  rw [wp_bind]
  apply wp_publish
  rw [wp_bind]
  apply wp_publishAll
  apply wp_publishAll
  change Q () (sending (sending (sending w [(key, e.toJson)]) _) _)
  rw [sending_sending, sending_sending]
  simp only [eventKeys, List.map_cons, List.map_append] at h
  exact h

theorem wp_publishEvent {Q : Unit → World → Prop} {E : Failure → World → Prop} {w : World}
    (call : String × Event) (h : Q () (sending w (publications call))) :
    (detached (publishEvent call.1 call.2)).wp AnyAnswer Q E w := by
  obtain ⟨key, e⟩ := call
  have hchecked (hpasses : passes key e = true) :
      Q () (sending (sending w [(key, logLine key e)])
        ((eventKeys key e).map fun k => (k, e.toJson))) := by
    rw [sending_sending]
    simp only [publications, hpasses, if_true] at h
    exact h
  unfold detached publishEvent
  rw [wp_tryCatch]
  simp only [bind_eq, wp_bind]
  apply wp_publish
  cases hschema : getSchema key with
  | none =>
      apply wp_publishChecked
      apply hchecked
      simp only [passes, hschema]
  | some schema =>
      simp only
      cases hparse : schema.parse e.toJson with
      | some v =>
          apply wp_publishChecked
          apply hchecked
          simp only [passes, hschema, hparse, Option.isSome_some]
      | none =>
          have hfails : passes key e = false := by
            simp only [passes, hschema, hparse, Option.isSome_none]
          simp only [publications, hfails] at h
          exact h

/-- A run of calls publishes what each of them publishes, in order. -/
theorem wp_publishEvents (calls : List (String × Event)) {w : World} :
    (publishEvents calls).wp AnyAnswer
      (fun _ u => u = sending w (calls.flatMap publications)) (fun _ _ => False) w := by
  induction calls generalizing w with
  | nil =>
      change w = sending w []
      unfold sending
      rw [List.append_nil]
  | cons call calls ih =>
      unfold publishEvents
      rw [forEach, wp_bind]
      apply wp_publishEvent
      apply wp_mono _ (fun _ _ h => h) ih
      intro _ u hu
      rw [hu, sending_sending, List.flatMap_cons]

/-! ## What a session is sent -/

/-- The event is one of the webhook schemas'. -/
def valid (e : Event) : Bool := validate (e.toJson.get "topic") (e.toJson.get "payload")

/-- Both name the same app, or the same account; ids start at 1. -/
def SameId (x y : Option Int) : Prop := ∃ n, n ≠ 0 ∧ x = some n ∧ y = some n

instance (x y : Option Int) : Decidable (SameId x y) :=
  decidable_of_iff ((orUndefined x).isSome = true ∧ x = y) (by
    unfold SameId
    cases x with
    | none => simp [orUndefined]
    | some n => by_cases hn : n = 0 <;> simp [orUndefined, hn, eq_comm])

/-- Only what concerns the session's account or app, and that once. -/
structure Right (session : Session) (e : Event)
    (received : List (Option Json × Option Json)) : Prop where
  own : received ≠ [] →
    SameId e.account_id session.account_id ∨ SameId e.app_id session.app_id
  once : received.length ≤ 1

theorem sameId_iff {x y : Option Int} :
    SameId x y ↔ ∃ n, orUndefined x = some n ∧ orUndefined y = some n := by
  have hsome (z : Option Int) (n : Int) : orUndefined z = some n ↔ n ≠ 0 ∧ z = some n := by
    cases z with
    | none => simp [orUndefined]
    | some m =>
        change (if m = 0 then none else some m) = some n ↔ _
        by_cases hm : m = 0
        · rw [if_pos hm]
          constructor
          · intro h
            cases h
          · rintro ⟨hn, h⟩
            exact absurd ((Option.some.inj h).symm.trans hm) hn
        · rw [if_neg hm]
          constructor
          · intro h
            exact ⟨fun hn => hm ((Option.some.inj h).trans hn), h⟩
          · rintro ⟨-, h⟩
            exact h
  unfold SameId
  simp only [hsome]
  constructor
  · rintro ⟨n, hn, hx, hy⟩
    exact ⟨n, ⟨hn, hx⟩, hn, hy⟩
  · rintro ⟨n, ⟨hn, hx⟩, -, hy⟩
    exact ⟨n, hn, hx, hy⟩

theorem mem_keyOf {kind key : String} {id : Option Int} :
    key ∈ keyOf kind id ↔ ∃ n, orUndefined id = some n ∧ key = idKey kind n := by
  unfold keyOf
  cases orUndefined id with
  | none => simp
  | some n => simp

section Keys

variable {session : Session}

theorem Bound.mem_iff (h : Bound session) {key : String} :
    key ∈ session.keys ↔
      (∃ n, orUndefined session.app_id = some n ∧ key = idKey "apps" n) ∨
        ∃ n, orUndefined session.account_id = some n ∧ key = idKey "accounts" n := by
  rw [h, List.mem_append, mem_keyOf, mem_keyOf]

theorem Bound.dots (h : Bound session) {key : String} (hkey : key ∈ session.keys) :
    Session.dots key = 2 := by
  rcases h.mem_iff.mp hkey with ⟨n, -, rfl⟩ | ⟨n, -, rfl⟩
  · rw [dots_idKey]
    rfl
  · rw [dots_idKey]
    rfl

theorem Bound.app_iff (h : Bound session) (n : Int) :
    idKey "apps" n ∈ session.keys ↔ orUndefined session.app_id = some n := by
  rw [h.mem_iff]
  constructor
  · rintro (⟨m, hm, he⟩ | ⟨m, -, he⟩)
    · rw [idKey_inj he]
      exact hm
    · exact absurd he (idKey_kinds n m)
  · intro hn
    exact .inl ⟨n, hn, rfl⟩

theorem Bound.account_iff (h : Bound session) (n : Int) :
    idKey "accounts" n ∈ session.keys ↔ orUndefined session.account_id = some n := by
  rw [h.mem_iff]
  constructor
  · rintro (⟨m, -, he⟩ | ⟨m, hm, he⟩)
    · exact absurd he.symm (idKey_kinds m n)
    · rw [idKey_inj he]
      exact hm
  · intro hn
    exact .inr ⟨n, hn, rfl⟩

/-- One key of the two is the session's, where both have the id. -/
theorem countP_followers (h : Bound session) {kind : String} {theirs : Option Int}
    (hkey : ∀ n, idKey kind n ∈ session.keys ↔ orUndefined theirs = some n)
    (id : Option Int) (topic : String) :
    (followers kind id topic).countP session.keys.contains =
      if SameId id theirs then 1 else 0 := by
  unfold followers
  cases hid : orUndefined id with
  | none =>
      have hnot : ¬ SameId id theirs := by
        rw [sameId_iff, hid]
        rintro ⟨n, hn, -⟩
        cases hn
      rw [if_neg hnot]
      rfl
  | some n =>
      have hlong : idKey kind n ++ "." ++ topic ∉ session.keys := by
        intro hmem
        have htwo := h.dots hmem
        rw [dots_append, dots_append, dots_idKey] at htwo
        have hdot : Session.dots "." = 1 := rfl
        omega
      have hsame : SameId id theirs ↔ idKey kind n ∈ session.keys := by
        rw [hkey, sameId_iff, hid]
        constructor
        · rintro ⟨m, hm, htheirs⟩
          rw [Option.some.inj hm]
          exact htheirs
        · intro htheirs
          exact ⟨n, rfl, htheirs⟩
      change [idKey kind n, idKey kind n ++ "." ++ topic].countP session.keys.contains = _
      rw [List.countP_cons, List.countP_cons, List.countP_nil]
      simp only [List.contains_iff_mem, hlong, if_false, hsame, Nat.zero_add]

/-- Messages with one body. -/
theorem receives_map (session : Session) (keys : List String) (j : Json) :
    (session.receives (keys.map fun k => (k, j))).length =
      if (onQueueMessage j).isSome then keys.countP session.keys.contains else 0 := by
  unfold receives
  induction keys with
  | nil => simp
  | cons k keys ih =>
      rw [List.map_cons, List.countP_cons]
      by_cases hk : session.keys.contains k = true
      · rw [List.filter_cons, if_pos hk, if_pos hk]
        cases hj : onQueueMessage j with
        | none =>
            simp only [List.filterMap_cons, hj]
            rw [ih, hj]
            rfl
        | some x =>
            simp only [List.filterMap_cons, hj]
            rw [List.length_cons, ih, hj]
            rfl
      · rw [List.filter_cons, if_neg hk, if_neg hk, ih]
        rfl

/-- The log line comes under a key that is no session's, or is dropped. -/
theorem receives_logLine (h : Bound session) (key : String) (e : Event) :
    session.receives [(key, logLine key e)] = [] := by
  unfold receives
  by_cases hkey : key ∈ session.keys
  · have hnone : webhookSchemas.lookup key = none := by
      have htwo := h.dots hkey
      cases hlookup : webhookSchemas.lookup key with
      | none => rfl
      | some schema =>
          obtain ⟨before, after, he, -⟩ := List.lookup_eq_some_iff.mp hlookup
          have hmem : key ∈ webhookSchemas.map Prod.fst :=
            List.mem_map.mpr ⟨(key, schema), by rw [he]; simp, rfl⟩
          simp only [webhookSchemas, List.map_cons, List.map_nil, List.mem_cons,
            List.not_mem_nil, or_false] at hmem
          rcases hmem with rfl | rfl | rfl | rfl | rfl | rfl <;> exact absurd htwo (by decide)
    have htopic : (logLine key e).get "topic" = some (.str key) := rfl
    have hdropped : onQueueMessage (logLine key e) = none := by
      unfold onQueueMessage validate
      rw [htopic]
      simp only [hnone]
      rfl
    rw [List.filter_cons, if_pos (List.contains_iff_mem.mpr hkey), List.filter_nil]
    simp only [List.filterMap_cons, hdropped, List.filterMap_nil]
  · rw [List.filter_cons, if_neg (fun hmem => hkey (List.contains_iff_mem.mp hmem))]
    rfl

theorem receives_append (ms ms' : List (String × Json)) :
    session.receives (ms ++ ms') = session.receives ms ++ session.receives ms' := by
  unfold receives
  rw [List.filter_append, List.filterMap_append]

/-- The session is sent the event once for each key of it the queue is bound
to. -/
theorem receives_publications (h : Bound session) (call : String × Event) :
    (session.receives (publications call)).length =
      if passes call.1 call.2 && valid call.2 then
        (eventKeys call.1 call.2).countP session.keys.contains
      else 0 := by
  obtain ⟨key, e⟩ := call
  have hvalid : (onQueueMessage e.toJson).isSome = valid e := by
    unfold onQueueMessage valid
    split
    · rename_i hv
      rw [hv]
      rfl
    · rename_i hv
      rw [Bool.not_eq_true] at hv
      rw [hv]
      rfl
  change (session.receives ([(key, logLine key e)] ++ if passes key e then _ else [])).length = _
  rw [receives_append, receives_logLine h, List.nil_append]
  simp only
  cases passes key e with
  | false => rfl
  | true =>
      rw [if_pos rfl, receives_map, hvalid, Bool.true_and]

end Keys

/-- What a session is sent of one call is too much, or not for it. -/
def Twice (session : Session) (call : String × Event) : Prop :=
  passes call.1 call.2 = true ∧ valid call.2 = true ∧
    (call.1 ∈ session.keys ∨
      SameId call.2.account_id session.account_id ∧ SameId call.2.app_id session.app_id)

instance (session : Session) (call : String × Event) : Decidable (Twice session call) :=
  inferInstanceAs (Decidable (_ ∧ _ ∧ _))

theorem copies_eq {session : Session} (h : Bound session) (call : String × Event) :
    (eventKeys call.1 call.2).countP session.keys.contains =
      (if call.1 ∈ session.keys then 1 else 0) +
        ((if SameId call.2.app_id session.app_id then 1 else 0) +
          if SameId call.2.account_id session.account_id then 1 else 0) := by
  rw [eventKeys, List.countP_cons, List.countP_append, countP_followers h h.app_iff,
    countP_followers h h.account_iff, Nat.add_comm]
  simp only [List.contains_iff_mem]

theorem right_iff {session : Session} (h : Bound session) (call : String × Event) :
    Right session call.2 (session.receives (publications call)) ↔ ¬ Twice session call := by
  have hlength := receives_publications h call
  rw [copies_eq h] at hlength
  have hright : Right session call.2 (session.receives (publications call)) ↔
      ((session.receives (publications call)).length ≠ 0 →
        SameId call.2.account_id session.account_id ∨ SameId call.2.app_id session.app_id) ∧
      (session.receives (publications call)).length ≤ 1 := by
    constructor
    · intro hr
      exact ⟨fun hne => hr.own fun hnil => hne (List.length_eq_zero_iff.mpr hnil), hr.once⟩
    · intro hr
      exact ⟨fun hne => hr.1 fun hnil => hne (List.length_eq_zero_iff.mp hnil), hr.2⟩
  rw [hright, hlength]
  unfold Twice
  cases passes call.1 call.2 with
  | false => simp
  | true =>
      cases valid call.2 with
      | false => simp
      | true =>
          by_cases hkey : call.1 ∈ session.keys <;>
            by_cases happ : SameId call.2.app_id session.app_id <;>
              by_cases haccount : SameId call.2.account_id session.account_id <;>
                simp [hkey, happ, haccount]

/-! ## Every run -/

/-- **Its own events, once each**: what a run of `publishEvent` calls publishes
is, call by call, what each publishes; every session is sent of it only what is
its account's or its app's, and that at most once, if and only if no valid event
is of both and none is published under a key of a session. -/
theorem delivered_iff {sessions : List Session} (h : ∀ session ∈ sessions, Authenticated session)
    (calls : List (String × Event)) (o : Nat → Answer) (w : World) :
    ((publishEvents calls).exec o w).2.published =
        w.published ++ calls.flatMap publications ∧
      ((∀ call ∈ calls, ∀ session ∈ sessions,
          Right session call.2 (session.receives (publications call))) ↔
        ∀ call ∈ calls, ∀ session ∈ sessions, ¬ Twice session call) := by
  constructor
  · have hend := wp_exec (wp_publishEvents calls (w := w)) (anyAnswer o)
    cases hr : ((publishEvents calls).exec o w).1 with
    | ok u =>
        rw [hr] at hend
        rw [hend]
        rfl
    | error e =>
        rw [hr] at hend
        exact hend.elim
  · constructor
    · intro hr call hcall session hsession
      exact (right_iff (h session hsession).bound call).mp (hr call hcall session hsession)
    · intro hnot call hcall session hsession
      exact (right_iff (h session hsession).bound call).mpr (hnot call hcall session hsession)

/-- Account 5, its app 7, and a token of the account or of the app. -/
def shop (app_id : Option Int) : World where
  accounts := .single { id := 5 }
  apps := .single { id := 7, account_id := 5 }
  accessTokens := .single { id := 1, uid := some "token", account_id := 5, app_id := app_id }

/-- An invoice the app created for its account. -/
def created : String × Event :=
  ("invoice.created",
    { topic := "invoice.created", account_id := some 5, app_id := some 7,
      body := [("invoice", .obj [("uid", .str "a"), ("status", .str "unpaid"),
        ("quote", .obj [("value", .ofNat 1), ("currency", .str "USD")])])] })

def ofAccount : Session where
  account_id := some 5
  keys := ["accounts.5.events"]

def ofApp : Session where
  account_id := some 5
  app_id := some 7
  keys := ["apps.7.events", "accounts.5.events"]

theorem authenticated_account : Authenticated ofAccount :=
  ⟨{ token := some "token" }, fun _ => {}, shop none, by decide +kernel⟩

theorem authenticated_app : Authenticated ofApp :=
  ⟨{ authorization := some "Bearer token" }, fun _ => {}, shop (some 7), by decide +kernel⟩

/-- A session with the account's token is told once. -/
theorem delivered_account :
    Right ofAccount created.2 (ofAccount.receives (publications created)) := by
  have hsessions : ∀ session ∈ [ofAccount], Authenticated session :=
    List.forall_mem_singleton.mpr authenticated_account
  have hright := (delivered_iff hsessions [created] (fun _ => {}) {}).2.mpr (by decide)
  exact hright created List.mem_cons_self ofAccount List.mem_cons_self

/-- One with the app's token, twice. -/
theorem told_twice : ¬ ∀ session, Authenticated session → ∀ call,
    Right session call.2 (session.receives (publications call)) := by
  intro h
  have hone := (h ofApp authenticated_app created).once
  exact absurd hone (by decide)

end Session

end Anypay
