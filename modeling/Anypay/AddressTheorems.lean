/-
Anypay.AddressTheorems — what locking an address protects it from.

A call reads a row in one step and writes or deletes it in a later one. It is AT
THE WRITE OF a row where its next step may change that row, and then the row was
unlocked when it was found: `setAddress` and `unsetAddress` check that
(`leads_handle`), `removeAddress` and `destroy` do not. From there on nothing
looks at `locked` again.

`admits` therefore asks two things of a run: the two that do not check find no
locked row, and no row is locked while a call is at the write of it. Then a locked
row stays as it is until `unlockAddress` unlocks it (`locked_address_stays`).
-/
import Anypay.Addresses
import Anypay.Db.Rules

namespace Anypay.Addresses

open Async Proc Pool Store

variable {env : Env} {w w' : World} {i : Nat} {r : Address}

/-- The next step of the program may change or delete row `i`. -/
def AtWriteOf (i : Nat) : Task Unit → Prop
  | .atomic write _ => ∃ c w, ∃ r ∈ w.addresses.rows,
      r.id = i ∧ r ∉ (write c w).addresses.rows
  | _ => False

/-- Row `i`, if it is there, is not locked. -/
def Unlocked (i : Nat) (w : World) : Prop :=
  ∀ r ∈ w.addresses.rows, r.id = i → r.locked ≠ some true

/-! ## Steps that keep the rows -/

theorem not_atWriteOf_query {α : Type} {read : Answer → World → Except Failure α}
    {f : α → Task Unit} : ¬ AtWriteOf i ((query read).bind f) := by
  rintro ⟨c, w, r, hr, -, hgone⟩
  exact hgone hr

theorem rows_create {mk : Time → Nat → Address} {hid : ∀ t n, Record.id (mk t n) = n}
    {c : Answer} (hr : r ∈ w.addresses.rows) :
    r ∈ (prisma.addresses.commit w
      ((prisma.addresses.get w).insert? (mk c.now) (hid c.now))).2.addresses.rows := by
  cases h : (prisma.addresses.get w).insert? (mk c.now) (hid c.now) with
  | error e => exact hr
  | ok p =>
      obtain ⟨-, hrows, -⟩ := Table.insert?_ok h
      show r ∈ p.2.rows
      rw [hrows]
      exact List.mem_append_left _ hr

/-- An update leaves a row alone or changes it as it says. -/
theorem rows_update {j : Nat} {f : Address → Address}
    {hid : ∀ r, Record.id (f r) = Record.id r} (hr : r ∈ w.addresses.rows) :
    let t := (prisma.addresses.commit w
      ((prisma.addresses.get w).update? j f hid)).2.addresses.rows
    r ∈ t ∨ r.id = j ∧ f r ∈ t := by
  intro t
  cases h : (prisma.addresses.get w).update? j f hid with
  | error e =>
      refine .inl ?_
      simp only [t, h]
      exact hr
  | ok p =>
      obtain ⟨x, hx, hi, -, hrows, -⟩ := Table.update?_ok h
      have ht : t = Table.patch j f w.addresses.rows := by
        simp only [t, h]
        exact hrows
      rw [ht]
      by_cases hj : r.id = j
      · exact .inr ⟨hj, hj ▸ Table.mem_patch hr⟩
      · exact .inl (Table.mem_patch_of_ne hr hj)

theorem rows_delete {j : Nat} (hr : r ∈ w.addresses.rows) (hj : r.id ≠ j) :
    r ∈ (prisma.addresses.commit w
      ((prisma.addresses.get w).delete? j)).2.addresses.rows := by
  cases h : (prisma.addresses.get w).delete? j with
  | error e => exact hr
  | ok p =>
      obtain ⟨-, -, hrows⟩ := Table.delete?_ok h
      show r ∈ p.2.rows
      rw [hrows]
      exact List.mem_filter.mpr ⟨hr, bne_iff_ne.mpr hj⟩

theorem atWriteOf_update {j : Nat} {f : Time → Address → Address}
    {hid : ∀ t r, Record.id (f t r) = Record.id r} {k : Address → Task Unit}
    (h : AtWriteOf i ((prisma.addresses.update j f hid).bind k)) : i = j := by
  obtain ⟨c, w, r, hr, rfl, hgone⟩ := h
  by_contra hne
  exact (rows_update hr).elim hgone fun h => hne h.1

theorem atWriteOf_delete {j : Nat} {k : Address → Task Unit}
    (h : AtWriteOf i ((prisma.addresses.delete j).bind k)) : i = j := by
  obtain ⟨c, w, r, hr, rfl, hgone⟩ := h
  by_contra hne
  exact hgone (rows_delete hr hne)

theorem not_atWriteOf_create {mk : Time → Nat → Address}
    {hid : ∀ t n, Record.id (mk t n) = n} {k : Address → Task Unit} :
    ¬ AtWriteOf i ((prisma.addresses.create mk hid).bind k) := by
  rintro ⟨c, w, r, hr, -, hgone⟩
  exact hgone (@rows_create w r mk hid c hr)

/-! ## The calls -/

/-- What a call at the write of a row has found out about it. -/
def Checked (p : Task Unit) (w : World) : Prop := ∀ i, AtWriteOf i p → Unlocked i w

/-- A row that was found unlocked. -/
theorem unlocked_of_found (hr : r ∈ w.addresses.rows) (hopen : isLocked r = false) :
    Unlocked r.id w := by
  intro x hx hid hlocked
  obtain rfl := Table.eq_of_id hx hr hid
  simp [isLocked, hlocked] at hopen

theorem checked_fail (e : Failure) (w : World) : Checked (.fail e) w := fun _ h => h.elim

theorem leads_ask_bind {α : Type} {h : Answer → Except Failure α} {f : α → Task Unit}
    (hf : ∀ a, (∀ w, Checked (f a) w) ∧ (f a).Leads Checked) :
    ((ask h).bind f).Leads Checked :=
  leads_step_bind checked_fail fun _ s a _ => ⟨(hf a).1 s, (hf a).2⟩

/-- A program whose last step this is. -/
theorem leads_last {α : Type} {op : Answer → World → Except Failure α × World} :
    ((Proc.step op).bind fun _ => Proc.done ()).Leads Checked :=
  leads_step_bind checked_fail fun _ _ _ _ => ⟨fun _ h => h.elim, trivial⟩

/-- An update of a row that is left alone where it is locked. -/
theorem leads_unless_locked {message : String} {f : Time → Address → Address}
    {hid : ∀ t x, Record.id (f t x) = Record.id x} (hr : r ∈ w.addresses.rows) :
    let p : Task Unit :=
      (if isLocked r then reject message else prisma.addresses.update r.id f hid).bind
        fun _ => Proc.done ()
    Checked p w ∧ p.Leads Checked := by
  cases hopen : isLocked r with
  | true =>
      rw [if_pos rfl]
      exact ⟨checked_fail _ _, trivial⟩
  | false =>
      rw [if_neg Bool.false_ne_true]
      refine ⟨fun i hi => ?_, leads_last⟩
      rw [atWriteOf_update hi]
      exact unlocked_of_found hr hopen

theorem leads_setAddress (changeset : AddressChangeSet) :
    (handle env (.setAddress changeset)).Leads Checked := by
  simp only [handle, setAddress, Proc.bind_eq, Proc.bind_assoc]
  cases find env changeset.currency changeset.chain with
  | error e => exact trivial
  | ok plugin =>
      refine leads_ask_bind fun address => ⟨fun w i h => (not_atWriteOf_query h).elim, ?_⟩
      refine leads_ask_bind fun isValid => ?_
      cases isValid with
      | false => exact ⟨checked_fail _, trivial⟩
      | true =>
          rw [if_neg (by simp), Proc.bind_assoc]
          refine ⟨fun w i h => (not_atWriteOf_query h).elim, ?_⟩
          refine leads_step_bind checked_fail fun c w found h => ?_
          have hpick : w.addresses.pick
              (held changeset.account_id changeset.currency changeset.chain) c.row = found :=
            Except.ok.inj h
          cases found with
          | none => exact ⟨fun i hi => (not_atWriteOf_create hi).elim, leads_last⟩
          | some r => exact leads_unless_locked (Table.pick_some hpick).1

theorem leads_unsetAddress (changeset : AddressChangeSet) :
    (unsetAddress changeset).Leads Checked := by
  refine leads_step_bind checked_fail fun c s address h => ?_
  obtain ⟨hmem, -⟩ := Delegate.findFirstOrThrow_ok h
  cases hopen : isLocked address with
  | true => 
      rw [if_pos rfl]
      exact ⟨checked_fail _ _, trivial⟩
  | false => 
      rw [if_neg Bool.false_ne_true]
      refine ⟨fun i hi => ?_, ?_⟩
      · rw [atWriteOf_delete hi]
        exact unlocked_of_found hmem hopen
      · exact leads_last

/-- Where a call that writes addresses starts, it has found none. -/
theorem not_atWriteOf_handle {call : AddressCall} (hcall : call.writesAddress = true) :
    ¬ AtWriteOf i (handle env call) := by
  cases call with
  | setAddress changeset =>
      simp only [handle, setAddress, Proc.bind_eq, Proc.bind_assoc]
      cases find env changeset.currency changeset.chain with
      | error e => exact fun h => h.elim
      | ok plugin => exact not_atWriteOf_query
  | unsetAddress changeset => exact not_atWriteOf_query
  | removeAddress account_id currency chain => exact not_atWriteOf_query
  | destroy account_id currency => exact not_atWriteOf_query
  | lockAddress account_id currency chain => cases hcall
  | unlockAddress account_id currency chain => cases hcall

/-- A step leaves locked rows alone, or one is unlocked by a call of `unlockAddress`. -/
def Spares (call : AddressCall) (w w' : World) : Prop :=
  ∀ r ∈ w.addresses.rows, r.locked = some true → r ∈ w'.addresses.rows ∨
    (∃ account_id currency chain, call = .unlockAddress account_id currency chain) ∧
      { r with locked := some false } ∈ w'.addresses.rows

/-- A row is looked up and updated: what the update does to a locked row decides. -/
theorem spares_update {call : AddressCall} {where_ : Address → Bool}
    {f : Address → Address} (hid : ∀ r : Address, Record.id (f r) = Record.id r)
    (hf : ∀ (r : Address) (t : World), r.locked = some true → f r ∈ t.addresses.rows →
      r ∈ t.addresses.rows ∨
      (∃ account_id currency chain, call = .unlockAddress account_id currency chain) ∧
        { r with locked := some false } ∈ t.addresses.rows) :
    (((prisma.addresses.findFirstOrThrow where_).bind fun address =>
      prisma.addresses.update address.id (fun _ => f) fun _ => hid).bind
        fun _ => Proc.done ()).Always (Spares call) fun _ => True := by
  have hfind : (prisma.addresses.findFirstOrThrow where_).Always (Spares call) fun _ => True :=
    always_step (fun _ w r hr _ => .inl hr) fun _ _ _ _ => trivial
  have hupdate : ∀ i, (prisma.addresses.update i (fun _ => f) fun _ => hid).Always (Spares call)
      fun _ => True := by
    refine fun i => always_step (fun c w r hr hlocked => ?_) fun _ _ _ _ => trivial
    rcases rows_update hr with h | h
    · exact .inl h
    · exact hf r _ hlocked h.2
  exact always_bind (always_bind hfind fun address _ => hupdate address.id) fun _ _ => trivial

theorem spares_handle {call : AddressCall} (hcall : call.writesAddress = false) :
    (handle env call).Always (Spares call) fun _ => True := by
  cases call with
  | lockAddress account_id currency chain =>
      refine spares_update (f := fun r : Address => { r with locked := some true })
        (fun _ => rfl) fun r t hlocked h => .inl ?_
      have hsame : { r with locked := some true } = r := by rw [← hlocked]
      rwa [hsame] at h
  | unlockAddress account_id currency chain =>
      refine spares_update (f := fun r : Address => { r with locked := some false })
        (fun _ => rfl) fun r t _ h => .inr ?_
      exact ⟨⟨account_id, currency, chain, rfl⟩, h⟩
  | setAddress changeset => cases hcall
  | unsetAddress changeset => cases hcall
  | removeAddress account_id currency chain => cases hcall
  | destroy account_id currency => cases hcall

/-! ## Runs -/

/-- What is asked of a step by call `k` that takes `p` to `q`. -/
structure Careful (k : Nat) (p q : Pool World Answer Failure AddressCall) : Prop where
  /-- `removeAddress` and `destroy` find no locked row. -/
  finds : ∀ th, q.threads[k]? = some th → th.1.unchecked = true → Checked th.2 q.state
  /-- No row is locked that a call is at the write of. -/
  locks : ∀ i, Unlocked i p.state → ¬ Unlocked i q.state →
    ∀ th ∈ p.threads, th.1.writesAddress = true → ¬ AtWriteOf i th.2

def admits (env : Env) (p : Pool World Answer Failure AddressCall) :
    Move Answer AddressCall → Prop
  | .start _ => True
  | .run k c => ∀ q, p.move (handle env) (.run k c) = some q → Careful k p q

/-- What holds of a call under way. -/
structure Underway (call : AddressCall) (p : Task Unit) (w : World) : Prop where
  leads : call.writesAddress = true → call.unchecked = false → p.Leads Checked
  spares : call.writesAddress = false → p.Always (Spares call) fun _ => True
  found : call.writesAddress = true → Checked p w

theorem underway_handle (call : AddressCall) (w : World) :
    Underway call (handle env call) w where
  leads hcall hchecked := by
    cases call with
    | setAddress changeset => exact leads_setAddress changeset
    | unsetAddress changeset => exact leads_unsetAddress changeset
    | removeAddress account_id currency chain => cases hchecked
    | destroy account_id currency => cases hchecked
    | lockAddress account_id currency chain => cases hcall
    | unlockAddress account_id currency chain => cases hcall
  spares hcall := spares_handle hcall
  found hcall _ h := (not_atWriteOf_handle hcall h).elim

variable {p q : Pool World Answer Failure AddressCall} {m : Move Answer AddressCall}

def AllUnderway (p : Pool World Answer Failure AddressCall) : Prop :=
  ∀ th ∈ p.threads, Underway th.1 th.2 p.state

theorem allUnderway_move (hp : AllUnderway p) (hm : admits env p m)
    (hmv : p.move (handle env) m = some q) : AllUnderway q := by
  cases m with
  | start call =>
      obtain rfl := move_start hmv
      intro th hth
      rcases List.mem_append.mp hth with hth | hth
      · exact hp th hth
      · rw [List.mem_singleton.mp hth]
        exact underway_handle call _
  | run k c =>
      have hcareful : Careful k p q := hm q hmv
      obtain ⟨call, write, next, hk, rfl⟩ := move_run hmv
      have hself : Underway call (.atomic write next) p.state :=
        hp _ (List.mem_of_getElem? hk)
      intro th hth
      rcases List.mem_or_eq_of_mem_set hth with hth | rfl
      · have hother := hp th hth
        refine ⟨hother.leads, hother.spares, fun hcall i hi => ?_⟩
        by_contra hlocked
        exact hcareful.locks i (hother.found hcall i hi) hlocked th hth hcall hi
      · refine ⟨fun hcall hchecked => (hself.leads hcall hchecked c p.state).2,
          fun hcall => (hself.spares hcall c p.state).2, fun hcall => ?_⟩
        cases hchecked : call.unchecked with
        | false => exact (hself.leads hcall hchecked c p.state).1
        | true =>
            have hlt : k < p.threads.length := (List.getElem?_eq_some_iff.mp hk).1
            exact hcareful.finds (call, next c p.state) (List.getElem?_set_self hlt) hchecked

/-- The move is a step of a call of `unlockAddress`. -/
def IsUnlock (p : Pool World Answer Failure AddressCall) : Move Answer AddressCall → Prop
  | .start _ => False
  | .run k _ => ∃ account_id currency chain rest,
      p.threads[k]? = some (.unlockAddress account_id currency chain, rest)

/-- One move leaves a locked row alone or unlocks it. -/
theorem locked_move (hp : AllUnderway p) (hmv : p.move (handle env) m = some q)
    (hr : r ∈ p.state.addresses.rows) (hlocked : r.locked = some true) :
    r ∈ q.state.addresses.rows ∨
      IsUnlock p m ∧ { r with locked := some false } ∈ q.state.addresses.rows := by
  cases m with
  | start call =>
      obtain rfl := move_start hmv
      exact .inl hr
  | run k c =>
      obtain ⟨call, write, next, hk, rfl⟩ := move_run hmv
      have hself : Underway call (.atomic write next) p.state :=
        hp _ (List.mem_of_getElem? hk)
      cases hcall : call.writesAddress with
      | true =>
          refine .inl ?_
          by_contra hgone
          have hat : AtWriteOf r.id (.atomic write next) := ⟨c, p.state, r, hr, rfl, hgone⟩
          exact hself.found hcall r.id hat r hr rfl hlocked
      | false =>
          refine ((hself.spares hcall c p.state).1 r hr hlocked).imp_right fun h => ⟨?_, h.2⟩
          obtain ⟨account_id, currency, chain, rfl⟩ := h.1
          exact ⟨account_id, currency, chain, _, hk⟩

/-- In a run whose steps are all careful, a locked address stays as it is, unless a
call of `unlockAddress` unlocks it; and it is as it was until then. -/
theorem locked_address_stays (hp : Reaches (handle env) (admits env) (Pool.init w) p)
    (hr : r ∈ p.state.addresses.rows) (hlocked : r.locked = some true)
    (h : Reaches (handle env) (admits env) p q) :
    r ∈ q.state.addresses.rows ∨
      ∃ p₁ m p₂, Reaches (handle env) (admits env) p p₁ ∧ r ∈ p₁.state.addresses.rows ∧
        p₁.move (handle env) m = some p₂ ∧ IsUnlock p₁ m ∧
        { r with locked := some false } ∈ p₂.state.addresses.rows ∧
        Reaches (handle env) (admits env) p₂ q := by
  have hall : ∀ {p'}, Reaches (handle env) (admits env) p p' → AllUnderway p' := fun h' =>
    reaches_inv (fun _ _ _ => allUnderway_move) (fun _ hth => (List.not_mem_nil hth).elim)
      (hp.trans h')
  induction h with
  | refl => exact .inl hr
  | tail hto hstep ih =>
      obtain ⟨m, hm, hmv⟩ := hstep
      rcases ih with hhere | ⟨p₁, m₁, p₂, h₁, hin, hmv₁, hunlock, hout, h₂⟩
      · rcases locked_move (hall hto) hmv hhere hlocked with hstill | ⟨hunlock, hout⟩
        · exact .inl hstill
        · exact .inr ⟨_, m, _, hto, hhere, hmv, hunlock, hout, .refl⟩
      · exact .inr ⟨p₁, m₁, p₂, h₁, hin, hmv₁, hunlock, hout, h₂.tail ⟨m, hm, hmv⟩⟩

/-! ## One address -/

/-- An account's address, locked or not. -/
def oneAddress (locked : Bool) : Address :=
  { id := 1, account_id := some 1, currency := "BTC", chain := "BTC", value := some "1Merchant",
    locked := some locked }

/-- A server with the BTC plugin. -/
def server : Env where
  plugins := [("BTC", { currency := "BTC", chain := "BTC", decimals := 8 })]

/-- The chain library accepts what it is asked about. -/
def quietly : Answer := {}

def redirect : AddressCall :=
  .setAddress { account_id := 1, currency := "BTC", chain := "BTC", address := "1Thief" }

/-- The address is removed. -/
def removes : List (Move Answer AddressCall) :=
  [.start (.removeAddress 1 "BTC" "BTC")] ++ steps 0 2 quietly

/-- `setAddress` has found the address unlocked, and it is locked now. -/
def locksLate : List (Move Answer AddressCall) :=
  [.start redirect] ++ steps 0 3 quietly ++ [.start (.lockAddress 1 "BTC" "BTC")] ++
    steps 1 2 quietly

/-- The value and the lock of every address. -/
def shown (p : Pool World Answer Failure AddressCall) : List (Option String × Option Bool) :=
  p.state.addresses.rows.map fun r => (r.value, r.locked)

def noUnlock (p : Pool World Answer Failure AddressCall) : Bool :=
  p.threads.all fun th => match th.1 with
    | .unlockAddress .. => false
    | _ => true

/-- A locked address is removed, and one is redirected while it is locked; nobody
unlocks them. -/
theorem locked_address_goes :
    (∃ q, Reaches (handle server) (fun _ _ => True)
        (Pool.init { addresses := .single (oneAddress true) }) q ∧
      noUnlock q = true ∧ shown q = []) ∧
    ∃ p q, Reaches (handle server) (fun _ _ => True)
        (Pool.init { addresses := .single (oneAddress false) }) p ∧
      shown p = [(some "1Merchant", some true)] ∧
      Reaches (handle server) (fun _ _ => True) p q ∧
      noUnlock q = true ∧ shown q = [(some "1Thief", some true)] := by
  have hadm : ∀ ms p, Admitted (handle server) (fun _ _ => True) ms p :=
    fun _ _ => admitted_all (fun _ _ _ => trivial) _
  constructor
  · obtain ⟨q, hreach, htest⟩ := exists_reaches (fun q => noUnlock q && decide (shown q = []))
      (hadm removes (Pool.init { addresses := .single (oneAddress true) })) (by decide +kernel)
    simp only [Bool.and_eq_true, decide_eq_true_eq] at htest
    exact ⟨q, hreach, htest⟩
  · obtain ⟨p, hp, htest⟩ := exists_reaches (fun p =>
        decide (shown p = [(some "1Merchant", some true)]) &&
        (run (handle server) (steps 0 1 quietly) p).any fun q =>
          noUnlock q && decide (shown q = [(some "1Thief", some true)]))
      (hadm locksLate (Pool.init { addresses := .single (oneAddress false) })) (by decide +kernel)
    simp only [Bool.and_eq_true, decide_eq_true_eq] at htest
    obtain ⟨q, hq, hlast⟩ := exists_reaches _ (hadm (steps 0 1 quietly) p) htest.2
    simp only [Bool.and_eq_true, decide_eq_true_eq] at hlast
    exact ⟨p, q, hp, htest.1, hq, hlast⟩

/-- The address is locked, then somebody tries to set it. -/
def locksFirst : List (Move Answer AddressCall) :=
  [.start (.lockAddress 1 "BTC" "BTC")] ++ steps 0 2 quietly

def triesToSet : List (Move Answer AddressCall) := [.start redirect] ++ steps 1 3 quietly

/-- Every row locked afterwards was locked before. -/
def locksNothing (w w' : World) : Bool :=
  w'.addresses.rows.all fun r => decide (r.locked = some true →
    ∃ x ∈ w.addresses.rows, x.id = r.id ∧ x.locked = some true)

/-- A step of a call that checks, which locks nothing or finds no address being written. -/
def calm (env : Env) (p : Pool World Answer Failure AddressCall) :
    Move Answer AddressCall → Bool
  | .start _ => true
  | .run k c =>
      (p.threads[k]?.all fun th => !th.1.unchecked) &&
      (p.move (handle env) (.run k c)).all fun q => locksNothing p.state q.state ||
        p.threads.all fun th => !(th.1.writesAddress && th.2.running)

theorem unlocked_of_locksNothing (h : locksNothing w w' = true) (hi : Unlocked i w) :
    Unlocked i w' := by
  intro r hr hid hlocked
  have hbefore := List.all_eq_true.mp h r hr
  obtain ⟨x, hx, hxid, hxlocked⟩ := of_decide_eq_true hbefore hlocked
  exact hi x hx (hxid.trans hid) hxlocked

theorem admits_of_calm (h : calm env p m = true) : admits env p m := by
  cases m with
  | start call => exact trivial
  | run k c =>
      intro q hmv
      simp only [calm, Bool.and_eq_true] at h
      obtain ⟨hchecks, hlocks⟩ := h
      rw [hmv, Option.all_some, Bool.or_eq_true] at hlocks
      obtain ⟨call, write, next, hk, rfl⟩ := move_run hmv
      rw [hk] at hchecks
      constructor
      · intro th hth hunchecked
        have hlt : k < p.threads.length := (List.getElem?_eq_some_iff.mp hk).1
        obtain rfl := Option.some.inj ((List.getElem?_set_self hlt).symm.trans hth)
        simp [hunchecked] at hchecks
      · intro i hi hlocked th hth hwrites hat
        rcases hlocks with hnothing | hnone
        · exact hlocked (unlocked_of_locksNothing hnothing hi)
        · have hended : th.2.running = false := by
            simpa [hwrites] using List.all_eq_true.mp hnone th hth
          cases hp : th.2 with
          | atomic write next => simp [hp, Proc.running] at hended
          | done a => exact (hp ▸ hat : AtWriteOf i (.done a))
          | fail e => exact (hp ▸ hat : AtWriteOf i (.fail e))

/-- A locked address that somebody tries to set. -/
theorem locked_address_kept : ∃ p q, Reaches (handle server) (admits server)
      (Pool.init { addresses := .single (oneAddress false) }) p ∧
    Reaches (handle server) (admits server) p q ∧ noUnlock q = true ∧ q.threads.length = 2 ∧
    (oneAddress true ∈ q.state.addresses.rows ∨
      ∃ p₁ m p₂, Reaches (handle server) (admits server) p p₁ ∧
        oneAddress true ∈ p₁.state.addresses.rows ∧
        p₁.move (handle server) m = some p₂ ∧ IsUnlock p₁ m ∧
        oneAddress false ∈ p₂.state.addresses.rows ∧
        Reaches (handle server) (admits server) p₂ q) := by
  have hadm : ∀ ms p, checks (handle server) (calm server) ms p = true →
      Admitted (handle server) (admits server) ms p :=
    fun _ _ => admitted_of_checks fun _ _ => admits_of_calm
  obtain ⟨p, hp, htest⟩ := exists_reaches (fun (p : Pool World Answer Failure AddressCall) =>
      decide (p.state.addresses.rows = [oneAddress true]) &&
      checks (handle server) (calm server) triesToSet p &&
      (run (handle server) triesToSet p).any fun q =>
        noUnlock q && decide (q.threads.length = 2))
    (hadm locksFirst (Pool.init { addresses := .single (oneAddress false) })
      (by decide +kernel)) (by decide +kernel)
  simp only [Bool.and_eq_true, decide_eq_true_eq] at htest
  obtain ⟨q, hq, hlast⟩ := exists_reaches _ (hadm _ _ htest.1.2) htest.2
  simp only [Bool.and_eq_true, decide_eq_true_eq] at hlast
  have hr : oneAddress true ∈ p.state.addresses.rows := by simp [htest.1.1]
  exact ⟨p, q, hp, hq, hlast.1, hlast.2, locked_address_stays hp hr rfl hq⟩

end Anypay.Addresses
