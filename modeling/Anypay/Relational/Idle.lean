/-
Anypay.Relational.Idle — when nested writes change nothing they may not.

An `Allowance` says what may become of a row: which updates of a row are
allowed. Creating and deleting rows never is. A run keeps within it when every
change it logs is allowed; the database it leaves then has, model by model and
row by row, what the allowance lets become of the row that was there
(`rows_of_allowed`), even where a later change undoes an earlier one.

`Judges A x I` says that a completed run of `x` keeps within `A` exactly when
`I` held of the database it started from. It has one rule for each construct,
and with them `Data.Idle` is read off the data: its own columns are written as
allowed, and each nested write does nothing more. `judges_update` is the result
for every tree of data, by induction on the tree.
-/
import Anypay.Relational.Writes

namespace Anypay.Relational

/-- What may become of a row. -/
structure Allowance (μ ρ : Type) [Keyed ρ] where
  may : μ → ρ → ρ → Prop
  refl : ∀ m r, may m r r
  trans : ∀ m r r' r'', may m r r' → may m r' r'' → may m r r''
  id_eq : ∀ m r r', may m r r' → Keyed.id r' = Keyed.id r

variable {μ ρ : Type} [Keyed ρ] (A : Allowance μ ρ)

def Change.Allowed : Change μ ρ → Prop
  | updated m r r' => A.may m r r'
  | _ => False

/-- Every change of the log is allowed. -/
def Within (log : List (Change μ ρ)) : Prop := ∀ c ∈ log, c.Allowed A

theorem within_nil : Within A [] := fun _ h => absurd h List.not_mem_nil

theorem within_cons {c : Change μ ρ} {log : List (Change μ ρ)} :
    Within A (c :: log) ↔ c.Allowed A ∧ Within A log := List.forall_mem_cons

theorem within_append {log log' : List (Change μ ρ)} :
    Within A (log ++ log') ↔ Within A log ∧ Within A log' := List.forall_mem_append

/-! ## What is left -/

variable {A}

theorem forall₂_replace {m : μ} {rows : List ρ} {r r' : ρ} (hmay : A.may m r r')
    (honly : ∀ x ∈ rows, Keyed.id x = Keyed.id r → x = r) :
    List.Forall₂ (A.may m) rows (replace (Keyed.id r) r' rows) := by
  induction rows with
  | nil => exact .nil
  | cons x rows ih =>
      have htail := ih fun y hy => honly y (List.mem_cons_of_mem _ hy)
      refine .cons ?_ htail
      show A.may m x (if Keyed.id x = Keyed.id r then r' else x)
      split
      · rename_i hid
        rw [honly x List.mem_cons_self hid]
        exact hmay
      · exact A.refl m x

theorem forall₂_trans {m : μ} {xs ys zs : List ρ} (hxy : List.Forall₂ (A.may m) xs ys)
    (hyz : List.Forall₂ (A.may m) ys zs) : List.Forall₂ (A.may m) xs zs := by
  induction hxy generalizing zs with
  | nil => exact hyz
  | cons hhead _ ih =>
      cases hyz with
      | cons hhead' htail' => exact .cons (A.trans m _ _ _ hhead hhead') (ih htail')

variable [DecidableEq μ]

theorem rows_apply {db : Db μ ρ} {c : Change μ ρ} (happlies : c.Applies db)
    (hallowed : c.Allowed A) (m : μ) :
    List.Forall₂ (A.may m) (db.rows m) ((db.apply c).rows m) := by
  cases c with
  | created m' r => exact hallowed.elim
  | deleted m' r => exact hallowed.elim
  | updated m' r r' =>
      have hid : Keyed.id r' = Keyed.id r := A.id_eq m' r r' hallowed
      show List.Forall₂ (A.may m) (db.rows m)
        (if m = m' then Change.after (db.rows m) (.updated m' r r') else db.rows m)
      split
      · rename_i hm
        subst hm
        simp only [Change.after, hid, ne_eq, not_true, false_and, if_false]
        exact forall₂_replace hallowed fun x hx he => db.eq_of_id hx happlies.1 he
      · exact List.forall₂_same.mpr fun x _ => A.refl m x

/-- Each row is one that was there, or what was allowed to become of it. -/
theorem rows_of_allowed {db : Db μ ρ} {log : List (Change μ ρ)} (hrecorded : Recorded db log)
    (hlog : Within A log) (m : μ) :
    List.Forall₂ (A.may m) (db.rows m) ((db.applyAll log).rows m) := by
  induction log generalizing db with
  | nil => exact List.forall₂_same.mpr fun x _ => A.refl m x
  | cons c log ih =>
      obtain ⟨hc, hrest⟩ := (within_cons A).mp hlog
      have hfirst := rows_apply hrecorded.1 hc m
      have hlater := ih hrecorded.2 hrest
      exact forall₂_trans hfirst hlater

/-! ## The rules -/

open Run

variable {α β : Type}

variable (A) in
/-- A completed run of `x` keeps within `A` exactly when `I` held at its start. -/
def Judges (x : Run μ ρ α) (I : Db μ ρ → Prop) : Prop :=
  ∀ db a log, x.exec db = .ok (a, log) → (Within A log ↔ I db)

/-- `P` holds of what a completed run of `x` ends with, and of what it leaves. -/
def After (x : Run μ ρ α) (db : Db μ ρ) (P : α → Db μ ρ → Prop) : Prop :=
  ∀ a log, x.exec db = .ok (a, log) → P a (db.applyAll log)

theorem after_iff {x : Run μ ρ α} {db : Db μ ρ} {P : α → Db μ ρ → Prop} {a : α}
    {log : List (Change μ ρ)} (h : x.exec db = .ok (a, log)) :
    After x db P ↔ P a (db.applyAll log) := by
  constructor
  · intro hafter
    exact hafter a log h
  · intro hp a' log' h'
    rw [h] at h'
    obtain ⟨rfl, rfl⟩ := Prod.mk.inj (Except.ok.inj h')
    exact hp

theorem judges_pure (a : α) : Judges A (pure a) fun _ => True := by
  intro db b log h
  obtain ⟨-, rfl⟩ := pure_ok h
  exact iff_of_true (within_nil A) trivial

theorem judges_bind {x : Run μ ρ α} {f : α → Run μ ρ β} {I : Db μ ρ → Prop}
    {J : α → Db μ ρ → Prop} (hx : Judges A x I) (hf : ∀ a, Judges A (f a) (J a)) :
    Judges A (x >>= f) fun db => I db ∧ After x db J := by
  intro db b log h
  obtain ⟨a, log₁, log₂, hx', hf', rfl⟩ := bind_ok h
  show _ ↔ I db ∧ After x db J
  rw [within_append, hx db a log₁ hx', hf a _ b log₂ hf', after_iff hx']

/-- Reading changes nothing: only what is read matters. -/
theorem judges_look_bind {g : Db μ ρ → Except WriteError α} {f : α → Run μ ρ β}
    {J : α → Db μ ρ → Prop} (hf : ∀ a, Judges A (f a) (J a)) :
    Judges A (look g >>= f) fun db => ∀ a, g db = .ok a → J a db := by
  intro db b log h
  obtain ⟨a, log₁, log₂, hx, hf', rfl⟩ := bind_ok h
  obtain ⟨ha, rfl⟩ := look_ok hx
  rw [List.nil_append, hf a _ b log₂ hf']
  constructor
  · intro hj a' ha'
    rw [ha] at ha'
    obtain rfl := Except.ok.inj ha'
    exact hj
  · intro hj
    exact hj a ha

theorem judges_congr {x : Run μ ρ α} {I J : Db μ ρ → Prop} (hx : Judges A x I)
    (h : ∀ db, I db ↔ J db) : Judges A x J := fun db a log hexec =>
  (hx db a log hexec).trans (h db)

/-- A run that never completes is judged by anything. -/
theorem judges_refuse (e : WriteError) (I : Db μ ρ → Prop) :
    Judges A (refuse e : Run μ ρ α) I := by
  intro db a log h
  cases h

/-- A run all of whose logs hold a change that is not allowed. -/
theorem judges_never {x : Run μ ρ α}
    (h : ∀ db a log, x.exec db = .ok (a, log) → ∃ c ∈ log, ¬ c.Allowed A) :
    Judges A x fun _ => False := by
  intro db a log hexec
  obtain ⟨c, hc, hnot⟩ := h db a log hexec
  exact iff_of_false (fun hlog => hnot (hlog c hc)) not_false

theorem not_within_bind_left {x : Run μ ρ α} {f : α → Run μ ρ β}
    (h : ∀ db a log, x.exec db = .ok (a, log) → ∃ c ∈ log, ¬ c.Allowed A) :
    ∀ db b log, (x >>= f).exec db = .ok (b, log) → ∃ c ∈ log, ¬ c.Allowed A := by
  intro db b log hexec
  obtain ⟨a, log₁, log₂, hx, -, rfl⟩ := bind_ok hexec
  obtain ⟨c, hc, hnot⟩ := h db a log₁ hx
  exact ⟨c, List.mem_append_left _ hc, hnot⟩

theorem not_within_bind_right {x : Run μ ρ α} {f : α → Run μ ρ β}
    (h : ∀ a db b log, (f a).exec db = .ok (b, log) → ∃ c ∈ log, ¬ c.Allowed A) :
    ∀ db b log, (x >>= f).exec db = .ok (b, log) → ∃ c ∈ log, ¬ c.Allowed A := by
  intro db b log hexec
  obtain ⟨a, log₁, log₂, -, hf, rfl⟩ := bind_ok hexec
  obtain ⟨c, hc, hnot⟩ := h a _ b log₂ hf
  exact ⟨c, List.mem_append_right _ hc, hnot⟩

/-! ## The writes -/

variable (S : Schema μ ρ)

theorem insert_not_within (m : μ) (r : ρ) :
    ∀ db a log, (insert S m r).exec db = .ok (a, log) → ∃ c ∈ log, ¬ c.Allowed A := by
  apply not_within_bind_left
  intro db c log h
  obtain ⟨hc, rfl⟩ := change_ok h
  refine ⟨c, List.mem_singleton_self c, ?_⟩
  split at hc
  · cases hc
  · split at hc
    · cases hc
    · cases hc
      exact not_false

theorem remove_not_within (m : μ) (i : Int) :
    ∀ db a log, (remove S m i).exec db = .ok (a, log) → ∃ c ∈ log, ¬ c.Allowed A := by
  apply not_within_bind_left
  intro db c log h
  obtain ⟨hc, rfl⟩ := change_ok h
  refine ⟨c, List.mem_singleton_self c, ?_⟩
  split at hc
  · cases hc
  · split at hc
    · cases hc
    · cases hc
      exact not_false

theorem create_not_within (m : μ) (preset : ρ → ρ) (data : Data μ ρ) :
    ∀ db a log, (data.create S m preset).exec db = .ok (a, log) → ∃ c ∈ log, ¬ c.Allowed A := by
  obtain ⟨columns, nested⟩ := data
  unfold Data.create
  apply not_within_bind_right
  intro r
  apply not_within_bind_right
  intro r
  exact not_within_bind_left (insert_not_within S m r)

variable {S} in
/-- An update logs the row before and after it, then what follows a new id. -/
theorem alter_ok {m : μ} {i j : Int} {columns : ρ → Except WriteError ρ} {db : Db μ ρ}
    {log : List (Change μ ρ)} (h : (alter S m i columns).exec db = .ok (j, log)) :
    ∃ r r' rest, db.byId m i = some r ∧ columns r = .ok r' ∧
      log = .updated m r r' :: rest ∧ j = Keyed.id r' ∧ (Keyed.id r' = i → rest = []) := by
  obtain ⟨c, log₁, log₂, hc, hrest, rfl⟩ := bind_ok h
  obtain ⟨haltered, rfl⟩ := change_ok hc
  obtain ⟨r, r', hr, hr', rfl, -⟩ := altered_ok S haltered
  refine ⟨r, r', log₂, hr, hr', rfl, ?_⟩
  simp only at hrest
  split at hrest
  · rename_i hid
    obtain ⟨rfl, rfl⟩ := pure_ok hrest
    exact ⟨hid.symm, fun _ => rfl⟩
  · rename_i hid
    obtain ⟨_, _, log₃, _, hj, -⟩ := bind_ok hrest
    exact ⟨(pure_ok hj).1, fun he => absurd he hid⟩

/-- What is written to the row is allowed. -/
def Allowance.Writes (A : Allowance μ ρ) (m : μ) (i : Int)
    (columns : ρ → Except WriteError ρ) (db : Db μ ρ) : Prop :=
  ∀ r r', db.byId m i = some r → columns r = .ok r' → A.may m r r'

omit [DecidableEq μ] in
theorem within_alter {m : μ} {i : Int} {r r' : ρ} {db : Db μ ρ} {rest : List (Change μ ρ)}
    (hr : db.byId m i = some r) (hrest : Keyed.id r' = i → rest = []) :
    Within A (.updated m r r' :: rest) ↔ A.may m r r' := by
  rw [within_cons]
  constructor
  · intro h
    exact h.1
  · intro hmay
    have hid : Keyed.id r' = i := (A.id_eq m r r' hmay).trans (Db.byId_some hr).2
    rw [hrest hid]
    exact ⟨hmay, within_nil A⟩

theorem judges_alter (m : μ) (i : Int) (columns : ρ → Except WriteError ρ) :
    Judges A (alter S m i columns) (A.Writes m i columns) := by
  intro db j log h
  obtain ⟨r, r', rest, hr, hr', rfl, -, hrest⟩ := alter_ok h
  rw [within_alter hr hrest]
  constructor
  · intro hmay x x' hx hx'
    rw [hr] at hx
    obtain rfl := Option.some.inj hx
    rw [hr'] at hx'
    obtain rfl := Except.ok.inj hx'
    exact hmay
  · intro hwrites
    exact hwrites r r' hr hr'

/-- The updates of distinct rows do not see one another. -/
theorem within_alterAll {m : μ} {columns : ρ → Except WriteError ρ} {rs : List ρ}
    {db : Db μ ρ} {a : Unit} {log : List (Change μ ρ)}
    (hmem : ∀ r ∈ rs, r ∈ db.rows m) (hnodup : (ids rs).Nodup)
    (h : (alterAll S m columns rs).exec db = .ok (a, log)) :
    Within A log ↔ ∀ r ∈ rs, ∀ r', columns r = .ok r' → A.may m r r' := by
  induction rs generalizing db a log with
  | nil =>
      obtain ⟨-, rfl⟩ := pure_ok h
      exact iff_of_true (within_nil A) fun r hr => absurd hr List.not_mem_nil
  | cons x rs ih =>
      obtain ⟨hx, hrs⟩ := List.nodup_cons.mp hnodup
      obtain ⟨_, log₁, log₂, hfirst, hlater, rfl⟩ := bind_ok h
      obtain ⟨_, log₃, log₄, halter, hunit, rfl⟩ := bind_ok hfirst
      obtain ⟨-, rfl⟩ := pure_ok hunit
      obtain ⟨r, r', rest, hr, hr', rfl, -, hrest⟩ := alter_ok halter
      have hxr : x = r :=
        Option.some.inj ((db.byId_of_mem (hmem x List.mem_cons_self)).symm.trans hr)
      subst hxr
      rw [List.append_nil, within_append, within_alter hr hrest, List.forall_mem_cons]
      have hhead : (∀ y, columns x = .ok y → A.may m x y) ↔ A.may m x r' := by
        rw [hr']
        exact ⟨fun hall => hall r' rfl, fun hmay y hy => Except.ok.inj hy ▸ hmay⟩
      rw [hhead]
      refine and_congr_right fun hmay => ?_
      have hid : Keyed.id r' = Keyed.id x := A.id_eq m x r' hmay
      rw [hrest hid] at hlater
      refine ih ?_ hrs hlater
      intro y hy
      have hne : Keyed.id y ≠ Keyed.id x := fun he => hx (he ▸ List.mem_map_of_mem hy)
      have hold : y ∈ db.rows m := hmem y (List.mem_cons_of_mem _ hy)
      simp only [List.append_nil, Db.applyAll_cons, Db.applyAll_nil, Db.apply, Change.model,
        if_true, Change.after, hid, ne_eq, not_true, false_and, if_false]
      exact List.mem_map.mpr ⟨y, hold, if_neg hne⟩

/-! ## Nested writes that do nothing more -/

/-- Relating the row writes what is allowed. -/
def Scope.Attaches (A : Allowance μ ρ) (scope : Scope μ) (r : ρ) (db : Db μ ρ) : Prop :=
  match scope with
  | .many rel p => A.Writes rel.child (Keyed.id r) (fun c => .ok (Keyed.point rel.key p c)) db
  | .one rel i => A.Writes rel.child i (fun c => .ok (Keyed.point rel.key (Keyed.id r) c)) db

section Idle

variable (A)

mutual

/-- The columns are written as allowed and the nested writes do nothing more. -/
def Data.Idle (m : μ) (i : Int) : Data μ ρ → Db μ ρ → Prop
  | .mk columns nested => fun db =>
      A.Writes m i columns db ∧
        After (alter S m i columns) db fun i db => nested.Idle i db

def Nested.Idle (i : Int) : Nested μ ρ → Db μ ρ → Prop
  | .done => fun _ => True
  | .many rel writes rest => fun db =>
      writes.Idle (.many rel i) db ∧
        After (writes.write S (.many rel i)) db fun _ db => rest.Idle i db
  | .one rel writes rest => fun db =>
      writes.Idle (.one rel i) db ∧
        After (writes.write S (.one rel i)) db fun _ db => rest.Idle i db

def Writes.Idle (scope : Scope μ) : Writes μ ρ → Db μ ρ → Prop
  | .done => fun _ => True
  | .next op rest => fun db =>
      op.Idle scope db ∧ After (op.write S scope) db fun _ db => rest.Idle scope db

/-- Nothing is created or deleted, a row that is connected is related already, a
row that is updated has the values already: all of it up to what is allowed. -/
def Op.Idle (scope : Scope μ) : Op μ ρ → Db μ ρ → Prop
  | .create _ => fun _ => False
  | .createRow skipDuplicates columns => fun db =>
      ∀ r, columns (scope.preset (S.blank scope.model (db.next scope.model))) = .ok r →
        skipDuplicates = true ∧ taken S db scope.model none r = true
  | .connect where_ => fun db => ∀ r, db.find scope.model where_ = some r → scope.Attaches A r db
  | .connectOrCreate where_ _ => fun db =>
      ∃ r, db.find scope.model where_ = some r ∧ scope.Attaches A r db
  | .update where_ data => fun db =>
      ∀ r, (db.related scope where_).head? = some r → data.Idle scope.model (Keyed.id r) db
  | .updateMany where_ columns => fun db =>
      ∀ r ∈ db.related scope where_, ∀ r', columns r = .ok r' → A.may scope.model r r'
  | .upsert where_ update _ => fun db =>
      ∃ r, (db.related scope where_).head? = some r ∧
        update.Idle scope.model (Keyed.id r) db
  | .delete _ => fun _ => False
  | .deleteMany where_ => fun db => db.related scope where_ = []
  | .set where_ => fun db =>
      ∀ r ∈ db.unrelated scope where_, A.may scope.model r (scope.preset r)

end

end Idle

omit [Keyed ρ] in
theorem required_ok {r : Option ρ} {x : ρ} : required r = .ok x ↔ r = some x := by
  cases r <;> simp [required]

variable {S}

theorem judges_attach (scope : Scope μ) (r : ρ) :
    Judges A (scope.attach S r) (scope.Attaches A r) := by
  have hunit : ∀ {I : Db μ ρ → Prop} {x : Run μ ρ Int}, Judges A x I →
      Judges A (x >>= fun _ => (pure () : Run μ ρ Unit)) I := fun hx =>
    judges_congr (judges_bind hx fun _ => judges_pure ())
      fun db => and_iff_left fun _ _ _ => trivial
  cases scope with
  | many rel p => exact hunit (judges_alter S _ _ _)
  | one rel i => exact hunit (judges_alter S _ _ _)

/-- A row that is looked up and need not be there. -/
theorem judges_found {g : Db μ ρ → Option ρ} {f : ρ → Run μ ρ α} {x : Run μ ρ α}
    {J : ρ → Db μ ρ → Prop} (hf : ∀ r, Judges A (f r) (J r)) (hx : Judges A x fun _ => False) :
    Judges A (look (fun db => .ok (g db)) >>= fun o =>
        match o with
        | some r => f r
        | none => x)
      fun db => ∃ r, g db = some r ∧ J r db := by
  have hcases : ∀ o : Option ρ, Judges A
      (match o with
        | some r => f r
        | none => x)
      fun db => ∃ r, o = some r ∧ J r db := by
    intro o
    cases o with
    | none => exact judges_congr hx fun db => by simp
    | some r => exact judges_congr (hf r) fun db => by simp
  exact judges_congr (judges_look_bind hcases) fun db => by simp

/-- A row that is looked up and has to be there. -/
theorem judges_required {g : Db μ ρ → Option ρ} {f : ρ → Run μ ρ α}
    {J : ρ → Db μ ρ → Prop} (hf : ∀ r, Judges A (f r) (J r)) :
    Judges A (look (fun db => required (g db)) >>= f) fun db => ∀ r, g db = some r → J r db :=
  judges_congr (judges_look_bind hf) fun db => by simp only [required_ok]

theorem judges_created {f : ρ → Run μ ρ α} (m : μ) (preset : ρ → ρ) (data : Data μ ρ) :
    Judges A (data.create S m preset >>= f) fun _ => False :=
  judges_never (not_within_bind_left (create_not_within S m preset data))

theorem judges_updateMany (scope : Scope μ) (columns : ρ → Except WriteError ρ)
    (found : Db μ ρ → List ρ) (hfound : ∀ db, (found db).Sublist (db.rows scope.model)) :
    Judges A (look (fun db => .ok (found db)) >>= fun rs => alterAll S scope.model columns rs)
      fun db => ∀ r ∈ found db, ∀ r', columns r = .ok r' → A.may scope.model r r' := by
  intro db a log h
  obtain ⟨rs, log₁, log₂, hrs, hrest, rfl⟩ := bind_ok h
  obtain ⟨hfirst, rfl⟩ := look_ok hrs
  obtain rfl := Except.ok.inj hfirst
  have hsub := hfound db
  exact within_alterAll S (fun r hr => hsub.subset hr)
    ((db.id_nodup scope.model).sublist (hsub.map _)) hrest

theorem judges_set (scope : Scope μ) (where_ : ρ → Bool) (out : List ρ) :
    Judges A
      (if out.isEmpty then do
        let rs ← look fun db => .ok (db.unrelated scope where_)
        alterAll S scope.model (fun r => .ok (scope.preset r)) rs
      else refuse .required)
      fun db => ∀ r ∈ db.unrelated scope where_, A.may scope.model r (scope.preset r) := by
  split
  · have hrows := judges_updateMany (A := A) (S := S) scope (fun r => .ok (scope.preset r))
      (fun db => db.unrelated scope where_) fun db => List.filter_sublist
    exact judges_congr hrows fun db => by simp
  · exact judges_refuse .required _

/-- A bulk insert passes over a row whose place is taken. -/
theorem judges_unless_taken (m : μ) (skipDuplicates : Bool) (r : ρ) :
    Judges A
      (do
        let duplicate ← look fun db => .ok (taken S db m none r)
        if skipDuplicates && duplicate then pure () else insert S m r)
      fun db => skipDuplicates = true ∧ taken S db m none r = true := by
  have hcases : ∀ duplicate : Bool, Judges A
      (if skipDuplicates && duplicate then pure () else insert S m r)
      fun _ => skipDuplicates = true ∧ duplicate = true := by
    intro duplicate
    split
    · rename_i hskip
      exact judges_congr (judges_pure ()) fun _ => by simpa using hskip
    · rename_i hskip
      exact judges_congr (judges_never (insert_not_within S m r)) fun _ => by simpa using hskip
  exact judges_congr (judges_look_bind hcases) fun db => by simp

theorem judges_forEach_remove (m : μ) (rs : List ρ) :
    Judges A (forEach (fun r => remove S m (Keyed.id r)) rs) fun _ => rs = [] := by
  cases rs with
  | nil => exact judges_congr (judges_pure ()) fun _ => by simp
  | cons r rs =>
      exact judges_congr (judges_never (not_within_bind_left (remove_not_within S m _)))
        fun _ => by simp

mutual

/-- Written data keeps within the allowance exactly when it is idle. -/
theorem judges_update (m : μ) (i : Int) (data : Data μ ρ) :
    Judges A (data.update S m i) (data.Idle A S m i) := by
  obtain ⟨columns, nested⟩ := data
  unfold Data.update Data.Idle
  exact judges_bind (judges_alter S m i columns) fun i => judges_nested i nested

theorem judges_nested (i : Int) (nested : Nested μ ρ) :
    Judges A (nested.write S i) (nested.Idle A S i) := by
  cases nested with
  | done => exact judges_pure ()
  | many rel writes rest =>
      unfold Nested.write Nested.Idle
      exact judges_bind (judges_writes _ writes) fun _ => judges_nested i rest
  | one rel writes rest =>
      unfold Nested.write Nested.Idle
      exact judges_bind (judges_writes _ writes) fun _ => judges_nested i rest

theorem judges_writes (scope : Scope μ) (writes : Writes μ ρ) :
    Judges A (writes.write S scope) (writes.Idle A S scope) := by
  cases writes with
  | done => exact judges_pure ()
  | next op rest =>
      unfold Writes.write Writes.Idle
      exact judges_bind (judges_op scope op) fun _ => judges_writes scope rest

theorem judges_op (scope : Scope μ) (op : Op μ ρ) :
    Judges A (op.write S scope) (op.Idle A S scope) := by
  cases op with
  | create data =>
      unfold Op.write Op.Idle
      exact judges_created _ _ data
  | createRow skipDuplicates columns =>
      unfold Op.write Op.Idle
      exact judges_look_bind fun r => judges_unless_taken scope.model skipDuplicates r
  | connect where_ =>
      unfold Op.write Op.Idle
      exact judges_required fun r => judges_attach scope r
  | connectOrCreate where_ data =>
      unfold Op.write Op.Idle
      exact judges_found (fun r => judges_attach scope r) (judges_created _ _ data)
  | update where_ data =>
      unfold Op.write Op.Idle
      exact judges_required fun r => judges_update _ _ data
  | updateMany where_ columns =>
      unfold Op.write Op.Idle
      exact judges_updateMany scope columns _ fun db => List.filter_sublist
  | upsert where_ update create =>
      unfold Op.write Op.Idle
      exact judges_found (fun r => judges_update _ _ update) (judges_created _ _ create)
  | delete where_ =>
      unfold Op.write Op.Idle
      refine judges_never (not_within_bind_right fun r => remove_not_within S _ _)
  | deleteMany where_ =>
      unfold Op.write Op.Idle
      exact judges_congr (judges_look_bind fun rs => judges_forEach_remove _ rs)
        fun db => by simp
  | set where_ =>
      unfold Op.write Op.Idle
      exact judges_congr (judges_look_bind fun out => judges_set scope where_ out)
        fun db => by simp

end

end Anypay.Relational
