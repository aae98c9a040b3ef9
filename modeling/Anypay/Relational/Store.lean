/-
Anypay.Relational.Store — a database of several models whose rows refer to one
another, and the runs that write to it.

A `Db` holds the rows of each model; its field says that the ids of a model
are distinct. It changes by a `Change` only: one row created, updated or
deleted, the whole row before and after. `Run α` is what one transaction does:
it reads the database, may refuse, and otherwise ends with the changes it made,
in order. Its field says that every change it logs is one it really made: the
row it updates or deletes is there, the id it hands out is free. What a run
leaves is its log applied to what it found (`Db.applyAll`), and a run that
refuses leaves nothing.

`insert`, `alter` and `remove` are the writes, with the checks of the database:
ids and unique columns (`Schema.clash`), foreign keys both ways.
-/
import Mathlib.Data.List.Nodup
import Mathlib.Data.List.Forall2

namespace Anypay.Relational

/-- What is refused. -/
inductive WriteError where
  /-- The request is not of the form asked for. -/
  | invalid
  /-- A row that is named is not there. -/
  | notFound
  /-- Another row has this id, or this value of a unique column. -/
  | unique
  /-- A foreign key would refer to no row. -/
  | foreignKey
  /-- A foreign key that may not be null would become null. -/
  | required
  deriving DecidableEq, Repr

/-- A row: its id, and what its foreign keys hold. -/
class Keyed (ρ : Type) where
  id : ρ → Int
  ref : String → ρ → Option Int
  /-- The row with a foreign key set. -/
  point : String → Int → ρ → ρ
  id_point : ∀ key i r, id (point key i r) = id r

/-- The child's foreign key `key` holds an id of the parent. -/
structure Relation (μ : Type) where
  parent : μ
  child : μ
  key : String
  /-- A new id of the parent's is passed on to its children. -/
  cascade : Bool := false
  deriving DecidableEq

structure Schema (μ ρ : Type) where
  relations : List (Relation μ)
  /-- A new row before anything is written to it: its id and the defaults. -/
  blank : μ → Int → ρ
  /-- Two rows have the same value in a unique column. -/
  clash : μ → ρ → ρ → Bool

/-- The ids in use. -/
def ids {ρ : Type} [Keyed ρ] (rows : List ρ) : List Int := rows.map Keyed.id

structure Db (μ ρ : Type) [Keyed ρ] where
  rows : μ → List ρ
  /-- The next id the model's sequence hands out. -/
  next : μ → Int := fun _ => 1
  id_nodup : ∀ m, (ids (rows m)).Nodup

/-- One row written. -/
inductive Change (μ ρ : Type) where
  | created (m : μ) (r : ρ)
  | updated (m : μ) (r r' : ρ)
  | deleted (m : μ) (r : ρ)

variable {μ ρ : Type} [Keyed ρ]

/-- The row with the given id. -/
def Db.byId (db : Db μ ρ) (m : μ) (i : Int) : Option ρ :=
  (db.rows m).find? fun r => Keyed.id r = i

theorem Db.byId_some {db : Db μ ρ} {m : μ} {i : Int} {r : ρ} (h : db.byId m i = some r) :
    r ∈ db.rows m ∧ Keyed.id r = i :=
  ⟨List.mem_of_find?_eq_some h, by simpa using List.find?_some h⟩

theorem Db.eq_of_id (db : Db μ ρ) {m : μ} {r r' : ρ} (hr : r ∈ db.rows m)
    (hr' : r' ∈ db.rows m) (h : Keyed.id r = Keyed.id r') : r = r' :=
  List.inj_on_of_nodup_map (db.id_nodup m) hr hr' h

theorem Db.byId_of_mem (db : Db μ ρ) {m : μ} {r : ρ} (hr : r ∈ db.rows m) :
    db.byId m (Keyed.id r) = some r := by
  cases h : db.byId m (Keyed.id r) with
  | none => simpa using List.find?_eq_none.mp h r hr
  | some x =>
      obtain ⟨hx, hid⟩ := byId_some h
      rw [db.eq_of_id hx hr hid]

/-! ## What a change makes of the database -/

def Change.model : Change μ ρ → μ
  | created m _ => m
  | updated m _ _ => m
  | deleted m _ => m

/-- The row of one id replaced. -/
def replace (i : Int) (r' : ρ) (rows : List ρ) : List ρ :=
  rows.map fun x => if Keyed.id x = i then r' else x

/-- The rows of the change's model after it. A change that would give an id
twice makes none. -/
def Change.after (rows : List ρ) : Change μ ρ → List ρ
  | created _ r => if Keyed.id r ∈ ids rows then rows else rows ++ [r]
  | updated _ r r' =>
      if Keyed.id r' ≠ Keyed.id r ∧ Keyed.id r' ∈ ids rows then rows
      else replace (Keyed.id r) r' rows
  | deleted _ r => rows.filter fun x => Keyed.id x ≠ Keyed.id r

theorem nodup_replace {rows : List ρ} {i : Int} {r' : ρ} (h : (ids rows).Nodup)
    (hfree : Keyed.id r' = i ∨ Keyed.id r' ∉ ids rows) : (ids (replace i r' rows)).Nodup := by
  induction rows with
  | nil => exact h
  | cons x rows ih =>
      obtain ⟨hx, hrows⟩ := List.nodup_cons.mp h
      have htail : Keyed.id r' = i ∨ Keyed.id r' ∉ ids rows :=
        hfree.imp_right fun hout hin => hout (List.mem_cons_of_mem _ hin)
      refine List.nodup_cons.mpr ⟨fun hmem => ?_, ih hrows htail⟩
      obtain ⟨y', hy', hid⟩ := List.mem_map.mp hmem
      obtain ⟨y, hy, rfl⟩ := List.mem_map.mp hy'
      have hyx : Keyed.id y ≠ Keyed.id x := fun he => hx (he ▸ List.mem_map_of_mem hy)
      simp only at hid
      split at hid <;> split at hid
      · rename_i hyi hxi
        exact hyx (hyi.trans hxi.symm)
      · rename_i hyi hxi
        rcases hfree with hsame | hout
        · exact hxi (hid.symm.trans hsame)
        · exact hout (hid ▸ List.mem_cons_self)
      · rename_i hyi hxi
        rcases hfree with hsame | hout
        · exact hyi (hid.trans hsame)
        · exact hout (hid ▸ List.mem_cons_of_mem _ (List.mem_map_of_mem hy))
      · exact hyx hid

theorem Change.nodup_after (c : Change μ ρ) {rows : List ρ} (h : (ids rows).Nodup) :
    (ids (c.after rows)).Nodup := by
  cases c with
  | created m r =>
      simp only [after]
      split
      · exact h
      · rename_i hfree
        rw [ids, List.map_append, List.map_singleton, ← List.concat_eq_append]
        exact h.concat hfree
  | updated m r r' =>
      simp only [after]
      split
      · exact h
      · rename_i hfree
        exact nodup_replace h (by tauto)
  | deleted m r => exact h.sublist (List.Sublist.map _ List.filter_sublist)

variable [DecidableEq μ]

def Db.apply (db : Db μ ρ) (c : Change μ ρ) : Db μ ρ where
  rows m := if m = c.model then c.after (db.rows m) else db.rows m
  next m :=
    match c with
    | .created m' r =>
        -- an id given by hand leaves the sequence where it is
        if m = m' ∧ Keyed.id r = db.next m then db.next m + 1 else db.next m
    | _ => db.next m
  id_nodup m := by
    split
    · exact c.nodup_after (db.id_nodup m)
    · exact db.id_nodup m

def Db.applyAll (db : Db μ ρ) (log : List (Change μ ρ)) : Db μ ρ := log.foldl Db.apply db

@[simp] theorem Db.applyAll_nil (db : Db μ ρ) : db.applyAll [] = db := rfl

@[simp] theorem Db.applyAll_cons (db : Db μ ρ) (c : Change μ ρ) (log : List (Change μ ρ)) :
    db.applyAll (c :: log) = (db.apply c).applyAll log := rfl

@[simp] theorem Db.applyAll_append (db : Db μ ρ) (log log' : List (Change μ ρ)) :
    db.applyAll (log ++ log') = (db.applyAll log).applyAll log' := List.foldl_append

/-! ## Runs -/

/-- The change can be made. -/
def Change.Applies (db : Db μ ρ) : Change μ ρ → Prop
  | created m r => Keyed.id r ∉ ids (db.rows m)
  | updated m r r' =>
      r ∈ db.rows m ∧ (Keyed.id r' = Keyed.id r ∨ Keyed.id r' ∉ ids (db.rows m))
  | deleted m r => r ∈ db.rows m

/-- Each change can be made after those before it. -/
def Recorded (db : Db μ ρ) : List (Change μ ρ) → Prop
  | [] => True
  | c :: log => c.Applies db ∧ Recorded (db.apply c) log

theorem Recorded.append {db : Db μ ρ} {log log' : List (Change μ ρ)} (h : Recorded db log)
    (h' : Recorded (db.applyAll log) log') : Recorded db (log ++ log') := by
  induction log generalizing db with
  | nil => exact h'
  | cons c log ih => exact ⟨h.1, ih h.2 h'⟩

structure Run (μ ρ : Type) [DecidableEq μ] [Keyed ρ] (α : Type) where
  exec : Db μ ρ → Except WriteError (α × List (Change μ ρ))
  recorded : ∀ db a log, exec db = .ok (a, log) → Recorded db log

namespace Run

variable {α β : Type}

protected def pure (a : α) : Run μ ρ α where
  exec _ := .ok (a, [])
  recorded db b log h := by
    obtain ⟨rfl, rfl⟩ := Prod.mk.inj (Except.ok.inj h)
    trivial

/-- The second run starts from what the first left. -/
def andThen (x : Run μ ρ α) (f : α → Run μ ρ β) (db : Db μ ρ) :
    Except WriteError (β × List (Change μ ρ)) :=
  match x.exec db with
  | .error e => .error e
  | .ok (a, log) =>
      match (f a).exec (db.applyAll log) with
      | .error e => .error e
      | .ok (b, log') => .ok (b, log ++ log')

theorem andThen_ok {x : Run μ ρ α} {f : α → Run μ ρ β} {db : Db μ ρ} {b : β}
    {log : List (Change μ ρ)} (h : andThen x f db = .ok (b, log)) :
    ∃ a log₁ log₂, x.exec db = .ok (a, log₁) ∧
      (f a).exec (db.applyAll log₁) = .ok (b, log₂) ∧ log = log₁ ++ log₂ := by
  unfold andThen at h
  split at h
  · cases h
  · rename_i a log₁ hx
    split at h
    · cases h
    · rename_i b' log₂ hf
      obtain ⟨rfl, rfl⟩ := Prod.mk.inj (Except.ok.inj h)
      exact ⟨a, log₁, log₂, hx, hf, rfl⟩

protected def bind (x : Run μ ρ α) (f : α → Run μ ρ β) : Run μ ρ β where
  exec := andThen x f
  recorded db b log h := by
    obtain ⟨a, log₁, log₂, hx, hf, rfl⟩ := andThen_ok h
    exact (x.recorded db a log₁ hx).append ((f a).recorded _ b log₂ hf)

instance : Monad (Run μ ρ) where
  pure := Run.pure
  bind := Run.bind

theorem pure_ok {a b : α} {db : Db μ ρ} {log : List (Change μ ρ)}
    (h : (pure a : Run μ ρ α).exec db = .ok (b, log)) : b = a ∧ log = [] := by
  obtain ⟨rfl, rfl⟩ := Prod.mk.inj (Except.ok.inj h)
  exact ⟨rfl, rfl⟩

theorem bind_ok {x : Run μ ρ α} {f : α → Run μ ρ β} {db : Db μ ρ} {b : β}
    {log : List (Change μ ρ)} (h : (x >>= f).exec db = .ok (b, log)) :
    ∃ a log₁ log₂, x.exec db = .ok (a, log₁) ∧
      (f a).exec (db.applyAll log₁) = .ok (b, log₂) ∧ log = log₁ ++ log₂ := andThen_ok h

/-- What the run reads off the database. -/
def look (f : Db μ ρ → Except WriteError α) : Run μ ρ α where
  exec db := (f db).map fun a => (a, [])
  recorded db a log h := by
    cases hf : f db with
    | error e =>
        rw [hf] at h
        cases h
    | ok b =>
        rw [hf] at h
        obtain ⟨rfl, rfl⟩ := Prod.mk.inj (Except.ok.inj h)
        trivial

theorem look_ok {f : Db μ ρ → Except WriteError α} {db : Db μ ρ} {a : α}
    {log : List (Change μ ρ)} (h : (look f).exec db = .ok (a, log)) :
    f db = .ok a ∧ log = [] := by
  cases hf : f db with
  | error e =>
      simp only [look, hf] at h
      cases h
  | ok b =>
      simp only [look, hf] at h
      obtain ⟨rfl, rfl⟩ := Prod.mk.inj (Except.ok.inj h)
      exact ⟨rfl, rfl⟩

/-- Nothing is done. -/
def refuse (e : WriteError) : Run μ ρ α := look fun _ => .error e

/-- One change, where the database lets it through. -/
def change (f : Db μ ρ → Except WriteError (Change μ ρ))
    (hf : ∀ db c, f db = .ok c → c.Applies db) : Run μ ρ (Change μ ρ) where
  exec db := (f db).map fun c => (c, [c])
  recorded db c log h := by
    cases hc : f db with
    | error e =>
        rw [hc] at h
        cases h
    | ok c' =>
        rw [hc] at h
        obtain ⟨rfl, rfl⟩ := Prod.mk.inj (Except.ok.inj h)
        exact ⟨hf db c' hc, trivial⟩

theorem change_ok {f : Db μ ρ → Except WriteError (Change μ ρ)} {hf} {db : Db μ ρ}
    {c : Change μ ρ} {log : List (Change μ ρ)}
    (h : (change f hf).exec db = .ok (c, log)) : f db = .ok c ∧ log = [c] := by
  cases hc : f db with
  | error e =>
      simp only [change, hc] at h
      cases h
  | ok c' =>
      simp only [change, hc] at h
      obtain ⟨rfl, rfl⟩ := Prod.mk.inj (Except.ok.inj h)
      exact ⟨rfl, rfl⟩

/-- One run for each entry, in order. -/
def forEach (f : β → Run μ ρ Unit) : List β → Run μ ρ Unit
  | [] => pure ()
  | x :: xs => do
      f x
      forEach f xs

end Run

/-! ## The writes -/

section Writes

open Run

variable (S : Schema μ ρ)

/-- Another row than `i` has the id, or the value of a unique column, that `r`
is to have. -/
def taken (db : Db μ ρ) (m : μ) (i : Option Int) (r : ρ) : Bool :=
  (db.rows m).any fun x =>
    decide (some (Keyed.id x) ≠ i) && (decide (Keyed.id x = Keyed.id r) || S.clash m x r)

/-- A foreign key of the row refers to no row. -/
def dangling (db : Db μ ρ) (m : μ) (r : ρ) : Bool :=
  S.relations.any fun rel =>
    decide (rel.child = m) &&
      match Keyed.ref rel.key r with
      | none => false
      | some i => decide (i ∉ ids (db.rows rel.parent))

/-- The rows that refer to `i`. -/
def childrenOf (db : Db μ ρ) (rel : Relation μ) (i : Int) : List ρ :=
  (db.rows rel.child).filter fun c => Keyed.ref rel.key c = some i

/-- A row refers to `i` by one of these relations. -/
def referenced (db : Db μ ρ) (which : Relation μ → Bool) (m : μ) (i : Int) : Bool :=
  S.relations.any fun rel =>
    decide (rel.parent = m) && which rel && !(childrenOf db rel i).isEmpty

omit [DecidableEq μ] in
theorem not_mem_ids_of_taken {db : Db μ ρ} {m : μ} {i : Option Int} {r : ρ}
    (h : taken S db m i r = false) : some (Keyed.id r) = i ∨ Keyed.id r ∉ ids (db.rows m) := by
  by_cases hi : some (Keyed.id r) = i
  · exact .inl hi
  · refine .inr fun hmem => ?_
    obtain ⟨x, hx, hid⟩ := List.mem_map.mp hmem
    have hx' := List.any_eq_false.mp h x hx
    simp [hid, hi] at hx'

/-- `INSERT`. -/
def insert (m : μ) (r : ρ) : Run μ ρ Unit := do
  let _ ← change
    (fun db =>
      if taken S db m none r then .error .unique
      else if dangling S db m r then .error .foreignKey
      else .ok (.created m r))
    (by
      intro db c h
      split at h
      · cases h
      · rename_i hfree
        split at h
        · cases h
        · cases h
          rcases not_mem_ids_of_taken S (by simpa using hfree) with hnone | hout
          · cases hnone
          · exact hout)
  pure ()

/-- What an `UPDATE` of one row logs. -/
def altered (m : μ) (i : Int) (columns : ρ → Except WriteError ρ) (db : Db μ ρ) :
    Except WriteError (Change μ ρ) :=
  match db.byId m i with
  | none => .error .notFound
  | some r =>
      match columns r with
      | .error e => .error e
      | .ok r' =>
          if taken S db m (some i) r' then .error .unique
          else if dangling S db m r' then .error .foreignKey
          else if Keyed.id r' ≠ i ∧ referenced S db (fun rel => !rel.cascade) m i then
            .error .foreignKey
          else .ok (.updated m r r')

theorem altered_ok {m : μ} {i : Int} {columns : ρ → Except WriteError ρ} {db : Db μ ρ}
    {c : Change μ ρ} (h : altered S m i columns db = .ok c) :
    ∃ r r', db.byId m i = some r ∧ columns r = .ok r' ∧ c = .updated m r r' ∧
      taken S db m (some i) r' = false := by
  unfold altered at h
  split at h
  · cases h
  · rename_i r hr
    split at h
    · cases h
    · rename_i r' hr'
      split at h
      · cases h
      · rename_i hfree
        split at h
        · cases h
        · split at h
          · cases h
          · exact ⟨r, r', hr, hr', (Except.ok.inj h).symm, by simpa using hfree⟩

theorem altered_applies {m : μ} {i : Int} {columns : ρ → Except WriteError ρ} (db : Db μ ρ)
    (c : Change μ ρ) (h : altered S m i columns db = .ok c) : c.Applies db := by
  obtain ⟨r, r', hr, -, rfl, hfree⟩ := altered_ok S h
  obtain ⟨hmem, hid⟩ := Db.byId_some hr
  refine ⟨hmem, ?_⟩
  rw [hid]
  exact (not_mem_ids_of_taken S hfree).imp_left Option.some.inj

/-- One child's foreign key follows its parent's new id. -/
def repoint (m : μ) (key : String) (j : Int) (i : Int) : Run μ ρ Unit := do
  let _ ← change
    (fun db =>
      match db.byId m i with
      | none => .error .notFound
      | some r => .ok (.updated m r (Keyed.point key j r)))
    (by
      intro db c h
      split at h
      · cases h
      · rename_i r hr
        cases h
        exact ⟨(Db.byId_some hr).1, .inl (Keyed.id_point key j r)⟩)
  pure ()

/-- `ON UPDATE CASCADE`: what refers to `i` refers to `j`. -/
def cascade (m : μ) (i j : Int) : Run μ ρ Unit :=
  forEach
    (fun rel => do
      let children ← look fun db => .ok (childrenOf db rel i)
      forEach (fun c => repoint rel.child rel.key j (Keyed.id c)) children)
    (S.relations.filter fun rel => decide (rel.parent = m) && rel.cascade)

/-- `UPDATE … WHERE id = i`. It ends with the id the row now has. -/
def alter (m : μ) (i : Int) (columns : ρ → Except WriteError ρ) : Run μ ρ Int := do
  match ← change (altered S m i columns) (altered_applies S) with
  | .updated _ _ r' =>
      if Keyed.id r' = i then pure i
      else do
        cascade S m i (Keyed.id r')
        pure (Keyed.id r')
  | _ => pure i

/-- `DELETE … WHERE id = i`. -/
def remove (m : μ) (i : Int) : Run μ ρ Unit := do
  let _ ← change
    (fun db =>
      match db.byId m i with
      | none => .error .notFound
      | some r =>
          if referenced S db (fun _ => true) m i then .error .foreignKey
          else .ok (.deleted m r))
    (by
      intro db c h
      split at h
      · cases h
      · rename_i r hr
        split at h
        · cases h
        · cases h
          exact (Db.byId_some hr).1)
  pure ()

end Writes

end Anypay.Relational
