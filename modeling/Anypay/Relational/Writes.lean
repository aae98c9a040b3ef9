/-
Anypay.Relational.Writes — nested writes: what an object-relational client does
with one tree of data.

`Data` is what is asked of one row: what becomes of its own columns, then, for
each relation that is named, the writes (`Op`) on the rows it is related to,
which carry `Data` of their own and so on to any depth. A relation is followed
from its parent to the children (`Nested.many`) or from a child to its parent
(`Nested.one`). `Data.update` and `Data.create` say what all of it does, as one
run: the first refusal anywhere leaves everything as it was.

The operations are those of a relational client: `create`, `connect` (an
existing row), `connectOrCreate`, `update`, `updateMany`, `upsert`, `delete`,
`deleteMany`, `set` (exactly these rows) and the bulk insert `createRow`. All
but `create`, `connect`, `connectOrCreate` and `createRow` look only at the
rows that are related already (`Scope.holds`).
-/
import Anypay.Relational.Store

namespace Anypay.Relational

mutual

inductive Data (μ ρ : Type) where
  | mk (columns : ρ → Except WriteError ρ) (nested : Nested μ ρ)

/-- The relations named in one row's data. -/
inductive Nested (μ ρ : Type) where
  | done
  | many (rel : Relation μ) (writes : Writes μ ρ) (rest : Nested μ ρ)
  | one (rel : Relation μ) (writes : Writes μ ρ) (rest : Nested μ ρ)

inductive Writes (μ ρ : Type) where
  | done
  | next (op : Op μ ρ) (rest : Writes μ ρ)

inductive Op (μ ρ : Type) where
  | create (data : Data μ ρ)
  | createRow (skipDuplicates : Bool) (columns : ρ → Except WriteError ρ)
  | connect (where_ : ρ → Bool)
  | connectOrCreate (where_ : ρ → Bool) (data : Data μ ρ)
  | update (where_ : ρ → Bool) (data : Data μ ρ)
  | updateMany (where_ : ρ → Bool) (columns : ρ → Except WriteError ρ)
  | upsert (where_ : ρ → Bool) (update create : Data μ ρ)
  | delete (where_ : ρ → Bool)
  | deleteMany (where_ : ρ → Bool)
  | set (where_ : ρ → Bool)

end

/-- From which row, and which way, a relation is followed. -/
inductive Scope (μ : Type) where
  | many (rel : Relation μ) (parent : Int)
  | one (rel : Relation μ) (child : Int)

variable {μ ρ : Type} [Keyed ρ]

namespace Scope

/-- The model of the rows on the far side. -/
def model : Scope μ → μ
  | many rel _ => rel.child
  | one rel _ => rel.parent

/-- The row is related already. -/
def holds (db : Db μ ρ) : Scope μ → ρ → Bool
  | many rel p, r => decide (Keyed.ref rel.key r = some p)
  | one rel i, r =>
      match db.byId rel.child i with
      | none => false
      | some c => decide (Keyed.ref rel.key c = some (Keyed.id r))

/-- What a row created there starts with. -/
def preset : Scope μ → ρ → ρ
  | many rel p, r => Keyed.point rel.key p r
  | one _ _, r => r

end Scope

/-- The first row of the model that the test accepts. -/
def Db.find (db : Db μ ρ) (m : μ) (where_ : ρ → Bool) : Option ρ := (db.rows m).find? where_

/-- The related rows that the test accepts. -/
def Db.related (db : Db μ ρ) (scope : Scope μ) (where_ : ρ → Bool) : List ρ :=
  (db.rows scope.model).filter fun r => scope.holds db r && where_ r

/-- The rows the test accepts that are not related yet. -/
def Db.unrelated (db : Db μ ρ) (scope : Scope μ) (where_ : ρ → Bool) : List ρ :=
  (db.rows scope.model).filter fun r => !scope.holds db r && where_ r

/-- A row that has to be there. -/
def required (r : Option ρ) : Except WriteError ρ :=
  match r with
  | none => .error .notFound
  | some r => .ok r

section Runs

open Run

variable [DecidableEq μ] (S : Schema μ ρ)

/-- The row becomes related. -/
def Scope.attach (scope : Scope μ) (r : ρ) : Run μ ρ Unit := do
  match scope with
  | .many rel p => let _ ← alter S rel.child (Keyed.id r) fun c => .ok (Keyed.point rel.key p c)
  | .one rel i => let _ ← alter S rel.child i fun c => .ok (Keyed.point rel.key (Keyed.id r) c)

/-- A row that was just created becomes related; a child already is. -/
def Scope.adopt (scope : Scope μ) (r : ρ) : Run μ ρ Unit :=
  match scope with
  | .many _ _ => pure ()
  | .one _ _ => scope.attach S r

/-- One `UPDATE` after the other. -/
def alterAll (m : μ) (columns : ρ → Except WriteError ρ) (rs : List ρ) : Run μ ρ Unit :=
  forEach
    (fun r => do
      let _ ← alter S m (Keyed.id r) columns
      pure ())
    rs

mutual

/-- The row with id `i` is written, then what it is related to. -/
def Data.update (m : μ) (i : Int) : Data μ ρ → Run μ ρ Unit
  | .mk columns nested => do
      let i ← alter S m i columns
      nested.write i

def Nested.write (i : Int) : Nested μ ρ → Run μ ρ Unit
  | .done => pure ()
  | .many rel writes rest => do
      writes.write (.many rel i)
      rest.write i
  | .one rel writes rest => do
      writes.write (.one rel i)
      rest.write i

def Writes.write (scope : Scope μ) : Writes μ ρ → Run μ ρ Unit
  | .done => pure ()
  | .next op rest => do
      op.write scope
      rest.write scope

def Op.write (scope : Scope μ) : Op μ ρ → Run μ ρ Unit
  | .create data => do
      let r ← data.create scope.model scope.preset
      scope.adopt S r
  | .createRow skipDuplicates columns => do
      let r ← look fun db => columns (scope.preset (S.blank scope.model (db.next scope.model)))
      let duplicate ← look fun db => .ok (taken S db scope.model none r)
      if skipDuplicates && duplicate then pure () else insert S scope.model r
  | .connect where_ => do
      let r ← look fun db => required (db.find scope.model where_)
      scope.attach S r
  | .connectOrCreate where_ data => do
      match ← look fun db => .ok (db.find scope.model where_) with
      | some r => scope.attach S r
      | none => do
          let r ← data.create scope.model scope.preset
          scope.adopt S r
  | .update where_ data => do
      let r ← look fun db => required (db.related scope where_).head?
      data.update scope.model (Keyed.id r)
  | .updateMany where_ columns => do
      let rs ← look fun db => .ok (db.related scope where_)
      alterAll S scope.model columns rs
  | .upsert where_ update create => do
      match ← look fun db => .ok (db.related scope where_).head? with
      | some r => update.update scope.model (Keyed.id r)
      | none => do
          let r ← create.create scope.model scope.preset
          scope.adopt S r
  | .delete where_ => do
      let r ← look fun db => required (db.related scope where_).head?
      remove S scope.model (Keyed.id r)
  | .deleteMany where_ => do
      let rs ← look fun db => .ok (db.related scope where_)
      forEach (fun r => remove S scope.model (Keyed.id r)) rs
  | .set where_ => do
      -- a row left out would have to lose its foreign key
      let out ← look fun db => .ok (db.related scope fun r => !where_ r)
      if out.isEmpty then do
        let rs ← look fun db => .ok (db.unrelated scope where_)
        alterAll S scope.model (fun r => .ok (scope.preset r)) rs
      else refuse .required

/-- A new row: the rows it refers to come before it, those that refer to it
after it. -/
def Data.create (m : μ) (preset : ρ → ρ) : Data μ ρ → Run μ ρ ρ
  | .mk columns nested => do
      let r ← look fun db => columns (preset (S.blank m (db.next m)))
      let r ← nested.refer r
      insert S m r
      nested.children (Keyed.id r)
      pure r

/-- The foreign keys of a new row. -/
def Nested.refer : Nested μ ρ → ρ → Run μ ρ ρ
  | .done, r => pure r
  | .many _ _ rest, r => rest.refer r
  | .one rel writes rest, r => do
      let r ← writes.refer rel r
      rest.refer r

def Writes.refer (rel : Relation μ) : Writes μ ρ → ρ → Run μ ρ ρ
  | .done, r => pure r
  | .next op rest, r => do
      let i ← op.target rel
      rest.refer rel (Keyed.point rel.key i r)

/-- The row a new row is to refer to. -/
def Op.target (rel : Relation μ) : Op μ ρ → Run μ ρ Int
  | .create data => do
      let p ← data.create rel.parent id
      pure (Keyed.id p)
  | .connect where_ => do
      let p ← look fun db => required (db.find rel.parent where_)
      pure (Keyed.id p)
  | .connectOrCreate where_ data => do
      match ← look fun db => .ok (db.find rel.parent where_) with
      | some p => pure (Keyed.id p)
      | none => do
          let p ← data.create rel.parent id
          pure (Keyed.id p)
  | _ => refuse .invalid

/-- The rows that refer to a new row. -/
def Nested.children (i : Int) : Nested μ ρ → Run μ ρ Unit
  | .done => pure ()
  | .many rel writes rest => do
      writes.write (.many rel i)
      rest.children i
  | .one _ _ rest => rest.children i

end

end Runs

end Anypay.Relational
