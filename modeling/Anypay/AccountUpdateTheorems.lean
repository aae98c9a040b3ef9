/-
Anypay.AccountUpdateTheorems — what `PUT /account` may change.

* `ownRow a` lets account `a`'s own row become anything but for its id and
  `is_admin`, and every other row nothing.
* `updateAccount_framed_iff` — a request keeps to it exactly when it is refused
  or its data is `Harmless`: the id and `is_admin` it writes are the row's own,
  and each nested write does nothing more (`Op.Idle`).
* `promoted` — a request that makes the caller an administrator and links
  another account to it.
* `plain_framed` — a payload that names neither `id`, nor `is_admin`, nor a
  relation is kept in its frame.

The frame is a statement about every change of the transaction and about the
rows that are left, so that writes which undo one another do not slip through.
-/
import Anypay.AccountUpdates
import Anypay.Relational.Idle

namespace Anypay.AccountUpdates

open Relational Prisma

/-! ## The frame -/

/-- What account `a` may do to a row. -/
def ownRow (a : Int) : Allowance Model Row where
  may m r r' :=
    r' = r ∨ (m = .accounts ∧ r.id = a ∧ r'.id = a ∧ r'.get "is_admin" = r.get "is_admin")
  refl _ _ := .inl rfl
  trans m r r' r'' := by
    rintro (rfl | ⟨hm, hr, hr', hadmin⟩) h'
    · exact h'
    · rcases h' with rfl | ⟨-, -, hr'', hadmin'⟩
      · exact .inr ⟨hm, hr, hr', hadmin⟩
      · exact .inr ⟨hm, hr, hr'', hadmin'.trans hadmin⟩
  id_eq m r r' := by
    rintro (rfl | ⟨-, hr, hr', -⟩)
    · rfl
    · exact hr'.trans hr.symm

/-- No row but `a`'s own is created, deleted or changed, and that one keeps its
id and `is_admin`: at no time, and not in what is left. -/
structure Framed (a : Int) (db : Relational.Db Model Row) (o : Accounts.Updated) : Prop where
  changes : Within (ownRow a) o.log
  rows : ∀ m, List.Forall₂ ((ownRow a).may m) (db.rows m) ((db.applyAll o.log).rows m)

/-- Prisma takes the payload and lets all of its writes through. -/
def Accepted (client : Client) (a : Int) (payload : Json) (db : Relational.Db Model Row) : Prop :=
  payload ≠ .null ∧ ∃ log, (accountsUpdate client a payload).exec db = .ok ((), log)

/-- The data writes the row's own id and `is_admin`, if any, and its nested
writes find everything as they ask for it. -/
structure Harmless (a : Int) (columns : ColumnsWrite) (nested : Nested Model Row)
    (db : Relational.Db Model Row) : Prop where
  own : ∀ r r', db.byId .accounts a = some r → columns r = .ok r' →
    r'.id = a ∧ r'.get "is_admin" = r.get "is_admin"
  nested : After (alter schema .accounts a columns) db fun i db =>
    nested.Idle (ownRow a) schema i db

theorem idle_iff_harmless (a : Int) (columns : ColumnsWrite) (nested : Nested Model Row)
    (db : Relational.Db Model Row) :
    (Data.mk columns nested).Idle (ownRow a) schema .accounts a db ↔
      Harmless a columns nested db := by
  unfold Data.Idle
  constructor
  · rintro ⟨hwrites, hnested⟩
    refine ⟨fun r r' hr hr' => ?_, hnested⟩
    have hid : r.id = a := (Db.byId_some hr).2
    rcases hwrites r r' hr hr' with rfl | ⟨-, -, hid', hadmin⟩
    · exact ⟨hid, rfl⟩
    · exact ⟨hid', hadmin⟩
  · rintro ⟨hown, hnested⟩
    refine ⟨fun r r' hr hr' => ?_, hnested⟩
    obtain ⟨hid', hadmin⟩ := hown r r' hr hr'
    exact .inr ⟨rfl, (Db.byId_some hr).2, hid', hadmin⟩

/-! ## The request -/

/-- What Prisma refuses writes nothing. -/
theorem log_of_error {client : Client} {a : Int} {payload : Json}
    {db : Relational.Db Model Row} {e : WriteError} (hnull : payload ≠ .null)
    (h : (accountsUpdate client a payload).exec db = .error e) :
    (Accounts.updateAccount client a payload db).log = [] := by
  unfold Accounts.updateAccount
  cases payload with
  | null => exact absurd rfl hnull
  | _ => simp only [h]

theorem log_of_ok {client : Client} {a : Int} {payload : Json}
    {db : Relational.Db Model Row} {log : List (Change Model Row)} (hnull : payload ≠ .null)
    (h : (accountsUpdate client a payload).exec db = .ok ((), log)) :
    (Accounts.updateAccount client a payload db).log = log := by
  unfold Accounts.updateAccount
  cases payload with
  | null => exact absurd rfl hnull
  | _ =>
      simp only [h]
      split <;> rfl

/-- A request that is refused writes nothing, the others what Prisma lets
through. -/
theorem log_updateAccount (client : Client) (a : Int) (payload : Json)
    (db : Relational.Db Model Row) :
    (¬ Accepted client a payload db ∧ (Accounts.updateAccount client a payload db).log = []) ∨
      (payload ≠ .null ∧ (accountsUpdate client a payload).exec db =
        .ok ((), (Accounts.updateAccount client a payload db).log)) := by
  by_cases hnull : payload = .null
  · subst hnull
    exact .inl ⟨fun h => h.1 rfl, rfl⟩
  · cases hexec : (accountsUpdate client a payload).exec db with
    | error e =>
        refine .inl ⟨?_, log_of_error hnull hexec⟩
        rintro ⟨-, log, hok⟩
        rw [hexec] at hok
        cases hok
    | ok p =>
        refine .inr ⟨hnull, ?_⟩
        rw [log_of_ok hnull hexec]

theorem framed_iff_within {a : Int} {db : Relational.Db Model Row} {o : Accounts.Updated}
    (hrecorded : Recorded db o.log) : Framed a db o ↔ Within (ownRow a) o.log := by
  constructor
  · intro h
    exact h.changes
  · intro hwithin
    exact ⟨hwithin, rows_of_allowed hrecorded hwithin⟩

/-- An accepted update keeps to the frame exactly when its data is harmless. -/
theorem judges_accountsUpdate (client : Client) (a : Int) (payload : Json) :
    Judges (ownRow a) (accountsUpdate client a payload) fun db =>
      ∀ columns nested, readUpdate client payload = some (.mk columns nested) →
        Harmless a columns nested db := by
  unfold accountsUpdate
  cases hread : readUpdate client payload with
  | none => exact judges_refuse .invalid _
  | some data =>
      obtain ⟨columns, nested⟩ := data
      refine judges_congr (judges_update .accounts a (.mk columns nested)) fun db => ?_
      rw [idle_iff_harmless]
      constructor
      · intro h columns' nested' he
        cases he
        exact h
      · intro h
        exact h columns nested rfl

theorem updateAccount_framed_iff (client : Client) (a : Int) (payload : Json)
    (db : Relational.Db Model Row) :
    Framed a db (Accounts.updateAccount client a payload db) ↔
      (Accepted client a payload db →
        ∀ columns nested, readUpdate client payload = some (.mk columns nested) →
          Harmless a columns nested db) := by
  rcases log_updateAccount client a payload db with ⟨hrefused, hlog⟩ | ⟨hnull, hexec⟩
  · have hrecorded : Recorded db (Accounts.updateAccount client a payload db).log := by
      rw [hlog]
      trivial
    rw [framed_iff_within hrecorded, hlog]
    exact iff_of_true (within_nil _) fun h => absurd h hrefused
  · have hrecorded := (accountsUpdate client a payload).recorded db () _ hexec
    rw [framed_iff_within hrecorded, judges_accountsUpdate client a payload db () _ hexec]
    constructor
    · intro h _
      exact h
    · intro h
      exact h ⟨hnull, _, hexec⟩

/-- A client that takes the one date of the request below. -/
def dateClient : Client where
  isDate s := s == "2024-05-01T00:00:00.000Z"
  filter _ _ := none

def twoAccounts : Relational.Db Model Row where
  rows
    | .accounts => [schema.blank .accounts 1, schema.blank .accounts 2]
    | _ => []
  next _ := 3
  id_nodup m := by cases m <;> decide

/-- `{ is_admin: true, linkedAccountsAsTarget: { create: { source: 2, … } } }`. -/
def promotion : Json :=
  .obj [
    ("is_admin", .bool true),
    ("linkedAccountsAsTarget", .obj [
      ("create", .obj [
        ("source", .num 2),
        ("createdAt", .str "2024-05-01T00:00:00.000Z"),
        ("updatedAt", .str "2024-05-01T00:00:00.000Z")])])]

/-- Account 1 becomes an administrator and sees the payments of account 2. -/
theorem promoted :
    let o := Accounts.updateAccount dateClient 1 promotion twoAccounts
    let after := twoAccounts.applyAll o.log
    (twoAccounts.byId .accounts 1).map (Row.get "is_admin") = some (.bool false) ∧
      (after.byId .accounts 1).map (Row.get "is_admin") = some (.bool true) ∧
      twoAccounts.rows .LinkedAccounts = [] ∧
      (after.rows .LinkedAccounts).map (fun r => (r.get "source", r.get "target")) =
        [(.num 2, .num 1)] ∧
      ¬ Framed 1 twoAccounts o := by
  refine ⟨rfl, rfl, rfl, rfl, fun h => ?_⟩
  have hlength := (h.rows .LinkedAccounts).length_eq
  cases hlength

/-! ## Ordinary columns -/

/-- A key of `model accounts` that is an ordinary column, or none at all. -/
def Ordinary (key : String) : Prop :=
  key ≠ "id" ∧ key ≠ "is_admin" ∧ ∀ f ∈ relationFields, f.children ≠ key

theorem get_set_of_ne {name : String} {v : Json} {r : Row} (hid : name ≠ "id")
    (hname : name ≠ "is_admin") :
    (r.set name v).id = r.id ∧ (r.set name v).get "is_admin" = r.get "is_admin" := by
  simp [Row.set, Row.get, hid, Json.field_assign, hname]

/-- An ordinary key names a column, if it names anything. -/
theorem fieldOf_ordinary {key : String} {field : Field} (hkey : Ordinary key)
    (h : fieldOf .accounts none key = some field) : ∃ c, field = .column c ∧ c.name = key := by
  unfold fieldOf at h
  split at h
  · rename_i c hfind
    have hname := List.find?_some hfind
    simp only [filledIn, Bool.not_false, Bool.and_true, beq_iff_eq] at hname
    exact ⟨c, (Option.some.inj h).symm, hname⟩
  · split at h
    · rename_i f hfind
      have hname := List.find?_some hfind
      simp only [Bool.and_eq_true, beq_iff_eq] at hname
      have hmem := (List.mem_filter.mp (List.mem_of_find?_eq_some hfind)).1
      exact absurd hname.2 (hkey.2.2 f hmem)
    · split at h
      · rename_i f hfind
        -- no relation has the accounts on its child's side
        have hchild := List.find?_some hfind
        simp only [Bool.and_eq_true, decide_eq_true_eq] at hchild
        have hmem := (List.mem_filter.mp (List.mem_of_find?_eq_some hfind)).1
        have hnone : ∀ f ∈ relationFields, f.rel.child ≠ .accounts := by
          simp [relationFields]
        exact absurd hchild.1 (hnone f hmem)
      · cases h

/-- Writing to ordinary columns leaves the id and `is_admin` alone, and nothing
else is written. -/
theorem readFields_ordinary {client : Client} {fields : List (String × Json)}
    (hfields : ∀ f ∈ fields, Ordinary f.1) {columns : ColumnsWrite} {nested : Nested Model Row}
    (hread : readFields client .accounts none .update fields = some (columns, nested)) :
    nested = .done ∧ ∀ r r', columns r = .ok r' →
      r'.id = r.id ∧ r'.get "is_admin" = r.get "is_admin" := by
  induction fields generalizing columns nested with
  | nil =>
      obtain ⟨rfl, rfl⟩ := Prod.mk.inj (Option.some.inj hread)
      refine ⟨rfl, fun r r' h => ?_⟩
      cases h
      exact ⟨rfl, rfl⟩
  | cons f fields ih =>
      obtain ⟨key, v⟩ := f
      have hkey : Ordinary key := hfields (key, v) List.mem_cons_self
      unfold readFields at hread
      split at hread
      · rename_i c rest nested' hfield hrest
        obtain ⟨hdone, hkept⟩ := ih (fun x hx => hfields x (List.mem_cons_of_mem _ hx)) hrest
        obtain ⟨w, -, hw⟩ := Option.map_eq_some_iff.mp hread
        obtain ⟨rfl, rfl⟩ := Prod.mk.inj hw
        obtain ⟨_, hc, hname⟩ := fieldOf_ordinary hkey hfield
        cases hc
        refine ⟨hdone, fun r r' h => ?_⟩
        unfold writing at h
        split at h
        · cases h
        · rename_i x hx
          have hset := @get_set_of_ne c.name x r (hname ▸ hkey.1) (hname ▸ hkey.2.1)
          obtain ⟨hid, hadmin⟩ := hkept _ r' h
          exact ⟨hid.trans hset.1, hadmin.trans hset.2⟩
      · rename_i rel _ _ hfield _
        obtain ⟨_, hc, -⟩ := fieldOf_ordinary hkey hfield
        cases hc
      · rename_i rel _ _ hfield _
        obtain ⟨_, hc, -⟩ := fieldOf_ordinary hkey hfield
        cases hc
      · cases hread

/-- The frame holds of every payload of ordinary columns. -/
theorem plain_framed (client : Client) (a : Int) (fields : List (String × Json))
    (db : Relational.Db Model Row) (hfields : ∀ f ∈ fields, Ordinary f.1) :
    Framed a db (Accounts.updateAccount client a (.obj fields) db) := by
  rw [updateAccount_framed_iff]
  intro _ columns nested hread
  have hfieldsRead : readFields client .accounts none .update fields = some (columns, nested) := by
    change dataOf true (readFields client .accounts none .update fields) = _ at hread
    cases hfieldsRead : readFields client .accounts none .update fields with
    | none =>
        rw [hfieldsRead] at hread
        cases hread
    | some read =>
        rw [hfieldsRead] at hread
        cases hread
        rfl
  obtain ⟨rfl, hkept⟩ := readFields_ordinary hfields hfieldsRead
  refine ⟨fun r r' hr hr' => ?_, fun _ _ _ => trivial⟩
  obtain ⟨hid, hadmin⟩ := hkept r r' hr'
  exact ⟨hid.trans (Db.byId_some hr).2, hadmin⟩

end Anypay.AccountUpdates
