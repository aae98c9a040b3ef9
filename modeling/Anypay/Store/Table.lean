/-
Anypay.Store.Table — a database table with an autoincrement id and at most one
unique nullable column.

A `Table` carries the two constraints the database enforces as fields: ids are
distinct (and all below the next one to hand out), and so are the non-null
values of the unique column. `insert?` and `update?` are the only ways to
change one, and they fail exactly where the database would: `insert?_ok`,
`insert?_error`, `update?_ok` and `update?_error` say what each outcome means
and are all a client needs.

A row type declares its id and its unique column through `Record`; most have no
unique column and take the default.
-/
import Mathlib.Data.List.Nodup
import Mathlib.Data.List.Pairwise
import Mathlib.Data.List.Count
import Mathlib.Data.List.Forall2

namespace Anypay.Store

/-- A row type: its id, and the value of its unique column where the row has
one that is not null. -/
class Record (α : Type) where
  id : α → Nat
  key : α → Option String := fun _ => none

/-- What the database refuses. -/
inductive TableError where
  | notFound
  | unique
  deriving DecidableEq, Repr

/-- Two rows agree on the unique column only where it is null. -/
def Apart {α : Type} [Record α] (r r' : α) : Prop :=
  Record.key r = Record.key r' → Record.key r = none

instance {α : Type} [Record α] (r r' : α) : Decidable (Apart r r') :=
  inferInstanceAs (Decidable (_ → _))

structure Table (α : Type) [Record α] where
  rows : List α := []
  next : Nat := 1
  id_lt : ∀ r ∈ rows, Record.id r < next := by simp
  id_nodup : (rows.map Record.id).Nodup := by simp
  key_apart : rows.Pairwise Apart := by simp

namespace Table

variable {α : Type} [Record α]

/-- The rows a `where` clause matches. -/
def select (t : Table α) (where_ : α → Bool) : List α :=
  t.rows.filter where_

/-- The row a query without an order returns: any matching one, `n` says
which. -/
def pick (t : Table α) (where_ : α → Bool) (n : Nat) : Option α :=
  (t.select where_)[n % (t.select where_).length]?

/-- Another row already holds this value of the unique column. -/
def taken (t : Table α) (r : α) : Bool :=
  t.rows.any fun x =>
    Record.id x != Record.id r && (Record.key r).isSome && Record.key x == Record.key r

/-- The rows after `f` was applied to row `i`. -/
def patch (i : Nat) (f : α → α) (rows : List α) : List α :=
  rows.map fun r => if Record.id r = i then f r else r

/-! ## The constraints are kept -/

instance : Std.Symm (Apart : α → α → Prop) where
  symm a b h he := by
    rw [he]
    exact h he.symm

theorem id_lt_append (t : Table α) {r : α} (hr : Record.id r = t.next) :
    ∀ x ∈ t.rows ++ [r], Record.id x < t.next + 1 := by
  intro x hx
  rcases List.mem_append.mp hx with hx | hx
  · exact Nat.lt_succ_of_lt (t.id_lt x hx)
  · rw [List.mem_singleton.mp hx, hr]
    exact Nat.lt_succ_self _

theorem id_nodup_append (t : Table α) {r : α} (hr : Record.id r = t.next) :
    ((t.rows ++ [r]).map Record.id).Nodup := by
  rw [List.map_append, List.map_singleton, ← List.concat_eq_append]
  refine t.id_nodup.concat fun hmem => ?_
  obtain ⟨x, hx, he⟩ := List.mem_map.mp hmem
  have hlt := t.id_lt x hx
  omega

theorem taken_iff {t : Table α} {r : α} :
    t.taken r = true ↔ ∃ x ∈ t.rows, Record.id x ≠ Record.id r ∧
      Record.key x = Record.key r ∧ Record.key r ≠ none := by
  simp only [taken, List.any_eq_true, Bool.and_eq_true, bne_iff_ne, beq_iff_eq,
    Option.isSome_iff_ne_none]
  constructor
  · rintro ⟨x, hx, ⟨hid, hne⟩, hk⟩
    exact ⟨x, hx, hid, hk, hne⟩
  · rintro ⟨x, hx, hid, hk, hne⟩
    exact ⟨x, hx, ⟨hid, hne⟩, hk⟩

theorem key_apart_append (t : Table α) {r : α} (hr : Record.id r = t.next)
    (hfree : t.taken r = false) : (t.rows ++ [r]).Pairwise Apart := by
  refine List.pairwise_append.mpr ⟨t.key_apart, List.pairwise_singleton _ _, ?_⟩
  intro x hx y hy he
  obtain rfl := List.mem_singleton.mp hy
  by_contra hne
  have hid : Record.id x ≠ Record.id y := by
    have hlt := t.id_lt x hx
    omega
  have htaken : t.taken y = true := taken_iff.mpr ⟨x, hx, hid, he, he ▸ hne⟩
  rw [hfree] at htaken
  cases htaken

/-- A patch that changes nothing of what `g` shows. -/
theorem map_patch {β : Type} {i : Nat} {f : α → α} {g : α → β} (h : ∀ r, g (f r) = g r)
    (rows : List α) : (patch i f rows).map g = rows.map g := by
  rw [patch, List.map_map]
  refine List.map_congr_left fun r _ => ?_
  show g (if Record.id r = i then f r else r) = g r
  split
  · exact h r
  · rfl

section Patch

variable (t : Table α) {i : Nat} {f : α → α} (hid : ∀ r, Record.id (f r) = Record.id r)
include hid

theorem id_patch (r : α) :
    Record.id (if Record.id r = i then f r else r) = Record.id r := by
  split
  · exact hid r
  · rfl

theorem map_id_patch (rows : List α) :
    (patch i f rows).map Record.id = rows.map Record.id := map_patch hid rows

theorem id_lt_patch : ∀ x ∈ patch i f t.rows, Record.id x < t.next := by
  intro x hx
  obtain ⟨r, hr, rfl⟩ := List.mem_map.mp hx
  rw [id_patch hid]
  exact t.id_lt r hr

theorem id_nodup_patch : ((patch i f t.rows).map Record.id).Nodup := by
  rw [map_id_patch hid]
  exact t.id_nodup

theorem key_apart_patch {r : α} (hr : r ∈ t.rows) (hi : Record.id r = i)
    (hfree : t.taken (f r) = false) : (patch i f t.rows).Pairwise Apart := by
  have hother : ∀ x ∈ t.rows, Record.id x ≠ i → Apart x (f r) := by
    intro x hx hne he
    by_contra hk
    have htaken : t.taken (f r) = true :=
      taken_iff.mpr ⟨x, hx, by rw [hid, hi]; exact hne, he, he ▸ hk⟩
    rw [hfree] at htaken
    cases htaken
  have hsame : ∀ x ∈ t.rows, Record.id x = i → x = r := fun x hx he =>
    List.inj_on_of_nodup_map t.id_nodup hx hr (he.trans hi.symm)
  refine List.pairwise_map.mpr ?_
  have hids : t.rows.Pairwise fun a b => Record.id a ≠ Record.id b :=
    List.pairwise_map.mp t.id_nodup
  refine (t.key_apart.and hids).imp_of_mem fun {a b} ha hb hab => ?_
  obtain ⟨hap, hne⟩ := hab
  by_cases hai : Record.id a = i
  · have hbi : Record.id b ≠ i := fun h => hne (hai.trans h.symm)
    rw [if_pos hai, if_neg hbi, hsame a ha hai]
    exact symm (hother b hb hbi)
  · by_cases hbi : Record.id b = i
    · rw [if_neg hai, if_pos hbi, hsame b hb hbi]
      exact hother a ha hai
    · rw [if_neg hai, if_neg hbi]
      exact hap

end Patch

/-- The patched row is there. -/
theorem mem_patch {rows : List α} {r : α} {f : α → α} (hr : r ∈ rows) :
    f r ∈ patch (Record.id r) f rows :=
  List.mem_map.mpr ⟨r, hr, if_pos rfl⟩

/-- The other rows stay as they are. -/
theorem mem_patch_of_ne {rows : List α} {r : α} {i : Nat} {f : α → α} (hr : r ∈ rows)
    (hne : Record.id r ≠ i) : r ∈ patch i f rows :=
  List.mem_map.mpr ⟨r, hr, if_neg hne⟩

/-- A patch that changes nothing. -/
theorem patch_eq_self {rows : List α} {i : Nat} {f : α → α}
    (h : ∀ r ∈ rows, Record.id r = i → f r = r) : patch i f rows = rows := by
  refine (List.map_congr_left fun r hr => ?_).trans (List.map_id rows)
  split
  · rename_i hi
    exact h r hr hi
  · rfl

/-- Patching the row that was just inserted: the others are older. -/
theorem patch_append_last {t : Table α} {r : α} {i : Nat} {f : α → α} (hi : Record.id r = i)
    (hnext : i = t.next) : patch i f (t.rows ++ [r]) = t.rows ++ [f r] := by
  have hold : patch i f t.rows = t.rows := by
    apply patch_eq_self
    intro x hx hxid
    have hlt := t.id_lt x hx
    rw [hxid, hnext] at hlt
    exact absurd hlt (Nat.lt_irrefl _)
  unfold patch at hold ⊢
  rw [List.map_append, hold]
  simp [hi]

/-! ## Reading -/

@[simp] theorem mem_select {t : Table α} {where_ : α → Bool} {r : α} :
    r ∈ t.select where_ ↔ r ∈ t.rows ∧ where_ r = true := by
  simp only [select, List.mem_filter]

@[simp] theorem select_true (t : Table α) : (t.select fun _ => true) = t.rows :=
  List.filter_eq_self.mpr fun _ _ => rfl

theorem pick_some {t : Table α} {where_ : α → Bool} {n : Nat} {r : α}
    (h : t.pick where_ n = some r) : r ∈ t.rows ∧ where_ r = true :=
  mem_select.mp (List.mem_of_getElem? h)

theorem pick_none {t : Table α} {where_ : α → Bool} {n : Nat} :
    t.pick where_ n = none ↔ ∀ r ∈ t.rows, where_ r = false := by
  simp only [pick, List.getElem?_eq_none_iff]
  constructor
  · intro h r hr
    by_contra hw
    have hmem : r ∈ t.select where_ := mem_select.mpr ⟨hr, by simpa using hw⟩
    have hpos := List.length_pos_of_mem hmem
    have hlt := Nat.mod_lt n hpos
    omega
  · intro h
    have hnil : t.select where_ = [] := by
      refine List.eq_nil_iff_forall_not_mem.mpr fun r hr => ?_
      obtain ⟨hr, hw⟩ := mem_select.mp hr
      rw [h r hr] at hw
      cases hw
    simp [hnil]

/-- Every matching row is one some answer picks. -/
theorem exists_pick {t : Table α} {where_ : α → Bool} {r : α} (hr : r ∈ t.rows)
    (hw : where_ r = true) : ∃ n, t.pick where_ n = some r := by
  obtain ⟨n, hlt, hn⟩ := List.mem_iff_getElem.mp (mem_select.mpr ⟨hr, hw⟩)
  refine ⟨n, ?_⟩
  rw [pick, Nat.mod_eq_of_lt hlt, List.getElem?_eq_getElem hlt, hn]

theorem eq_of_id {t : Table α} {r r' : α} (hr : r ∈ t.rows) (hr' : r' ∈ t.rows)
    (h : Record.id r = Record.id r') : r = r' :=
  List.inj_on_of_nodup_map t.id_nodup hr hr' h

theorem eq_of_key {t : Table α} {r r' : α} {k : String} (hr : r ∈ t.rows)
    (hr' : r' ∈ t.rows) (hk : Record.key r = some k) (hk' : Record.key r' = some k) :
    r = r' := by
  by_contra hne
  have hap := t.key_apart.forall hr hr' hne (by rw [hk, hk'])
  rw [hk] at hap
  cases hap

/-! ## Inserting -/

/-- `create`: the row gets the next id. Fails where its unique column holds a
value another row already has. -/
def insert? (t : Table α) (mk : Nat → α) (hid : ∀ n, Record.id (mk n) = n) :
    Except TableError (α × Table α) :=
  if h : t.taken (mk t.next) = true then .error .unique
  else .ok (mk t.next,
    { rows := t.rows ++ [mk t.next]
      next := t.next + 1
      id_lt := id_lt_append t (hid _)
      id_nodup := id_nodup_append t (hid _)
      key_apart := key_apart_append t (hid _) (by simpa using h) })

theorem insert?_ok {t t' : Table α} {mk : Nat → α} {hid : ∀ n, Record.id (mk n) = n}
    {r : α} (h : t.insert? mk hid = .ok (r, t')) :
    r = mk t.next ∧ t'.rows = t.rows ++ [mk t.next] ∧ t'.next = t.next + 1 := by
  unfold insert? at h
  split at h
  · cases h
  · simp only [Except.ok.injEq, Prod.mk.injEq] at h
    obtain ⟨rfl, rfl⟩ := h
    exact ⟨rfl, rfl, rfl⟩

theorem insert?_error {t : Table α} {mk : Nat → α} {hid : ∀ n, Record.id (mk n) = n}
    {e : TableError} (h : t.insert? mk hid = .error e) :
    e = .unique ∧ ∃ r ∈ t.rows, Record.key r = Record.key (mk t.next) ∧
      Record.key (mk t.next) ≠ none := by
  unfold insert? at h
  split at h
  · rename_i htaken
    obtain ⟨r, hr, -, hk, hne⟩ := taken_iff.mp htaken
    exact ⟨(Except.error.inj h).symm, r, hr, hk, hne⟩
  · cases h

/-- A row with no unique value always goes in. -/
theorem insert?_of_key_none {t : Table α} {mk : Nat → α}
    {hid : ∀ n, Record.id (mk n) = n} (hk : Record.key (mk t.next) = none) :
    ∃ t', t.insert? mk hid = .ok (mk t.next, t') := by
  cases h : t.insert? mk hid with
  | ok p =>
      obtain ⟨r, t'⟩ := p
      obtain ⟨rfl, -, -⟩ := insert?_ok h
      exact ⟨t', rfl⟩
  | error e => exact absurd hk (insert?_error h).2.choose_spec.2.2

/-! ## Updating -/

/-- The row with the given id. -/
def byId (t : Table α) (i : Nat) : Option α :=
  t.rows.find? fun r => Record.id r = i

theorem byId_some {t : Table α} {i : Nat} {r : α} :
    t.byId i = some r ↔ r ∈ t.rows ∧ Record.id r = i := by
  constructor
  · intro h
    exact ⟨List.mem_of_find?_eq_some h, by simpa using List.find?_some h⟩
  · rintro ⟨hr, hi⟩
    cases h : t.byId i with
    | none => exact absurd hi (by simpa using List.find?_eq_none.mp h r hr)
    | some x =>
        have hx : Record.id x = i := by simpa using List.find?_some h
        rw [eq_of_id (List.mem_of_find?_eq_some h) hr (hx.trans hi.symm)]

theorem byId_none {t : Table α} {i : Nat} :
    t.byId i = none ↔ ∀ r ∈ t.rows, Record.id r ≠ i := by
  simp [byId, List.find?_eq_none]

/-- After row `i` was patched: it, or the row that was there. -/
theorem byId_patch {t t' : Table α} {i : Nat} {f : α → α}
    (hid : ∀ r, Record.id (f r) = Record.id r) (hrows : t'.rows = patch i f t.rows)
    (j : Nat) : t'.byId j = (t.byId j).map fun r => if j = i then f r else r := by
  cases h : t.byId j with
  | none =>
      rw [Option.map_none, byId_none, hrows]
      intro x hx
      obtain ⟨r, hr, rfl⟩ := List.mem_map.mp hx
      rw [id_patch hid]
      exact byId_none.mp h r hr
  | some r =>
      obtain ⟨hr, rfl⟩ := byId_some.mp h
      rw [Option.map_some, byId_some, hrows]
      split
      · rename_i hi
        subst hi
        exact ⟨mem_patch hr, hid r⟩
      · rename_i hi
        exact ⟨mem_patch_of_ne hr hi, rfl⟩

/-- `update({ where: { id: i } })`: fails where there is no such row, or where
the new value of its unique column is another row's. -/
def update? (t : Table α) (i : Nat) (f : α → α)
    (hid : ∀ r, Record.id (f r) = Record.id r) : Except TableError (α × Table α) :=
  match hr : t.byId i with
  | none => .error .notFound
  | some r =>
      if h : t.taken (f r) = true then .error .unique
      else .ok (f r,
        { rows := patch i f t.rows
          next := t.next
          id_lt := id_lt_patch t hid
          id_nodup := id_nodup_patch t hid
          key_apart := key_apart_patch t hid (byId_some.mp hr).1 (byId_some.mp hr).2
            (by simpa using h) })

variable {t t' : Table α} {i : Nat} {f : α → α}
  {hid : ∀ r, Record.id (f r) = Record.id r}

theorem update?_ok {r' : α} (h : t.update? i f hid = .ok (r', t')) :
    ∃ r ∈ t.rows, Record.id r = i ∧ r' = f r ∧ t'.rows = patch i f t.rows ∧
      t'.next = t.next ∧ t.taken (f r) = false := by
  unfold update? at h
  split at h
  · cases h
  · rename_i r hr
    split at h
    · cases h
    · rename_i hfree
      simp only [Except.ok.injEq, Prod.mk.injEq] at h
      obtain ⟨rfl, rfl⟩ := h
      obtain ⟨hmem, hi⟩ := byId_some.mp hr
      exact ⟨r, hmem, hi, rfl, rfl, rfl, by simpa using hfree⟩

theorem update?_error {e : TableError} (h : t.update? i f hid = .error e) :
    (e = .notFound ∧ ∀ r ∈ t.rows, Record.id r ≠ i) ∨
    (e = .unique ∧ ∃ r ∈ t.rows, Record.id r = i ∧
      ∃ x ∈ t.rows, Record.id x ≠ i ∧ Record.key x = Record.key (f r) ∧
        Record.key (f r) ≠ none) := by
  unfold update? at h
  split at h
  · rename_i hr
    exact .inl ⟨(Except.error.inj h).symm, byId_none.mp hr⟩
  · rename_i r hr
    split at h
    · rename_i htaken
      obtain ⟨x, hx, hne, hk⟩ := taken_iff.mp htaken
      obtain ⟨hmem, hi⟩ := byId_some.mp hr
      exact .inr ⟨(Except.error.inj h).symm, r, hmem, hi, x, hx,
        by rwa [hid, hi] at hne, hk⟩
    · cases h

/-- An update that leaves the unique column alone only needs its row. -/
theorem update?_of_key_eq {r : α} (hr : r ∈ t.rows) (hi : Record.id r = i)
    (hk : Record.key (f r) = Record.key r) :
    ∃ t', t.update? i f hid = .ok (f r, t') := by
  cases h : t.update? i f hid with
  | ok p =>
      obtain ⟨r', t'⟩ := p
      obtain ⟨x, hx, hxi, rfl, -⟩ := update?_ok h
      rw [eq_of_id hx hr (hxi.trans hi.symm)]
      exact ⟨t', rfl⟩
  | error e =>
      rcases update?_error h with ⟨-, hnone⟩ | ⟨-, r', hr', hi', x, hx, hne, hkx, hsome⟩
      · exact absurd hi (hnone r hr)
      · obtain rfl := eq_of_id hr' hr (hi'.trans hi.symm)
        obtain ⟨k, hk'⟩ := Option.ne_none_iff_exists'.mp hsome
        have hxr := eq_of_key hx hr' (hkx.trans hk') (hk.symm.trans hk')
        exact absurd (hxr ▸ hi') hne

theorem update?_ne_error {r : α} {e : TableError} (hr : r ∈ t.rows) (hi : Record.id r = i)
    (hk : Record.key (f r) = Record.key r) : t.update? i f hid ≠ .error e := by
  have hok : ∃ t', t.update? i f hid = .ok (f r, t') := update?_of_key_eq hr hi hk
  obtain ⟨_, hok⟩ := hok
  rw [hok]
  intro h
  cases h

/-- An update whose new unique value no other row has goes through. -/
theorem update?_of_free {r : α} (hr : r ∈ t.rows) (hi : Record.id r = i)
    (hfree : t.taken (f r) = false) : ∃ t', t.update? i f hid = .ok (f r, t') := by
  cases h : t.update? i f hid with
  | ok p =>
      obtain ⟨r', t'⟩ := p
      obtain ⟨x, hx, hxi, rfl, -⟩ := update?_ok h
      rw [eq_of_id hx hr (hxi.trans hi.symm)]
      exact ⟨t', rfl⟩
  | error e =>
      rcases update?_error h with ⟨-, hnone⟩ | ⟨-, r', hr', hi', x, hx, hne, hkx, hsome⟩
      · exact absurd hi (hnone r hr)
      · obtain rfl := eq_of_id hr' hr (hi'.trans hi.symm)
        have htaken : t.taken (f r') = true :=
          taken_iff.mpr ⟨x, hx, by rwa [hid, hi'], hkx, hsome⟩
        rw [hfree] at htaken
        cases htaken

/-- Only the id and the unique value of a row matter here. -/
theorem taken_congr {r r' : α} (hid : Record.id r = Record.id r')
    (hkey : Record.key r = Record.key r') : t.taken r = t.taken r' := by
  simp only [taken, hid, hkey]

/-- A table without rows. -/
def empty : Table α := {}

@[simp] theorem rows_empty : (empty : Table α).rows = [] := rfl

@[simp] theorem next_empty : (empty : Table α).next = 1 := rfl

/-- A table of one row. -/
def single (r : α) : Table α where
  rows := [r]
  next := Record.id r + 1

/-- A table of two rows. -/
def pair (r r' : α) (hid : Record.id r < Record.id r') (hkey : Apart r r') : Table α where
  rows := [r, r']
  next := Record.id r' + 1
  id_lt := by
    intro x hx
    rcases List.mem_pair.mp hx with rfl | rfl <;> omega
  id_nodup := by simpa using Nat.ne_of_lt hid
  key_apart := by simpa using hkey

/-! ## Views of a table -/

/-- The table without the rows the test rejects. -/
def restrict (t : Table α) (p : α → Bool) : Table α where
  rows := t.rows.filter p
  next := t.next
  id_lt := fun r hr => t.id_lt r (List.mem_filter.mp hr).1
  id_nodup := t.id_nodup.sublist (List.Sublist.map _ List.filter_sublist)
  key_apart := t.key_apart.sublist List.filter_sublist

/-- One more row, before the others. -/
def adjoin (t : Table α) (r : α) (hid : t.next ≤ Record.id r) (hkey : Record.key r = none) :
    Table α where
  rows := r :: t.rows
  next := Record.id r + 1
  id_lt := by
    intro x hx
    rcases List.mem_cons.mp hx with rfl | hx
    · exact Nat.lt_succ_self _
    · exact Nat.lt_succ_of_lt (Nat.lt_of_lt_of_le (t.id_lt x hx) hid)
  id_nodup := by
    refine List.nodup_cons.mpr ⟨fun hmem => ?_, t.id_nodup⟩
    obtain ⟨x, hx, hxid⟩ := List.mem_map.mp hmem
    have hlt := t.id_lt x hx
    omega
  key_apart := List.pairwise_cons.mpr
    ⟨fun _ _ => by simp [Apart, hkey], t.key_apart⟩

/-- `delete({ where: { id: i } })`: fails where there is no such row. -/
def delete? (t : Table α) (i : Nat) : Except TableError (α × Table α) :=
  match t.byId i with
  | none => .error .notFound
  | some r => .ok (r, t.restrict fun x => Record.id x != i)

theorem delete?_ok {r : α} (h : t.delete? i = .ok (r, t')) :
    r ∈ t.rows ∧ Record.id r = i ∧ t'.rows = t.rows.filter fun x => Record.id x != i := by
  unfold delete? at h
  cases hr : t.byId i with
  | none =>
      rw [hr] at h
      cases h
  | some x =>
      rw [hr] at h
      obtain ⟨rfl, rfl⟩ := Prod.mk.inj (Except.ok.inj h)
      exact ⟨(byId_some.mp hr).1, (byId_some.mp hr).2, rfl⟩

/-- A patch of a row the view does not show, or that changes nothing. -/
theorem filter_patch {rows : List α} {p : α → Bool}
    (hp : ∀ r ∈ rows, Record.id r = i → (p r = false ∧ p (f r) = false) ∨ f r = r) :
    (patch i f rows).filter p = rows.filter p := by
  induction rows with
  | nil => rfl
  | cons r rows ih =>
      have htail := ih fun x hx => hp x (by simp [hx])
      simp only [patch, List.map_cons] at htail ⊢
      by_cases hi : Record.id r = i
      · rw [if_pos hi]
        rcases hp r (by simp) hi with ⟨hr, hfr⟩ | hsame
        · rw [List.filter_cons_of_neg (by simp [hfr]), List.filter_cons_of_neg (by simp [hr]),
            htail]
        · rw [hsame, List.filter_cons, List.filter_cons, htail]
      · rw [if_neg hi, List.filter_cons, List.filter_cons, htail]

/-- A patch that leaves rows in the view, and out of it. -/
theorem filter_patch_comm {rows : List α} {p : α → Bool}
    (hp : ∀ r ∈ rows, Record.id r = i → p (f r) = p r) :
    (patch i f rows).filter p = patch i f (rows.filter p) := by
  induction rows with
  | nil => rfl
  | cons r rows ih =>
      have htail := ih fun x hx => hp x (by simp [hx])
      simp only [patch, List.map_cons] at htail ⊢
      have hview : p (if Record.id r = i then f r else r) = p r := by
        split
        · rename_i hi
          exact hp r (by simp) hi
        · rfl
      rw [List.filter_cons, List.filter_cons, hview, htail]
      split
      · rfl
      · rfl

/-- A patch the view does not see. -/
theorem map_filter_patch {β : Type} {rows : List α} {p : α → Bool} {g : α → β}
    (h : ∀ r ∈ rows, Record.id r = i → p (f r) = p r ∧ (p r = true → g (f r) = g r)) :
    ((patch i f rows).filter p).map g = (rows.filter p).map g := by
  induction rows with
  | nil => rfl
  | cons r rows ih =>
      have htail := ih fun x hx => h x (by simp [hx])
      simp only [patch, List.map_cons] at htail ⊢
      have hrow : p (if Record.id r = i then f r else r) = p r ∧
          (p r = true → g (if Record.id r = i then f r else r) = g r) := by
        split
        · rename_i hi
          exact h r (by simp) hi
        · exact ⟨rfl, fun _ => rfl⟩
      rw [List.filter_cons, List.filter_cons, hrow.1]
      split
      · rename_i hp
        rw [List.map_cons, List.map_cons, hrow.2 hp, htail]
      · exact htail

/-- The one row a view shows, patched. -/
theorem map_select_patch_one {β : Type} {p : α → Bool} {g : α → β} {b : β} {r : α}
    (hone : (t.select p).map g = [b]) (hr : r ∈ t.rows) (hp : p r = true)
    (hpf : p (f r) = true) (hrows : t'.rows = patch (Record.id r) f t.rows) :
    (t'.select p).map g = [g (f r)] := by
  obtain ⟨x, hx, -⟩ := List.map_eq_singleton_iff.mp hone
  have hmem : r ∈ t.select p := mem_select.mpr ⟨hr, hp⟩
  rw [hx] at hmem
  obtain rfl := List.mem_singleton.mp hmem
  have hview : t'.select p = patch (Record.id r) f (t.select p) := by
    unfold select
    rw [hrows]
    refine filter_patch_comm fun y hy hid => ?_
    rw [eq_of_id hy hr hid, hp, hpf]
  rw [hview, hx]
  simp [patch]

theorem countP_patch {p : α → Bool} (hp : ∀ r ∈ t.rows, Record.id r = i → p (f r) = p r) :
    (patch i f t.rows).countP p = t.rows.countP p := by
  rw [patch, List.countP_map]
  refine List.countP_congr fun r hr => ?_
  simp only [Function.comp]
  split
  · rename_i hi
    rw [hp r hr hi]
  · rfl

/-! ## Two tables, row by row -/

section Rows

variable {R : α → α → Prop} {s t : Table α} {where_ : α → Bool}

/-- A query finds the rows of the one that belong to those of the other. -/
theorem forall₂_select (h : List.Forall₂ R s.rows t.rows)
    (hw : ∀ x y, R x y → where_ y = where_ x) :
    List.Forall₂ R (s.select where_) (t.select where_) := by
  unfold select
  generalize s.rows = xs at h ⊢
  generalize t.rows = ys at h ⊢
  induction h with
  | nil => exact .nil
  | @cons x y _ _ hxy _ ih =>
      rw [List.filter_cons, List.filter_cons, hw x y hxy]
      split
      · exact .cons hxy ih
      · exact ih

theorem forall₂_pick (h : List.Forall₂ R s.rows t.rows)
    (hw : ∀ x y, R x y → where_ y = where_ x) (n : Nat) :
    (s.pick where_ n = none ∧ t.pick where_ n = none) ∨
      ∃ x y, s.pick where_ n = some x ∧ t.pick where_ n = some y ∧ R x y := by
  have hselect := forall₂_select h hw
  have hlength := hselect.length_eq
  unfold pick
  rw [← hlength]
  by_cases hlt : n % (s.select where_).length < (s.select where_).length
  · have hlt' : n % (s.select where_).length < (t.select where_).length := by
      rwa [← hlength]
    refine .inr ⟨_, _, List.getElem?_eq_getElem hlt, List.getElem?_eq_getElem hlt', ?_⟩
    exact List.Forall₂.get hselect hlt hlt'
  · have hge : (s.select where_).length ≤ n % (s.select where_).length := Nat.le_of_not_lt hlt
    refine .inl ⟨List.getElem?_eq_none hge, List.getElem?_eq_none ?_⟩
    rwa [← hlength]

/-- A patch of the one keeps what its rows are to those of the other. -/
theorem forall₂_patch {xs ys : List α} (h : List.Forall₂ R xs ys)
    (hf : ∀ x y, R x y → Record.id y = i → R x (f y)) :
    List.Forall₂ R xs (patch i f ys) := by
  induction h with
  | nil => exact .nil
  | @cons x y _ _ hxy _ ih =>
      refine List.Forall₂.cons ?_ ih
      show R x (if Record.id y = i then f y else y)
      split
      · rename_i hi
        exact hf x y hxy hi
      · exact hxy

end Rows

end Table

end Anypay.Store
