/-
Anypay.Db.Rules — reasoning rules for the steps of `Anypay.Db.World`.

One rule per step and per logic. Alone (`wp_…`): a read yields some matching
row of the present state; a `create` appends one row; an `update` patches one.
Among others (`meets_…_bind`): the same in a state the others may have reached,
and a write owes its guarantee. `keeps_…` says which steps leave a view of the
world alone.

Every rule speaks of rows, not of tables or of the choice of a row, so the
proofs about the server never look into Prisma again.
-/
import Mathlib.Data.List.MinMax
import Anypay.Db.World

namespace Anypay

open Store Async Proc

/-- An evaluated run that did not throw. -/
theorem exists_ok {ε α : Type} {x : Except ε α} (h : x.isOk = true) : ∃ a, x = .ok a := by
  cases x with
  | ok a => exact ⟨a, rfl⟩
  | error e => cases h

theorem ok_of_toOption {ε α : Type} {x : Except ε α} {a : α} (h : x.toOption = some a) :
    x = .ok a := by
  cases x with
  | ok b => rw [Option.some.inj h]
  | error e => cases h

/-- A sequence does not throw where neither part does. -/
theorem except_bind_ok {ε α β : Type} {x : Except ε α} {f : α → Except ε β} {b : β} :
    (x >>= f) = .ok b ↔ ∃ a, x = .ok a ∧ f a = .ok b := by
  cases x with
  | ok a =>
      constructor
      · intro h
        exact ⟨a, rfl, h⟩
      · rintro ⟨a', ha, h⟩
        obtain rfl := Except.ok.inj ha
        exact h
  | error e =>
      constructor
      · intro h
        cases h
      · rintro ⟨a, ha, -⟩
        cases ha

/-! ## The latest of some rows -/

theorem latest_iff {α : Type} {createdAt : α → Time} {where_ : α → Bool} {rows : List α} {r : α} :
    latest createdAt where_ rows r = true ↔
      where_ r = true ∧ ∀ x ∈ rows, where_ x = true → createdAt x ≤ createdAt r := by
  simp only [latest, Bool.and_eq_true, List.all_eq_true, Bool.or_eq_true, Bool.not_eq_true',
    decide_eq_true_eq]
  refine and_congr_right fun _ => forall₂_congr fun x _ => ?_
  cases where_ x <;> simp

/-- Among the rows that match some is the latest. -/
theorem exists_latest {α : Type} {createdAt : α → Time} {where_ : α → Bool} {rows : List α} {x : α}
    (hx : x ∈ rows) (hw : where_ x = true) :
    ∃ r ∈ rows, latest createdAt where_ rows r = true := by
  have hne : rows.filter where_ ≠ [] := List.ne_nil_of_mem (List.mem_filter.mpr ⟨hx, hw⟩)
  obtain ⟨r, hr⟩ := Option.ne_none_iff_exists'.mp
    (fun h => hne ((List.argmax_eq_none (f := createdAt)).mp h))
  obtain ⟨hmem, hwr⟩ := List.mem_filter.mp (List.argmax_mem hr)
  refine ⟨r, hmem, latest_iff.mpr ⟨hwr, fun y hy hwy => ?_⟩⟩
  exact List.le_of_mem_argmax (List.mem_filter.mpr ⟨hy, hwy⟩) hr

namespace Delegate

variable {α β γ δ : Type} [Record α] {d : Delegate α}

/-! ## Outcomes of one step -/

theorem findFirstOrThrow_ok {where_ : α → Bool} {c : Answer} {w : World} {r : α}
    (h : (match (d.get w).pick where_ c.row with
      | some r => Except.ok r
      | none => .error (Failure.notFound d.model)) = .ok r) :
    r ∈ (d.get w).rows ∧ where_ r = true := by
  split at h
  · rename_i x hx
    obtain rfl := Except.ok.inj h
    exact Table.pick_some hx
  · cases h

theorem findFirstOrThrow_error {where_ : α → Bool} {c : Answer} {w : World} {e : Failure}
    (h : (match (d.get w).pick where_ c.row with
      | some r => Except.ok r
      | none => .error (Failure.notFound d.model)) = .error e) :
    e = .notFound d.model ∧ ∀ r ∈ (d.get w).rows, where_ r = false := by
  split at h
  · cases h
  · rename_i hnone
    exact ⟨(Except.error.inj h).symm, Table.pick_none.mp hnone⟩

theorem readLatest_ok {createdAt : α → Time} {where_ : α → Bool} {c : Answer} {w : World} {r : α}
    (h : d.readLatest createdAt where_ c w = .ok r) : r ∈ (d.get w).rows ∧ where_ r = true ∧
      ∀ x ∈ (d.get w).rows, where_ x = true → createdAt x ≤ createdAt r := by
  unfold readLatest at h
  split at h
  · rename_i x hx
    obtain rfl := Except.ok.inj h
    obtain ⟨hmem, hlast⟩ := Table.pick_some hx
    exact ⟨hmem, latest_iff.mp hlast⟩
  · cases h

/-- Each of the latest may be the one that is read. -/
theorem exists_readLatest {createdAt : α → Time} {where_ : α → Bool} {w : World} {r : α}
    (hr : r ∈ (d.get w).rows) (hw : where_ r = true)
    (hlast : ∀ x ∈ (d.get w).rows, where_ x = true → createdAt x ≤ createdAt r) :
    ∃ c, d.readLatest createdAt where_ c w = .ok r := by
  obtain ⟨n, hn⟩ := Table.exists_pick hr (latest_iff.mpr ⟨hw, hlast⟩)
  refine ⟨{ row := n }, ?_⟩
  unfold readLatest
  rw [hn]

/-- It fails only where nothing matches. -/
theorem readLatest_error {createdAt : α → Time} {where_ : α → Bool} {c : Answer} {w : World}
    {e : Failure} (h : d.readLatest createdAt where_ c w = .error e) :
    e = .notFound d.model ∧ ∀ x ∈ (d.get w).rows, where_ x = false := by
  unfold readLatest at h
  split at h
  · cases h
  · rename_i hnone
    refine ⟨(Except.error.inj h).symm, fun x hx => ?_⟩
    by_contra hown
    obtain ⟨r, hr, hlast⟩ := @exists_latest _ createdAt _ _ _ hx
      (Bool.eq_true_of_not_eq_false hown)
    rw [Table.pick_none.mp hnone r hr] at hlast
    cases hlast

theorem commit_ok {w : World} {x : Except TableError (α × Table α)} {r : α}
    (h : (d.commit w x).1 = .ok r) : ∃ t, x = .ok (r, t) ∧ (d.commit w x).2 = d.put w t := by
  cases x with
  | ok p => exact ⟨p.2, by rw [← Except.ok.inj h], rfl⟩
  | error e => cases h

theorem commit_error {w : World} {x : Except TableError (α × Table α)} {e : Failure}
    (h : (d.commit w x).1 = .error e) :
    ∃ te, x = .error te ∧ e = d.failure te ∧ (d.commit w x).2 = w := by
  cases x with
  | ok p => cases h
  | error te => exact ⟨te, rfl, (Except.error.inj h).symm, rfl⟩

/-! ## Evaluated -/

section Exec

variable {where_ : α → Bool} (f : α → Task β) (o : Nat → Answer) (s : World)

theorem exec_findFirst_bind (d : Delegate α) (k : Option α → Task β) :
    ((d.findFirst where_).bind k).exec o s =
      (k ((d.get s).pick where_ (o 0).row)).exec (tail o) s :=
  exec_step_bind _ k o s

theorem exec_findFirstOrThrow_bind (d : Delegate α) :
    ((d.findFirstOrThrow where_).bind f).exec o s =
      match (d.get s).pick where_ (o 0).row with
      | some r => (f r).exec (tail o) s
      | none => (.error (.notFound d.model), s) := by
  rw [findFirstOrThrow, query, exec_step_bind]
  cases (d.get s).pick where_ (o 0).row <;> rfl

theorem exec_create_bind {mk : Time → Nat → α} {hid : ∀ t n, Record.id (mk t n) = n} :
    ((d.create mk hid).bind f).exec o s =
      match (d.get s).insert? (mk (o 0).now) (hid (o 0).now) with
      | .ok (r, t) => (f r).exec (tail o) (d.put s t)
      | .error e => (.error (d.failure e), s) := by
  rw [create, exec_step_bind]
  cases (d.get s).insert? (mk (o 0).now) (hid (o 0).now) <;> rfl

theorem exec_update_bind {i : Nat} {g : Time → α → α}
    {hid : ∀ t r, Record.id (g t r) = Record.id r} :
    ((d.update i g hid).bind f).exec o s =
      match (d.get s).update? i (g (o 0).now) (hid (o 0).now) with
      | .ok (r, t) => (f r).exec (tail o) (d.put s t)
      | .error e => (.error (d.failure e), s) := by
  rw [update, exec_step_bind]
  cases (d.get s).update? i (g (o 0).now) (hid (o 0).now) <;> rfl

variable {f o s}

/-- A row is found: the rest runs with it. -/
theorem exec_found_bind {d : Delegate α} {r : α}
    (h : (d.get s).pick where_ (o 0).row = some r) :
    ((d.findFirstOrThrow where_).bind f).exec o s = (f r).exec (tail o) s := by
  rw [exec_findFirstOrThrow_bind, h]

/-- An update goes through: the rest runs with the new row. -/
theorem exec_updated_bind {d : Delegate α} {i : Nat} {g : Time → α → α}
    {hid : ∀ t r, Record.id (g t r) = Record.id r} {r : α} {t : Table α}
    (h : (d.get s).update? i (g (o 0).now) (hid (o 0).now) = .ok (r, t)) :
    ((d.update i g hid).bind f).exec o s = (f r).exec (tail o) (d.put s t) := by
  rw [exec_update_bind, h]

end Exec

/-! ## Alone -/

section Wp

variable {A : Answer → Prop} {s : World} {where_ : α → Bool} {E : Failure → World → Prop}

theorem wp_findFirst {Q : Option α → World → Prop}
    (hsome : ∀ r ∈ (d.get s).rows, where_ r = true → Q (some r) s)
    (hnone : (∀ r ∈ (d.get s).rows, where_ r = false) → Q none s) :
    (d.findFirst where_).wp A Q E s := by
  refine wp_query (fun c _ a h => ?_) (fun c e h => by cases h)
  obtain rfl := Except.ok.inj h
  cases hp : (d.get s).pick where_ c.row with
  | some r => exact hsome r (Table.pick_some hp).1 (Table.pick_some hp).2
  | none => exact hnone (Table.pick_none.mp hp)

theorem wp_findFirstOrThrow {Q : α → World → Prop}
    (hsome : ∀ r ∈ (d.get s).rows, where_ r = true → Q r s)
    (hnone : (∀ r ∈ (d.get s).rows, where_ r = false) → E (.notFound d.model) s) :
    (d.findFirstOrThrow where_).wp A Q E s := by
  refine wp_query (fun c _ a h => ?_) (fun c e h => ?_)
  · obtain ⟨hr, hw⟩ := findFirstOrThrow_ok h
    exact hsome a hr hw
  · obtain ⟨rfl, hno⟩ := findFirstOrThrow_error h
    exact hnone hno

theorem wp_findMany {Q : List α → World → Prop} (h : Q ((d.get s).select where_) s) :
    (d.findMany where_).wp A Q E s :=
  wp_query (fun _ _ _ he => Except.ok.inj he ▸ h) (fun _ _ he => by cases he)

theorem wp_create_at {Q : α → World → Prop} {mk : Time → Nat → α}
    {hid : ∀ t n, Record.id (mk t n) = n}
    (hok : ∀ c t, A c → t.rows = (d.get s).rows ++ [mk c.now (d.get s).next] →
      t.next = (d.get s).next + 1 → Q (mk c.now (d.get s).next) (d.put s t))
    (herr : ∀ now, (∃ r ∈ (d.get s).rows, Record.key r = Record.key (mk now (d.get s).next) ∧
      Record.key (mk now (d.get s).next) ≠ none) → E (.uniqueConstraint d.model) s) :
    (d.create mk hid).wp A Q E s := by
  refine wp_step (fun c hc a h => ?_) (fun c e h => ?_)
  · obtain ⟨t, ht, hw⟩ := commit_ok h
    obtain ⟨rfl, hrows, hnext⟩ := Table.insert?_ok ht
    rw [hw]
    exact hok c t hc hrows hnext
  · obtain ⟨te, hte, rfl, hw⟩ := commit_error h
    obtain ⟨rfl, r, hr, hk, hne⟩ := Table.insert?_error hte
    rw [hw]
    exact herr c.now ⟨r, hr, hk, hne⟩

theorem wp_create {Q : α → World → Prop} {mk : Time → Nat → α}
    {hid : ∀ t n, Record.id (mk t n) = n}
    (hok : ∀ now t, t.rows = (d.get s).rows ++ [mk now (d.get s).next] →
      t.next = (d.get s).next + 1 → Q (mk now (d.get s).next) (d.put s t))
    (herr : ∀ now, (∃ r ∈ (d.get s).rows, Record.key r = Record.key (mk now (d.get s).next) ∧
      Record.key (mk now (d.get s).next) ≠ none) → E (.uniqueConstraint d.model) s) :
    (d.create mk hid).wp A Q E s :=
  wp_create_at (fun c t _ => hok c.now t) herr

theorem wp_update_at {Q : α → World → Prop} {i : Nat} {f : Time → α → α}
    {hid : ∀ t r, Record.id (f t r) = Record.id r}
    (hok : ∀ c t, A c → ∀ r ∈ (d.get s).rows, Record.id r = i →
      t.rows = Table.patch i (f c.now) (d.get s).rows → t.next = (d.get s).next →
      Q (f c.now r) (d.put s t))
    (herr : ∀ now te, (d.get s).update? i (f now) (hid now) = .error te →
      E (d.failure te) s) : (d.update i f hid).wp A Q E s := by
  refine wp_step (fun c hc a h => ?_) (fun c e h => ?_)
  · obtain ⟨t, ht, hw⟩ := commit_ok h
    obtain ⟨r, hr, hi, rfl, hrows, hnext, -⟩ := Table.update?_ok ht
    rw [hw]
    exact hok c t hc r hr hi hrows hnext
  · obtain ⟨te, hte, rfl, hw⟩ := commit_error h
    rw [hw]
    exact herr c.now te hte

theorem wp_update {Q : α → World → Prop} {i : Nat} {f : Time → α → α}
    {hid : ∀ t r, Record.id (f t r) = Record.id r}
    (hok : ∀ now t, ∀ r ∈ (d.get s).rows, Record.id r = i →
      t.rows = Table.patch i (f now) (d.get s).rows → t.next = (d.get s).next →
      Q (f now r) (d.put s t))
    (herr : ∀ now te, (d.get s).update? i (f now) (hid now) = .error te →
      E (d.failure te) s) : (d.update i f hid).wp A Q E s :=
  wp_update_at (fun c t _ => hok c.now t) herr

/-- An update goes through where it takes no other row's unique value. -/
theorem wp_update_free {Q : α → World → Prop} {i : Nat} {f : Time → α → α}
    {hid : ∀ t r, Record.id (f t r) = Record.id r}
    (hok : ∀ now t, ∀ r ∈ (d.get s).rows, Record.id r = i →
      t.rows = Table.patch i (f now) (d.get s).rows → (d.get s).taken (f now r) = false →
      Q (f now r) (d.put s t))
    (herr : ∀ now te, (d.get s).update? i (f now) (hid now) = .error te →
      E (d.failure te) s) : (d.update i f hid).wp A Q E s := by
  refine wp_step (fun c _ a h => ?_) (fun c e h => ?_)
  · obtain ⟨t, ht, hw⟩ := commit_ok h
    obtain ⟨r, hr, hi, rfl, hrows, -, hfree⟩ := Table.update?_ok ht
    rw [hw]
    exact hok c.now t r hr hi hrows hfree
  · obtain ⟨te, hte, rfl, hw⟩ := commit_error h
    rw [hw]
    exact herr c.now te hte

end Wp

/-! ## Among others -/

section Meets

variable {C : Contract World Answer γ} {R : β → γ → World → Prop}
  {E : Failure → γ → World → Prop} {g : γ} {s : World} {where_ : α → Bool}

theorem meets_findFirst_bind {f : Option α → Task β}
    (hsome : ∀ t, C.rely g s t → ∀ r ∈ (d.get t).rows, where_ r = true →
      (f (some r)).Meets C R E g t)
    (hnone : ∀ t, C.rely g s t → (∀ r ∈ (d.get t).rows, where_ r = false) →
      (f none).Meets C R E g t) :
    ((d.findFirst where_).bind f).Meets C R E g s := by
  refine meets_query_bind (fun t hst c _ a h => ?_) (fun t hst c e h => by cases h)
  obtain rfl := Except.ok.inj h
  cases hp : (d.get t).pick where_ c.row with
  | some r => exact hsome t hst r (Table.pick_some hp).1 (Table.pick_some hp).2
  | none => exact hnone t hst (Table.pick_none.mp hp)

theorem meets_findFirstOrThrow_bind {f : α → Task β}
    (hsome : ∀ t, C.rely g s t → ∀ r ∈ (d.get t).rows, where_ r = true →
      (f r).Meets C R E g t)
    (hnone : ∀ t, C.rely g s t → (∀ r ∈ (d.get t).rows, where_ r = false) →
      ∀ u, C.rely g t u → E (.notFound d.model) g u) :
    ((d.findFirstOrThrow where_).bind f).Meets C R E g s := by
  refine meets_query_bind (fun t hst c _ a h => ?_) (fun t hst c e h => ?_)
  · obtain ⟨hr, hw⟩ := findFirstOrThrow_ok h
    exact hsome t hst a hr hw
  · obtain ⟨rfl, hno⟩ := findFirstOrThrow_error h
    exact hnone t hst hno

theorem meets_findMany_bind {f : List α → Task β}
    (h : ∀ t, C.rely g s t → (f ((d.get t).select where_)).Meets C R E g t) :
    ((d.findMany where_).bind f).Meets C R E g s :=
  meets_query_bind (fun t hst _ _ _ he => Except.ok.inj he ▸ h t hst)
    (fun _ _ _ _ he => by cases he)

theorem meets_create_bind {f : α → Task β} {mk : Time → Nat → α}
    {hid : ∀ t n, Record.id (mk t n) = n}
    (hok : ∀ t, C.rely g s t → ∀ now tb,
      tb.rows = (d.get t).rows ++ [mk now (d.get t).next] →
      ∃ g', C.guar g t (d.put t tb) g' ∧
        (f (mk now (d.get t).next)).Meets C R E g' (d.put t tb))
    (herr : ∀ t, C.rely g s t → E (.uniqueConstraint d.model) g t) :
    ((d.create mk hid).bind f).Meets C R E g s := by
  refine meets_bind (meets_step fun t hst c _ => ?_)
  cases h : (d.commit t ((d.get t).insert? (mk c.now) (hid c.now))).1 with
  | ok a =>
      obtain ⟨tb, htb, hw⟩ := commit_ok h
      obtain ⟨rfl, hrows, -⟩ := Table.insert?_ok htb
      obtain ⟨g', hguar, hf⟩ := hok t hst c.now tb hrows
      rw [hw]
      exact ⟨g', hguar, fun a ha u hu => Except.ok.inj ha ▸ meets_mono_rely hf hu,
        fun _ he => (nomatch he)⟩
  | error e =>
      obtain ⟨te, hte, rfl, hw⟩ := commit_error h
      obtain ⟨rfl, -⟩ := Table.insert?_error hte
      rw [hw]
      exact ⟨g, C.guar_refl g t, fun _ ha => (nomatch ha),
        fun e he u hu => Except.error.inj he ▸ herr u (C.rely_trans hst hu)⟩

/-- A row without a unique value can always be made. -/
theorem meets_create_free_bind {f : α → Task β} {mk : Time → Nat → α}
    {hid : ∀ t n, Record.id (mk t n) = n} (hkey : ∀ now n, Record.key (mk now n) = none)
    (hok : ∀ t, C.rely g s t → ∀ now tb,
      tb.rows = (d.get t).rows ++ [mk now (d.get t).next] →
      ∃ g', C.guar g t (d.put t tb) g' ∧
        (f (mk now (d.get t).next)).Meets C R E g' (d.put t tb)) :
    ((d.create mk hid).bind f).Meets C R E g s := by
  refine meets_bind (meets_step fun t hst c _ => ?_)
  obtain ⟨tb, htb⟩ : ∃ tb, (d.get t).insert? (mk c.now) (hid c.now) = .ok (_, tb) :=
    Table.insert?_of_key_none (hkey c.now (d.get t).next)
  obtain ⟨-, hrows, -⟩ := Table.insert?_ok htb
  obtain ⟨g', hguar, hf⟩ := hok t hst c.now tb hrows
  rw [htb]
  exact ⟨g', hguar, fun a ha u hu => Except.ok.inj ha ▸ meets_mono_rely hf hu,
    fun _ he => (nomatch he)⟩

theorem meets_update_at_bind {k : α → Task β} {i : Nat} {f : Time → α → α}
    {hid : ∀ t r, Record.id (f t r) = Record.id r}
    (hok : ∀ t, C.rely g s t → ∀ c, C.answers g t c → ∀ tb, ∀ r ∈ (d.get t).rows,
      Record.id r = i → tb.rows = Table.patch i (f c.now) (d.get t).rows →
      (d.get t).taken (f c.now r) = false →
      ∃ g', C.guar g t (d.put t tb) g' ∧ (k (f c.now r)).Meets C R E g' (d.put t tb))
    (herr : ∀ t, C.rely g s t → ∀ now te,
      (d.get t).update? i (f now) (hid now) = .error te →
      ∀ u, C.rely g t u → E (d.failure te) g u) :
    ((d.update i f hid).bind k).Meets C R E g s := by
  refine meets_bind (meets_step fun t hst c hc => ?_)
  cases h : (d.commit t ((d.get t).update? i (f c.now) (hid c.now))).1 with
  | ok a =>
      obtain ⟨tb, htb, hw⟩ := commit_ok h
      obtain ⟨r, hr, hi, rfl, hrows, -, hfree⟩ := Table.update?_ok htb
      obtain ⟨g', hguar, hk⟩ := hok t hst c hc tb r hr hi hrows hfree
      rw [hw]
      exact ⟨g', hguar, fun a ha u hu => Except.ok.inj ha ▸ meets_mono_rely hk hu,
        fun _ he => (nomatch he)⟩
  | error e =>
      obtain ⟨te, hte, rfl, hw⟩ := commit_error h
      rw [hw]
      exact ⟨g, C.guar_refl g t, fun _ ha => (nomatch ha),
        fun e he u hu => Except.error.inj he ▸ herr t hst c.now te hte u hu⟩

theorem meets_update_bind {k : α → Task β} {i : Nat} {f : Time → α → α}
    {hid : ∀ t r, Record.id (f t r) = Record.id r}
    (hok : ∀ t, C.rely g s t → ∀ now tb, ∀ r ∈ (d.get t).rows, Record.id r = i →
      tb.rows = Table.patch i (f now) (d.get t).rows →
      (d.get t).taken (f now r) = false →
      ∃ g', C.guar g t (d.put t tb) g' ∧ (k (f now r)).Meets C R E g' (d.put t tb))
    (herr : ∀ t, C.rely g s t → ∀ now te,
      (d.get t).update? i (f now) (hid now) = .error te →
      ∀ u, C.rely g t u → E (d.failure te) g u) :
    ((d.update i f hid).bind k).Meets C R E g s :=
  meets_update_at_bind (fun t hst c _ => hok t hst c.now) herr

end Meets

/-! ## In any state -/

theorem always_findFirstOrThrow {R : World → World → Prop} (hR : ∀ s, R s s)
    (where_ : α → Bool) :
    (d.findFirstOrThrow where_).Always R fun r => where_ r = true :=
  always_step (fun _ s => hR s) fun _ _ _ h => (findFirstOrThrow_ok h).2

/-- A row more, or nothing. -/
theorem always_create {R : World → World → Prop} {mk : Time → Nat → α}
    {hid : ∀ t n, Record.id (mk t n) = n} (hR : ∀ s, R s s)
    (hrow : ∀ s now t, t.rows = (d.get s).rows ++ [mk now (d.get s).next] → R s (d.put s t)) :
    (d.create mk hid).Always R fun _ => True := by
  refine always_step (fun c s => ?_) fun _ _ _ _ => trivial
  cases hr : (d.get s).insert? (mk c.now) (hid c.now) with
  | ok p => exact hrow s c.now p.2 (Table.insert?_ok hr).2.1
  | error e => exact hR s

/-- A row changed, or nothing. -/
theorem always_update {R : World → World → Prop} {i : Nat} {f : Time → α → α}
    {hid : ∀ t r, Record.id (f t r) = Record.id r} (hR : ∀ s, R s s)
    (hrow : ∀ s now t, t.rows = Table.patch i (f now) (d.get s).rows → R s (d.put s t)) :
    (d.update i f hid).Always R fun _ => True := by
  refine always_step (fun c s => ?_) fun _ _ _ _ => trivial
  cases hr : (d.get s).update? i (f c.now) (hid c.now) with
  | ok p =>
      obtain ⟨_, _, _, _, hrows, _⟩ := Table.update?_ok hr
      exact hrow s c.now p.2 hrows
  | error e => exact hR s

/-! ## Views a step leaves alone -/

section Keeps

variable {view : World → δ}

theorem keeps_create {mk : Time → Nat → α} {hid : ∀ t n, Record.id (mk t n) = n}
    (h : ∀ w t, view (d.put w t) = view w) : (d.create mk hid).Keeps view := by
  refine keeps_step fun c w => ?_
  cases hr : (d.get w).insert? (mk c.now) (hid c.now) with
  | ok p => exact h w p.2
  | error e => rfl

theorem keeps_update {i : Nat} {f : Time → α → α}
    {hid : ∀ t r, Record.id (f t r) = Record.id r}
    (h : ∀ w t, view (d.put w t) = view w) : (d.update i f hid).Keeps view := by
  refine keeps_step fun c w => ?_
  cases hr : (d.get w).update? i (f c.now) (hid c.now) with
  | ok p => exact h w p.2
  | error e => rfl

end Keeps

end Delegate

section Steps

theorem wp_ask {α : Type} {A : Answer → Prop} {Q : α → World → Prop}
    {E : Failure → World → Prop} {f : Answer → Except Failure α} {s : World}
    (hok : ∀ c, A c → ∀ a, f c = .ok a → Q a s) (herr : ∀ e, E e s) :
    (ask f).wp A Q E s :=
  wp_query hok fun _ e _ => herr e

/-- What is asked for always comes. -/
theorem wp_ask_ok {α : Type} {A : Answer → Prop} {Q : α → World → Prop}
    {E : Failure → World → Prop} {f : Answer → α} {s : World} (h : ∀ c, A c → Q (f c) s) :
    (ask fun c => .ok (f c)).wp A Q E s :=
  wp_query (fun c hc _ he => Except.ok.inj he ▸ h c hc) fun _ _ he => nomatch he

theorem wp_spawn {A : Answer → Prop} {Q : Unit → World → Prop} {E : Failure → World → Prop}
    {j : Job} {s : World} (h : Q () { s with jobs := s.jobs ++ [j] }) :
    (spawn j).wp A Q E s :=
  wp_step (fun _ _ _ _ => h) fun _ _ he => nomatch he

theorem wp_publish {A : Answer → Prop} {Q : Unit → World → Prop}
    {E : Failure → World → Prop} {key : String} {body : Json} {s : World}
    (h : Q () { s with published := s.published ++ [(key, body)] }) :
    (publish key body).wp A Q E s :=
  wp_step (fun _ _ _ _ => h) fun _ _ he => nomatch he

variable {α β γ δ : Type} {C : Contract World Answer γ} {R : β → γ → World → Prop}
  {E : Failure → γ → World → Prop} {g : γ} {s : World}

theorem meets_ask_bind {h : Answer → Except Failure α} {f : α → Task β}
    (hok : ∀ t, C.rely g s t → ∀ a, (f a).Meets C R E g t)
    (herr : ∀ t, C.rely g s t → ∀ e, E e g t) :
    ((ask h).bind f).Meets C R E g s :=
  meets_query_bind (fun t hst _ _ a _ => hok t hst a)
    (fun _ hst _ e _ u htu => herr u (C.rely_trans hst htu) e)

theorem meets_ofExcept_bind {x : Except Failure α} {f : α → Task β}
    (hok : ∀ a, x = .ok a → (f a).Meets C R E g s)
    (herr : ∀ t, C.rely g s t → ∀ e, E e g t) :
    ((Proc.ofExcept x).bind f).Meets C R E g s := by
  cases x with
  | ok a => exact hok a rfl
  | error e => exact fun u hsu => herr u hsu e

variable {view : World → δ}

theorem keeps_spawn (j : Job) (h : ∀ w, view { w with jobs := w.jobs ++ [j] } = view w) :
    (spawn j).Keeps view :=
  keeps_step fun _ w => h w

theorem keeps_publish (key : String) (body : Json)
    (h : ∀ w ms, view { w with published := ms } = view w) :
    (publish key body).Keeps view :=
  keeps_step fun _ w => h w _

end Steps

end Anypay
