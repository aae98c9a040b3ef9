/-
Anypay.Db.Drift — the rules of `Async.Drift` for Prisma's queries.

A read finds rows in a drifted state; what is said of the row has to survive all drift
after. A write owes one step.
-/
import Anypay.Async.Drift
import Anypay.Db.Rules

namespace Anypay

open Store Async Proc

variable {D : Drift World} {γ α β : Type} {answers : γ → World → Answer → Prop} {g : γ}
  {s : World}

theorem gives_ask {f : Answer → Except Failure α} {P : α → World → Prop}
    (h : ∀ c a, f c = .ok a → ∀ t, P a t) : (ask f).Gives D answers P g s :=
  gives_query fun _ _ c _ a ha u _ => h c a ha u

namespace Delegate

variable [Record α] {d : Delegate α} {where_ : α → Bool}

/-- Where nothing matched, that is known of the state that was read. -/
theorem gives_findFirst_cases {P : Option α → World → Prop}
    (hsome : ∀ t, D.later s t → ∀ r ∈ (d.get t).rows, where_ r = true → ∀ u, D.later t u →
      P (some r) u)
    (hnone : ∀ t, D.later s t → (∀ r ∈ (d.get t).rows, where_ r = false) → ∀ u, D.later t u →
      P none u) : (d.findFirst where_).Gives D answers P g s := by
  refine gives_query fun t hst c _ a h u htu => ?_
  obtain rfl := Except.ok.inj h
  cases hp : (d.get t).pick where_ c.row with
  | some r => exact hsome t hst r (Table.pick_some hp).1 (Table.pick_some hp).2 u htu
  | none => exact hnone t hst (Table.pick_none.mp hp) u htu

theorem gives_findFirst {P : Option α → World → Prop}
    (hsome : ∀ t, D.later s t → ∀ r ∈ (d.get t).rows, where_ r = true → ∀ u, D.later t u →
      P (some r) u)
    (hnone : ∀ t, D.later s t → P none t) : (d.findFirst where_).Gives D answers P g s :=
  gives_findFirst_cases hsome fun _ hst _ u htu => hnone u (D.later_trans hst htu)

/-- The answers allowed may say something of the state that is read. -/
theorem gives_findFirstOrThrow_at {P : α → World → Prop}
    (h : ∀ t, D.later s t → ∀ c, answers g t c → ∀ r ∈ (d.get t).rows, where_ r = true →
      ∀ u, D.later t u → P r u) : (d.findFirstOrThrow where_).Gives D answers P g s := by
  refine gives_query fun t hst c hc a ha u htu => ?_
  obtain ⟨hr, hw⟩ := findFirstOrThrow_ok ha
  exact h t hst c hc a hr hw u htu

theorem gives_findFirstOrThrow {P : α → World → Prop}
    (h : ∀ t, D.later s t → ∀ r ∈ (d.get t).rows, where_ r = true → ∀ u, D.later t u → P r u) :
    (d.findFirstOrThrow where_).Gives D answers P g s :=
  gives_findFirstOrThrow_at fun t hst _ _ => h t hst

theorem gives_create {mk : Time → Nat → α} {hid : ∀ t n, Record.id (mk t n) = n}
    {P : α → World → Prop}
    (h : ∀ t, D.later s t → ∀ now tb, tb.rows = (d.get t).rows ++ [mk now (d.get t).next] →
      D.step t (d.put t tb) ∧ ∀ u, D.later (d.put t tb) u → P (mk now (d.get t).next) u) :
    (d.create mk hid).Gives D answers P g s := by
  refine gives_step fun t hst c _ => ?_
  cases hc : (d.get t).insert? (mk c.now) (hid c.now) with
  | ok x =>
      obtain ⟨a, tb⟩ := x
      obtain ⟨rfl, hrows, -⟩ := Table.insert?_ok hc
      obtain ⟨hstep, hP⟩ := h t hst c.now tb hrows
      refine ⟨hstep, fun a ha u hu => ?_⟩
      obtain rfl := Except.ok.inj ha
      exact hP u hu
  | error e =>
      refine ⟨D.step_refl t, fun a ha => ?_⟩
      cases ha

theorem gives_update {i : Nat} {f : Time → α → α} {hid : ∀ t r, Record.id (f t r) = Record.id r}
    {P : α → World → Prop}
    (h : ∀ t, D.later s t → ∀ now tb, ∀ r ∈ (d.get t).rows, Record.id r = i →
      tb.rows = Table.patch i (f now) (d.get t).rows →
      D.step t (d.put t tb) ∧ ∀ u, D.later (d.put t tb) u → P (f now r) u) :
    (d.update i f hid).Gives D answers P g s := by
  refine gives_step fun t hst c _ => ?_
  cases hc : (d.get t).update? i (f c.now) (hid c.now) with
  | ok x =>
      obtain ⟨a, tb⟩ := x
      obtain ⟨r, hr, hi, rfl, hrows, -, -⟩ := Table.update?_ok hc
      obtain ⟨hstep, hP⟩ := h t hst c.now tb r hr hi hrows
      refine ⟨hstep, fun a ha u hu => ?_⟩
      obtain rfl := Except.ok.inj ha
      exact hP u hu
  | error e =>
      refine ⟨D.step_refl t, fun a ha => ?_⟩
      cases ha

/-- The id of a deleted row is not given again. -/
theorem next_of_delete {t t' : Table α} {i : Nat} {r : α} (h : t.delete? i = .ok (r, t')) :
    t'.next = t.next := by
  unfold Table.delete? at h
  cases hr : t.byId i with
  | none =>
      rw [hr] at h
      cases h
  | some x =>
      rw [hr] at h
      obtain ⟨-, rfl⟩ := Prod.mk.inj (Except.ok.inj h)
      rfl

theorem gives_delete {i : Nat} {P : α → World → Prop}
    (h : ∀ t, D.later s t → ∀ tb, ∀ r ∈ (d.get t).rows, Record.id r = i →
      tb.rows = (d.get t).rows.filter (fun x => Record.id x != i) → tb.next = (d.get t).next →
      D.step t (d.put t tb) ∧ ∀ u, D.later (d.put t tb) u → P r u) :
    (d.delete i).Gives D answers P g s := by
  refine gives_step fun t hst c _ => ?_
  cases hc : (d.get t).delete? i with
  | ok x =>
      obtain ⟨r, tb⟩ := x
      obtain ⟨hr, hi, hrows⟩ := Table.delete?_ok hc
      obtain ⟨hstep, hP⟩ := h t hst tb r hr hi hrows (next_of_delete hc)
      refine ⟨hstep, fun a ha u hu => ?_⟩
      obtain rfl := Except.ok.inj ha
      exact hP u hu
  | error e =>
      refine ⟨D.step_refl t, fun a ha => ?_⟩
      cases ha

end Delegate

end Anypay
