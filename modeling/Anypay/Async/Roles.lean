/-
Anypay.Async.Roles — calls that keep to a role, like the two sides of a lock.

The ghost value a call holds is its ROLE, which it never changes; a call that
has ended holds the idle one. A role may be held only in states that ALLOW it,
and two roles that CLASH are never held at the same time. A step has to be
acceptable only to the roles it does not clash with, so a contract may let one
role do what another could not live with.

`Cast` says that the roles are given out like that, and `cast_reaches` that
they stay so, as long as a call starts in a role there is room for: a clashing
role is not allowed just then, or no call under way MAY hold it. Every state
invariant `J` the steps keep comes with it.
-/
import Anypay.Async.Pool

namespace Anypay.Async.Pool

open Proc

variable {σ χ ε τ ρ : Type} {prog : τ → Proc σ χ ε Unit}

/-- What a contract over roles must satisfy. -/
structure Roles (C : Contract σ χ ρ) (J : σ → Prop) (allows : ρ → σ → Prop)
    (clash : ρ → ρ → Prop) (idle : ρ) : Prop where
  same : ∀ {g s t g'}, C.guar g s t g' → g' = g
  keep : ∀ {g s t}, C.guar g s t g → J s → allows g s → J t
  /-- A step leaves its own role allowed, and every role it does not clash with. -/
  allow : ∀ {g k s t}, C.guar g s t g → J s → allows g s → allows k s →
    (k = g ∨ ¬ clash g k) → allows k t
  rely : ∀ {g k s t}, C.guar g s t g → J s → allows g s → ¬ clash g k → C.rely k s t
  idle_allowed : ∀ s, allows idle s
  idle_left : ∀ k, ¬ clash idle k
  idle_right : ∀ k, ¬ clash k idle

/-- Every call keeps the contract in its role; the roles held are allowed and do
not clash; a role other than the idle one is held by a call under way that may
hold it. -/
structure Cast (C : Contract σ χ ρ) (J : σ → Prop) (allows : ρ → σ → Prop)
    (clash : ρ → ρ → Prop) (idle : ρ) (may : τ → ρ → Prop) (p : Pool σ χ ε τ)
    (gs : List ρ) : Prop where
  kept : Kept C (fun _ _ => True) (fun _ _ => True) p gs
  state : J p.state
  allowed : ∀ (i : Nat) g, gs[i]? = some g → allows g p.state
  apart : ∀ (i j : Nat) g k, i ≠ j → gs[i]? = some g → gs[j]? = some k → ¬ clash g k
  held : ∀ (i : Nat) th g, p.threads[i]? = some th → gs[i]? = some g → g ≠ idle →
    th.2.running = true ∧ may th.1 g

variable {C : Contract σ χ ρ} {J : σ → Prop} {allows : ρ → σ → Prop}
  {clash : ρ → ρ → Prop} {idle : ρ} {may : τ → ρ → Prop} {p q : Pool σ χ ε τ} {gs : List ρ}

theorem Cast.init {s : σ} (hs : J s) :
    Cast C J allows clash idle may (Pool.init s : Pool σ χ ε τ) [] where
  kept := kept_init s
  state := hs
  allowed := by simp
  apart := by simp
  held := by simp

/-- There is room beside the role: no call under way may hold it, or it is not
allowed. -/
def Absent (allows : ρ → σ → Prop) (may : τ → ρ → Prop) (k : ρ) (p : Pool σ χ ε τ) : Prop :=
  (p.Idle fun t => may t k) ∨ ¬ allows k p.state

theorem Cast.not_held (h : Cast C J allows clash idle may p gs) {k : ρ} (hk : k ≠ idle)
    (habsent : Absent allows may k p) (i : Nat) : gs[i]? ≠ some k := by
  intro hi
  rcases habsent with hidle | hno
  swap
  · exact hno (h.allowed i k hi)
  obtain ⟨hlt, -⟩ := List.getElem?_eq_some_iff.mp hi
  have hlt' : i < p.threads.length := h.kept.length_eq ▸ hlt
  obtain ⟨hrun, hmay⟩ := h.held i _ k (List.getElem?_eq_getElem hlt') hi hk
  exact hidle _ (List.getElem_mem hlt') hrun hmay

/-- A call may start in a role that is allowed and that nobody clashes with. -/
theorem Cast.start {t : τ} {g : ρ} (hR : Roles C J allows clash idle)
    (h : Cast C J allows clash idle may p gs) (hmv : p.move prog (.start t) = some q)
    (hg : Meets C (fun _ _ _ => True) (fun _ _ _ => True) (prog t) g p.state)
    (hallow : allows g p.state) (hmay : g ≠ idle → (prog t).running = true ∧ may t g)
    (hroom : ∀ k, clash g k ∨ clash k g → Absent allows may k p) :
    Cast C J allows clash idle may q (gs ++ [g]) := by
  have hlen := h.kept.length_eq
  have hkept := kept_start h.kept hmv hg
  have hnew : ∀ (i : Nat) k, gs[i]? = some k → ¬ clash g k ∧ ¬ clash k g := by
    intro i k hi
    by_cases hk : k = idle
    · rw [hk]
      exact ⟨hR.idle_right g, hR.idle_left g⟩
    · constructor
      · exact fun hc => h.not_held hk (hroom k (.inl hc)) i hi
      · exact fun hc => h.not_held hk (hroom k (.inr hc)) i hi
  obtain rfl := move_start hmv
  refine ⟨hkept, h.state, fun i k hi => ?_, fun i j k l hij hi hj => ?_,
    fun i th k hth hi hne => ?_⟩
  · rcases getElem?_concat hi with hi | ⟨-, rfl⟩
    · exact h.allowed i k hi
    · exact hallow
  · rcases getElem?_concat hi with hk | ⟨hi', rfl⟩
    · rcases getElem?_concat hj with hl | ⟨-, rfl⟩
      · exact h.apart i j k l hij hk hl
      · exact (hnew i k hk).2
    · rcases getElem?_concat hj with hl | ⟨hj', -⟩
      · exact (hnew j l hl).1
      · omega
  · rcases getElem?_concat hth with hth | ⟨hth, rfl⟩
    · rcases getElem?_concat hi with hi | ⟨hi, -⟩
      · exact h.held i th k hth hi hne
      · obtain ⟨hlt, -⟩ := List.getElem?_eq_some_iff.mp hth
        omega
    · rcases getElem?_concat hi with hi | ⟨-, rfl⟩
      · obtain ⟨hlt, -⟩ := List.getElem?_eq_some_iff.mp hi
        omega
      · exact hmay hne

/-- A step keeps the roles as they are; a call that ends gives its role back. -/
theorem Cast.run {i : Nat} {c : χ} (hR : Roles C J allows clash idle)
    (h : Cast C J allows clash idle may p gs) (hmv : p.move prog (.run i c) = some q)
    (hc : ∀ g, C.answers g p.state c) : ∃ gs', Cast C J allows clash idle may q gs' := by
  obtain ⟨t, pr, g, g', hi, -, hgi, hguar, hnext⟩ := kept_run h.kept hmv fun g _ => hc g
  obtain rfl := hR.same hguar
  have hallow := h.allowed i g' hgi
  have hkept := hnext fun j k hj hk =>
    hR.rely hguar h.state hallow (h.apart i j g' k (Ne.symm hj) hgi hk)
  have hstate := hR.keep hguar h.state hallow
  have hallowed : ∀ (j : Nat) k, gs[j]? = some k → allows k q.state := by
    intro j k hk
    refine hR.allow hguar h.state hallow (h.allowed j k hk) ?_
    by_cases hj : j = i
    · subst hj
      exact .inl (Option.some.inj (hk.symm.trans hgi))
    · exact .inr (h.apart i j g' k (Ne.symm hj) hgi hk)
  have hself : gs.set i g' = gs := set_same hgi
  rw [hself] at hkept
  obtain ⟨t', write, next, hi', rfl⟩ := move_run hmv
  obtain ⟨rfl, -⟩ := Prod.mk.inj (Option.some.inj (hi.symm.trans hi'))
  obtain ⟨hlt, -⟩ := List.getElem?_eq_some_iff.mp hi
  have hset : (p.threads.set i (t, next c p.state))[i]? = some (t, next c p.state) :=
    List.getElem?_set_self hlt
  have hother : ∀ (j : Nat) th k, j ≠ i →
      (p.threads.set i (t, next c p.state))[j]? = some th → gs[j]? = some k → k ≠ idle →
      th.2.running = true ∧ may th.1 k := by
    intro j th k hj hth hk hne
    rw [List.getElem?_set_ne (Ne.symm hj)] at hth
    exact h.held j th k hth hk hne
  by_cases hend : (next c p.state).running = true
  · refine ⟨gs, hkept, hstate, hallowed, h.apart, fun j th k hth hk hne => ?_⟩
    by_cases hj : j = i
    · subst hj
      rw [hset] at hth
      obtain rfl := Option.some.inj hth
      exact ⟨hend, (h.held j _ k hi hk hne).2⟩
    · exact hother j th k hj hth hk hne
  · have hkept' := hkept.retire hset (by simpa using hend) idle (fun _ => trivial)
      fun _ => trivial
    refine ⟨gs.set i idle, hkept', hstate, fun j k hk => ?_, fun j l k m hjl hk hm => ?_,
      fun j th k hth hk hne => ?_⟩
    · rcases getElem?_set_cases hk with ⟨-, rfl⟩ | ⟨-, hk⟩
      · exact hR.idle_allowed _
      · exact hallowed j k hk
    · rcases getElem?_set_cases hk with ⟨-, rfl⟩ | ⟨-, hk⟩
      · exact hR.idle_left m
      · rcases getElem?_set_cases hm with ⟨-, rfl⟩ | ⟨-, hm⟩
        · exact hR.idle_right k
        · exact h.apart j l k m hjl hk hm
    · rcases getElem?_set_cases hk with ⟨-, rfl⟩ | ⟨hj, hk⟩
      · exact absurd rfl hne
      · exact hother j th k hj hth hk hne

/-- The rule in one piece. Every admitted start finds a role it leaves room for;
then the roles and the invariant are kept in every reachable pool. -/
theorem cast_reaches {admits : Pool σ χ ε τ → Move χ τ → Prop}
    (hR : Roles C J allows clash idle)
    (hstart : ∀ p t, J p.state → admits p (.start t) → ∃ g,
      Meets C (fun _ _ _ => True) (fun _ _ _ => True) (prog t) g p.state ∧
      allows g p.state ∧ (g ≠ idle → (prog t).running = true ∧ may t g) ∧
      ∀ k, clash g k ∨ clash k g → Absent allows may k p)
    (hanswer : ∀ p i c, admits p (.run i c) → ∀ g, C.answers g p.state c)
    (hp : ∃ gs, Cast C J allows clash idle may p gs) (h : Reaches prog admits p q) :
    ∃ gs, Cast C J allows clash idle may q gs := by
  refine reaches_inv (I := fun p => ∃ gs, Cast C J allows clash idle may p gs)
    (fun p m q hp hm hmv => ?_) hp h
  obtain ⟨gs, hcast⟩ := hp
  cases m with
  | start t =>
      obtain ⟨g, hg, hallow, hmay, hroom⟩ := hstart p t hcast.state hm
      exact ⟨_, hcast.start hR hmv hg hallow hmay hroom⟩
  | run i c => exact hcast.run hR hmv (hanswer p i c hm)

/-- A cast keeps its roles under any further invariant its steps keep. -/
theorem Cast.strengthen {I : σ → Prop} (h : Cast C J allows clash idle may p gs)
    (hJ : I p.state) : Cast C (fun s => J s ∧ I s) allows clash idle may p gs :=
  ⟨h.kept, ⟨h.state, hJ⟩, h.allowed, h.apart, h.held⟩

theorem Roles.strengthen {I : σ → Prop} (hR : Roles C J allows clash idle)
    (hkeep : ∀ {g s t}, C.guar g s t g → J s → allows g s → I s → I t) :
    Roles C (fun s => J s ∧ I s) allows clash idle where
  same := hR.same
  keep h hs ha := ⟨hR.keep h hs.1 ha, hkeep h hs.1 ha hs.2⟩
  allow h hs := hR.allow h hs.1
  rely h hs := hR.rely h hs.1
  idle_allowed := hR.idle_allowed
  idle_left := hR.idle_left
  idle_right := hR.idle_right

end Anypay.Async.Pool
