/-
Anypay.Async.Budget — calls that share something there is only so much of.

The ghost value a call holds is a BUDGET: how much it may still use of
something there is a `limit` of. A step may move use from its own budget to the
state and may give some up, never gain any, so the use and all the budgets
together stay within the limit (`Budgeted.run`). A call may start with a
budget only where the limit leaves room for it and no other call that could
hold one is under way (`Budgeted.start`). `budget_reaches` is the rule in one
piece: under such starts the limit is kept in every reachable pool.

`K` is what else is true of the state at every moment; a step may use that the
limit holds when it shows that it keeps `K`.
-/
import Mathlib.Algebra.Ring.Nat
import Anypay.Async.Pool

namespace Anypay.Async.Pool

open Proc

variable {σ χ ε τ : Type} {prog : τ → Proc σ χ ε Unit}

theorem sum_set (l : List Nat) (i : Nat) (a b : Nat) (h : l[i]? = some a) :
    (l.set i b).sum + a = l.sum + b := by
  induction l generalizing i with
  | nil => cases h
  | cons x l ih =>
      cases i with
      | zero =>
          obtain rfl : x = a := Option.some.inj h
          simp only [List.set_cons_zero, List.sum_cons]
          omega
      | succ i =>
          have hrest := ih i h
          simp only [List.set_cons_succ, List.sum_cons]
          omega

/-- All calls keep the contract, the use and the budgets are within the limit,
and only calls under way that are `mine` hold a budget. -/
def Budgeted (C : Contract σ χ Nat) (used : σ → Nat) (limit : Nat) (mine : τ → Prop)
    (K : σ → Prop) (p : Pool σ χ ε τ) : Prop :=
  ∃ gs, Kept C (fun _ _ => True) (fun _ _ => True) p gs ∧
    used p.state + gs.sum ≤ limit ∧ K p.state ∧
    ∀ (i : Nat) th (g : Nat), p.threads[i]? = some th → gs[i]? = some g →
      g ≠ 0 → th.2.running = true ∧ mine th.1

/-- What a contract over budgets must satisfy. -/
structure Thrifty (C : Contract σ χ Nat) (used : σ → Nat) (limit : Nat) (K : σ → Prop) :
    Prop where
  /-- A step pays for what it uses. -/
  spend : ∀ {g s t g'}, C.guar g s t g' → used t + g' ≤ used s + g
  /-- A budget never grows. -/
  le : ∀ {g s t g'}, C.guar g s t g' → g' ≤ g
  /-- What one does the others put up with. -/
  rely : ∀ {g s t g'} (k : Nat), C.guar g s t g' → C.rely k s t
  keep : ∀ {g s t g'}, C.guar g s t g' → used s + g ≤ limit → K s → K t

variable {C : Contract σ χ Nat} {used : σ → Nat} {limit : Nat} {mine : τ → Prop}
  {K : σ → Prop} {p q : Pool σ χ ε τ}

theorem Budgeted.init {s : σ} (hs : used s ≤ limit) (hK : K s) :
    Budgeted C used limit mine K (Pool.init s : Pool σ χ ε τ) :=
  ⟨[], kept_init s, by simpa [Pool.init] using hs, hK, fun _ _ _ _ h => by cases h⟩

/-- While none of `mine` is under way nobody holds a budget. -/
theorem Budgeted.sum_eq_zero {gs : List Nat}
    (hlen : p.threads.length = gs.length) (hidle : p.Idle mine)
    (hown : ∀ (i : Nat) th (g : Nat), p.threads[i]? = some th → gs[i]? = some g →
      g ≠ 0 → th.2.running = true ∧ mine th.1) : gs.sum = 0 := by
  refine List.sum_eq_zero_iff_forall_eq_nat.mpr fun k hk => ?_
  obtain ⟨i, hi, rfl⟩ := List.mem_iff_getElem.mp hk
  by_contra hne
  have hi' : i < p.threads.length := hlen ▸ hi
  obtain ⟨hrun, hmine⟩ := hown i _ _ (List.getElem?_eq_getElem hi')
    (List.getElem?_eq_getElem hi) hne
  exact hidle _ (List.getElem_mem hi') hrun hmine

/-- A call may start without a budget, or with one where none of `mine` is
under way and the limit leaves room for it. -/
theorem Budgeted.start {t : τ} {g : Nat} (h : Budgeted C used limit mine K p)
    (hmv : p.move prog (.start t) = some q)
    (hg : Meets C (fun _ _ _ => True) (fun _ _ _ => True) (prog t) g p.state)
    (hroom : g ≠ 0 → mine t ∧ (prog t).running = true ∧ p.Idle mine ∧
      used p.state + g ≤ limit) :
    Budgeted C used limit mine K q := by
  obtain ⟨gs, hkept, hlimit, hK, hown⟩ := h
  have hlen := hkept.length_eq
  have hkept' := kept_start hkept hmv hg
  obtain rfl := move_start hmv
  refine ⟨gs ++ [g], hkept', ?_, hK, ?_⟩
  · simp only [List.sum_append, List.sum_singleton]
    by_cases hg0 : g = 0
    · omega
    · obtain ⟨-, -, hidle, hfit⟩ := hroom hg0
      have hzero := Budgeted.sum_eq_zero hlen hidle hown
      omega
  · intro i th k hth hk hne
    rcases getElem?_concat hth with hth | ⟨hi, rfl⟩
    · rcases getElem?_concat hk with hk | ⟨hi, -⟩
      · exact hown i th k hth hk hne
      · obtain ⟨hlt, -⟩ := List.getElem?_eq_some_iff.mp hth
        omega
    · rcases getElem?_concat hk with hk | ⟨-, rfl⟩
      · obtain ⟨hlt, -⟩ := List.getElem?_eq_some_iff.mp hk
        omega
      · exact ⟨(hroom hne).2.1, (hroom hne).1⟩

/-- A step keeps the limit: what it uses it takes from its own budget, and a
call that ends gives back what is left. -/
theorem Budgeted.run {i : Nat} {c : χ} (hC : Thrifty C used limit K)
    (h : Budgeted C used limit mine K p) (hmv : p.move prog (.run i c) = some q)
    (hc : ∀ g, C.answers g p.state c) : Budgeted C used limit mine K q := by
  obtain ⟨gs, hkept, hlimit, hKp, hown⟩ := h
  obtain ⟨t, pr, g, g', hi, hrun, hgi, hguar, hnext⟩ := kept_run hkept hmv fun g _ => hc g
  have hkept' := hnext fun _ k _ _ => hC.rely k hguar
  have hlen := hkept.length_eq
  obtain ⟨hlt, -⟩ := List.getElem?_eq_some_iff.mp hi
  have hspent := hC.spend hguar
  have hless := hC.le hguar
  have hzero := sum_set gs i g 0 hgi
  have hKq := hC.keep hguar (by omega) hKp
  obtain ⟨t', write, next, hi', rfl⟩ := move_run hmv
  obtain ⟨rfl, -⟩ := Prod.mk.inj (Option.some.inj (hi.symm.trans hi'))
  have hset : (p.threads.set i (t, next c p.state))[i]? = some (t, next c p.state) :=
    List.getElem?_set_self hlt
  have hold : ∀ (b j : Nat) th (k : Nat), j ≠ i →
      (p.threads.set i (t, next c p.state))[j]? = some th → (gs.set i b)[j]? = some k →
      k ≠ 0 → th.2.running = true ∧ mine th.1 := by
    intro b j th k hj hth hk hne
    rw [List.getElem?_set_ne (Ne.symm hj)] at hth hk
    exact hown j th k hth hk hne
  by_cases hend : (next c p.state).running = true
  · refine ⟨gs.set i g', hkept', ?_, hKq, fun j th k hth hk hne => ?_⟩
    · have hsum := sum_set gs i g g' hgi
      omega
    · by_cases hj : j = i
      · subst hj
        rw [hset] at hth
        rw [List.getElem?_set_self (hlen ▸ hlt)] at hk
        obtain rfl := Option.some.inj hth
        obtain rfl := Option.some.inj hk
        exact ⟨hend, (hown j _ g hi hgi (by omega)).2⟩
      · exact hold g' j th k hj hth hk hne
  · have hkept'' := hkept'.retire hset (by simpa using hend) 0 (fun _ => trivial)
      fun _ => trivial
    rw [List.set_set] at hkept''
    refine ⟨gs.set i 0, hkept'', ?_, hKq, fun j th k hth hk hne => ?_⟩
    · have hsum := sum_set gs i g g' hgi
      omega
    · by_cases hj : j = i
      · subst hj
        rw [List.getElem?_set_self (hlen ▸ hlt)] at hk
        exact absurd (Option.some.inj hk).symm hne
      · exact hold 0 j th k hj hth hk hne

/-- The rule in one piece. Every admitted start finds a budget, and a budget
other than 0 only where nobody else holds one and there is room, which it may show
from what is true at that moment. -/
theorem budget_reaches {admits : Pool σ χ ε τ → Move χ τ → Prop} {s : σ}
    (hC : Thrifty C used limit K)
    (hstart : ∀ p t, admits p (.start t) → K p.state → ∃ g,
      Meets C (fun _ _ _ => True) (fun _ _ _ => True) (prog t) g p.state ∧
      (g ≠ 0 → mine t ∧ (prog t).running = true ∧ p.Idle mine ∧
        used p.state + g ≤ limit))
    (hanswer : ∀ p i c, admits p (.run i c) → ∀ g, C.answers g p.state c)
    (hs : used s ≤ limit) (hK : K s) (h : Reaches prog admits (Pool.init s) q) :
    used q.state ≤ limit ∧ K q.state := by
  have hinv : Budgeted C used limit mine K q := by
    refine reaches_inv (fun p m q hp hm hmv => ?_) (Budgeted.init hs hK) h
    cases m with
    | start t =>
        have hbudgeted := hp
        obtain ⟨-, -, -, hKp, -⟩ := hbudgeted
        obtain ⟨g, hg, hroom⟩ := hstart p t hm hKp
        exact hp.start hmv hg hroom
    | run i c => exact hp.run hC hmv (hanswer p i c hm)
  obtain ⟨gs, -, hlimit, hKq, -⟩ := hinv
  exact ⟨by omega, hKq⟩

end Anypay.Async.Pool
