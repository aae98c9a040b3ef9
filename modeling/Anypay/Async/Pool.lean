/-
Anypay.Async.Pool — programs running side by side on one state.

A POOL is the shared state and the calls made so far, each with what is left of
its program. A move starts a call or runs one atomic step of a call under way;
any order of moves is a run. `Pool.move` computes a move, so a concrete
schedule can be evaluated; `Pool.Reaches` is the relation the safety theorems
are about, and `reaches_of_run` connects the two.

`reaches_inv` packages the induction over a run once. `Pool.Kept` says that
every call still meets a contract, and `kept_start` / `kept_run` say what a
move does to it: the caller of `kept_run` owes only that the step one call
guarantees is one the others rely on.
-/
import Mathlib.Logic.Relation
import Anypay.Async.Logic

namespace Anypay.Async

open Proc

variable {σ χ ε τ γ : Type}

/-- The shared state and the calls made on it, each with the rest of its
program. A call that has ended stays in its place. -/
structure Pool (σ χ ε τ : Type) where
  state : σ
  threads : List (τ × Proc σ χ ε Unit)

/-- What happens next: a new call, or one step of the `i`-th call with the
answer it gets. -/
inductive Move (χ τ : Type) where
  | start (t : τ)
  | run (i : Nat) (c : χ)

namespace Pool

/-- Nothing called yet. -/
def init (s : σ) : Pool σ χ ε τ := ⟨s, []⟩

variable (prog : τ → Proc σ χ ε Unit)

/-- One move; `none` where there is no such step to run. -/
def move (p : Pool σ χ ε τ) : Move χ τ → Option (Pool σ χ ε τ)
  | .start t => some { p with threads := p.threads ++ [(t, prog t)] }
  | .run i c =>
      match p.threads[i]? with
      | some (t, .atomic write next) =>
          some ⟨write c p.state, p.threads.set i (t, next c p.state)⟩
      | _ => none

/-- A whole schedule. -/
def run : List (Move χ τ) → Pool σ χ ε τ → Option (Pool σ χ ε τ)
  | [], p => some p
  | m :: ms, p => (p.move prog m).bind (run ms)

/-- Some order of admitted moves leads from the first pool to the second. -/
def Reaches (admits : Pool σ χ ε τ → Move χ τ → Prop) :
    Pool σ χ ε τ → Pool σ χ ε τ → Prop :=
  Relation.ReflTransGen fun p q => ∃ m, admits p m ∧ p.move prog m = some q

variable {prog} {admits : Pool σ χ ε τ → Move χ τ → Prop}

/-- What every admitted move keeps, every reachable pool has. -/
theorem reaches_inv {I : Pool σ χ ε τ → Prop} {p q : Pool σ χ ε τ}
    (hmove : ∀ p m q, I p → admits p m → p.move prog m = some q → I q)
    (hp : I p) (h : Reaches prog admits p q) : I q := by
  induction h with
  | refl => exact hp
  | tail _ hstep ih =>
      obtain ⟨m, hm, hmv⟩ := hstep
      exact hmove _ m _ ih hm hmv

/-- Every move of the schedule is admitted in the pool it finds. -/
def Admitted (prog : τ → Proc σ χ ε Unit) (admits : Pool σ χ ε τ → Move χ τ → Prop) :
    List (Move χ τ) → Pool σ χ ε τ → Prop
  | [], _ => True
  | m :: ms, p => admits p m ∧ ∀ q, p.move prog m = some q → Admitted prog admits ms q

/-- The next `n` steps of call `i`, each with the same answer. -/
def steps (i n : Nat) (c : χ) : List (Move χ τ) := List.replicate n (.run i c)

/-- Moves that are admitted wherever they are made. -/
theorem admitted_all {ms : List (Move χ τ)} (h : ∀ m ∈ ms, ∀ p, admits p m)
    (p : Pool σ χ ε τ) : Admitted prog admits ms p := by
  induction ms generalizing p with
  | nil => exact trivial
  | cons m ms ih =>
      exact ⟨h m (by simp) p, fun q _ => ih (fun m' hm' => h m' (by simp [hm'])) q⟩

/-- Steps of calls under way, where those are always admitted. -/
theorem admitted_runs {ms : List (Move χ τ)} (h : ∀ p i c, admits p (.run i c))
    (hms : ∀ m ∈ ms, ∃ i c, m = .run i c) (p : Pool σ χ ε τ) :
    Admitted prog admits ms p := by
  refine admitted_all (fun m hm q => ?_) p
  obtain ⟨i, c, rfl⟩ := hms m hm
  exact h q i c

theorem admitted_steps (h : ∀ p i c, admits p (.run i c)) (i n : Nat) (c : χ)
    (p : Pool σ χ ε τ) : Admitted prog admits (steps i n c) p :=
  admitted_runs h (fun _ hm => ⟨i, c, List.eq_of_mem_replicate hm⟩) p

/-- One schedule after the other. -/
theorem Admitted.append {ms ms' : List (Move χ τ)} {p : Pool σ χ ε τ}
    (h : Admitted prog admits ms p)
    (h' : ∀ q, run prog ms p = some q → Admitted prog admits ms' q) :
    Admitted prog admits (ms ++ ms') p := by
  induction ms generalizing p with
  | nil => exact h' p rfl
  | cons m ms ih =>
      refine ⟨h.1, fun q hq => ih (h.2 q hq) fun r hr => h' r ?_⟩
      exact Option.bind_eq_some_iff.mpr ⟨q, hq, hr⟩

/-- A test of every move of a schedule, in the pool it finds. -/
def checks (prog : τ → Proc σ χ ε Unit) (test : Pool σ χ ε τ → Move χ τ → Bool) :
    List (Move χ τ) → Pool σ χ ε τ → Bool
  | [], _ => true
  | m :: ms, p => test p m && (p.move prog m).all (checks prog test ms)

/-- A schedule whose moves pass a test for being admitted. -/
theorem admitted_of_tested (test : Pool σ χ ε τ → Move χ τ → Bool) {ms : List (Move χ τ)}
    {p : Pool σ χ ε τ} (htest : ∀ m ∈ ms, ∀ p, test p m = true → admits p m)
    (h : checks prog test ms p = true) : Admitted prog admits ms p := by
  induction ms generalizing p with
  | nil => exact trivial
  | cons m ms ih =>
      simp only [checks, Bool.and_eq_true] at h
      refine ⟨htest m (by simp) p h.1, fun q hq => ih (fun m' hm' => htest m' (by simp [hm'])) ?_⟩
      simpa [hq] using h.2

theorem admitted_of_checks {test : Pool σ χ ε τ → Move χ τ → Bool} {ms : List (Move χ τ)}
    {p : Pool σ χ ε τ} (htest : ∀ p m, test p m = true → admits p m)
    (h : checks prog test ms p = true) : Admitted prog admits ms p :=
  admitted_of_tested test (fun m _ p => htest p m) h

/-- An evaluated schedule is a run. -/
theorem reaches_of_run {ms : List (Move χ τ)} {p q : Pool σ χ ε τ}
    (hadm : Admitted prog admits ms p) (h : run prog ms p = some q) :
    Reaches prog admits p q := by
  induction ms generalizing p with
  | nil =>
      obtain rfl : p = q := Option.some.inj h
      exact .refl
  | cons m ms ih =>
      obtain ⟨r, hr, hrest⟩ := Option.bind_eq_some_iff.mp h
      exact .head ⟨m, hadm.1, hr⟩ (ih (hadm.2 r hr) hrest)

/-- What a test finds at the end of a schedule is true of a reachable pool. -/
theorem exists_reaches {ms : List (Move χ τ)} {p : Pool σ χ ε τ}
    (test : Pool σ χ ε τ → Bool) (hadm : Admitted prog admits ms p)
    (h : (run prog ms p).any test = true) :
    ∃ q, Reaches prog admits p q ∧ test q = true := by
  cases hrun : run prog ms p with
  | none => simp [hrun] at h
  | some q => exact ⟨q, reaches_of_run hadm hrun, by simpa [hrun] using h⟩

/-! ## What one move does -/

theorem move_start {p q : Pool σ χ ε τ} {t : τ} (h : p.move prog (.start t) = some q) :
    q = ⟨p.state, p.threads ++ [(t, prog t)]⟩ :=
  (Option.some.inj h).symm

theorem move_run {p q : Pool σ χ ε τ} {i : Nat} {c : χ}
    (h : p.move prog (.run i c) = some q) :
    ∃ t write next, p.threads[i]? = some (t, .atomic write next) ∧
      q = ⟨write c p.state, p.threads.set i (t, next c p.state)⟩ := by
  simp only [move] at h
  split at h
  · rename_i t write next hi
    exact ⟨t, write, next, hi, (Option.some.inj h).symm⟩
  · cases h

/-- No call under way is one of `mine`. -/
def Idle (mine : τ → Prop) (p : Pool σ χ ε τ) : Prop :=
  ∀ th ∈ p.threads, th.2.running = true → ¬ mine th.1

/-- Where every step of every program that may be started is an `R` step, an invariant
is kept that every admitted `R` step keeps. -/
theorem inv_of_always {R : σ → σ → Prop} {I : σ → Prop} {s : σ} {q : Pool σ χ ε τ}
    (hprog : ∀ p t, admits p (.start t) → (prog t).Always R fun _ => True)
    (hmove : ∀ p i c q, admits p (.run i c) → p.move prog (.run i c) = some q →
      R p.state q.state → I p.state → I q.state)
    (hs : I s) (h : Reaches prog admits (init s) q) : I q.state := by
  have hboth : I q.state ∧ ∀ th ∈ q.threads, th.2.Always R fun _ => True := by
    refine reaches_inv (I := fun p => I p.state ∧ ∀ th ∈ p.threads, th.2.Always R fun _ => True)
      (fun p m r hp hm hmv => ?_) ⟨hs, fun _ hth => (List.not_mem_nil hth).elim⟩ h
    cases m with
    | start t =>
        obtain rfl := move_start hmv
        refine ⟨hp.1, fun th hth => ?_⟩
        rcases List.mem_append.mp hth with hth | hth
        · exact hp.2 th hth
        · rw [List.mem_singleton.mp hth]
          exact hprog p t hm
    | run i c =>
        obtain ⟨t, write, next, hi, rfl⟩ := move_run hmv
        obtain ⟨hwrite, hnext⟩ := hp.2 _ (List.mem_of_getElem? hi) c p.state
        refine ⟨hmove p i c _ hm hmv hwrite hp.1, fun th hth => ?_⟩
        rcases List.mem_or_eq_of_mem_set hth with hth | rfl
        · exact hp.2 th hth
        · exact hnext
  exact hboth.1

/-! ## Calls that run alone -/

section Alone

variable {prog : τ → Proc σ χ ε Unit} {admits : Pool σ χ ε τ → Move χ τ → Prop}

/-- A call can be run alone, to its end. -/
theorem reaches_exec (hadmits : ∀ p i c, admits p (.run i c)) {s : σ}
    {threads : List (τ × Proc σ χ ε Unit)} {i : Nat} {t : τ} {pr : Proc σ χ ε Unit}
    (hi : threads[i]? = some (t, pr)) (o : Nat → χ) :
    Reaches prog admits ⟨s, threads⟩
      ⟨(pr.exec o s).2, threads.set i (t, Proc.ofExcept (pr.exec o s).1)⟩ := by
  obtain ⟨hlt, hget⟩ := List.getElem?_eq_some_iff.mp hi
  have hself : threads.set i (t, pr) = threads := by
    rw [← hget]
    exact List.set_getElem_self hlt
  induction pr generalizing s threads o with
  | done a =>
      rw [show threads.set i (t, Proc.ofExcept ((Proc.done a).exec o s).1) = threads from hself]
      exact .refl
  | fail e =>
      rw [show threads.set i (t, Proc.ofExcept ((Proc.fail e).exec o s).1) = threads from hself]
      exact .refl
  | atomic write next ih =>
      have hset : (threads.set i (t, next (o 0) s))[i]? = some (t, next (o 0) s) := by
        simp [hlt]
      have hrest := ih (o 0) s (s := write (o 0) s) hset (Proc.tail o) (by simp [hlt])
        (by simp) (by simp)
      rw [List.set_set] at hrest
      refine .head ⟨.run i (o 0), hadmits _ i _, ?_⟩ hrest
      simp [move, hi]

/-- One call, from its start to its end. -/
theorem reaches_alone (hstart : ∀ p t, admits p (.start t)) (hrun : ∀ p i c, admits p (.run i c))
    (s : σ) (t : τ) (o : Nat → χ) : Reaches prog admits (init s)
      ⟨((prog t).exec o s).2, [(t, Proc.ofExcept ((prog t).exec o s).1)]⟩ := by
  have hfirst : [(t, prog t)][0]? = some (t, prog t) := rfl
  exact .head ⟨.start t, hstart _ t, rfl⟩ (reaches_exec hrun hfirst o)

/-- Calls that can each end well wherever they are run can all end well. -/
theorem exists_reaches_done (hadmits : ∀ p i c, admits p (.run i c))
    (ended rest : List (τ × Proc σ χ ε Unit)) (s : σ)
    (hrest : ∀ th ∈ rest, ∀ s, ∃ o, (th.2.exec o s).1 = .ok ()) :
    ∃ s', Reaches prog admits ⟨s, ended ++ rest⟩
      ⟨s', ended ++ rest.map fun th => (th.1, .done ())⟩ := by
  induction rest generalizing ended s with
  | nil => exact ⟨s, .refl⟩
  | cons th rest ih =>
      obtain ⟨o, ho⟩ := hrest th (by simp) s
      have hth : (ended ++ th :: rest)[ended.length]? = some (th.1, th.2) := by simp
      have hfirst : Reaches prog admits ⟨s, ended ++ th :: rest⟩ _ := reaches_exec hadmits hth o
      rw [ho, List.set_append_right _ _ (Nat.le_refl _), Nat.sub_self, List.set_cons_zero] at hfirst
      obtain ⟨s', hs'⟩ := ih (ended ++ [(th.1, .done ())]) (th.2.exec o s).2
        fun th hth => hrest th (by simp [hth])
      rw [List.append_assoc, List.append_assoc] at hs'
      exact ⟨s', hfirst.trans hs'⟩

end Alone

/-! ## Calls that meet a contract -/

variable (C : Contract σ χ γ) (Q E : γ → σ → Prop)

/-- Every call, holding its ghost value, meets the contract from here on. -/
def Kept (p : Pool σ χ ε τ) (gs : List γ) : Prop :=
  List.Forall₂ (fun th g => Meets C (fun _ => Q) (fun _ => E) th.2 g p.state)
    p.threads gs

variable {C Q E}

theorem kept_init (s : σ) : Kept C Q E (init s : Pool σ χ ε τ) [] := .nil

theorem Kept.length_eq {p : Pool σ χ ε τ} {gs : List γ} (h : Kept C Q E p gs) :
    p.threads.length = gs.length :=
  List.Forall₂.length_eq h

theorem Kept.getElem {p : Pool σ χ ε τ} {gs : List γ} (h : Kept C Q E p gs) {i : Nat}
    {th : τ × Proc σ χ ε Unit} (hi : p.threads[i]? = some th) :
    ∃ g, gs[i]? = some g ∧ Meets C (fun _ => Q) (fun _ => E) th.2 g p.state := by
  obtain ⟨hlt, rfl⟩ := List.getElem?_eq_some_iff.mp hi
  have hlt' : i < gs.length := h.length_eq ▸ hlt
  exact ⟨gs[i], List.getElem?_eq_getElem hlt', List.Forall₂.get h hlt hlt'⟩

theorem kept_start {p q : Pool σ χ ε τ} {gs : List γ} {t : τ} {g : γ}
    (h : Kept C Q E p gs) (hmv : p.move prog (.start t) = some q)
    (hg : Meets C (fun _ => Q) (fun _ => E) (prog t) g p.state) :
    Kept C Q E q (gs ++ [g]) := by
  obtain rfl := move_start hmv
  exact List.rel_append h (.cons hg .nil)

/-- The step a call runs is one its contract allows; if the others can live
with it, everything is kept. -/
theorem kept_run {p q : Pool σ χ ε τ} {gs : List γ} {i : Nat} {c : χ}
    (h : Kept C Q E p gs) (hmv : p.move prog (.run i c) = some q)
    (hc : ∀ g, gs[i]? = some g → C.answers g p.state c) :
    ∃ t pr g g', p.threads[i]? = some (t, pr) ∧ pr.running = true ∧ gs[i]? = some g ∧
      C.guar g p.state q.state g' ∧
      ((∀ j k, j ≠ i → gs[j]? = some k → C.rely k p.state q.state) →
        Kept C Q E q (gs.set i g')) := by
  obtain ⟨t, write, next, hi, rfl⟩ := move_run hmv
  obtain ⟨g, hgi, hmeets⟩ := h.getElem hi
  obtain ⟨g', hguar, hnext⟩ := hmeets p.state (C.rely_refl g _) c (hc g hgi)
  refine ⟨t, _, g, g', hi, rfl, hgi, hguar, fun hrely => ?_⟩
  refine List.forall₂_iff_get.mpr ⟨by simp [h.length_eq], fun j h₁ h₂ => ?_⟩
  simp only [List.length_set] at h₁ h₂
  simp only [List.get_eq_getElem, List.getElem_set]
  by_cases hj : i = j
  · simpa only [if_pos hj] using hnext
  · simp only [if_neg hj]
    exact meets_mono_rely (List.Forall₂.get h h₁ h₂)
      (hrely j _ (Ne.symm hj) (List.getElem?_eq_getElem h₂))

/-- A call that has ended may hold any ghost that nothing is asked of. -/
theorem Kept.retire {p : Pool σ χ ε τ} {gs : List γ} {i : Nat} {t : τ}
    {pr : Proc σ χ ε Unit} (h : Kept C Q E p gs) (hi : p.threads[i]? = some (t, pr))
    (hend : pr.running = false) (g : γ) (hQ : ∀ s, Q g s) (hE : ∀ s, E g s) :
    Kept C Q E p (gs.set i g) := by
  refine List.forall₂_iff_get.mpr ⟨by simp [h.length_eq], fun j h₁ h₂ => ?_⟩
  simp only [List.length_set] at h₂
  simp only [List.get_eq_getElem, List.getElem_set]
  by_cases hj : i = j
  · subst hj
    obtain ⟨_, hget⟩ := List.getElem?_eq_some_iff.mp hi
    simp only [if_pos, hget]
    cases pr with
    | done a => exact fun t _ => hQ t
    | fail e => exact fun t _ => hE t
    | atomic write next => cases hend
  · simp only [if_neg hj]
    exact List.Forall₂.get h h₁ h₂

/-! ## Places in a list -/

/-- Writing what is there already. -/
theorem set_same {α : Type} {l : List α} {a : α} {i : Nat} (h : l[i]? = some a) :
    l.set i a = l := by
  obtain ⟨hlt, hget⟩ := List.getElem?_eq_some_iff.mp h
  rw [← hget]
  exact List.set_getElem_self hlt

/-- A new entry at the end of a list, or an old one. -/
theorem getElem?_concat {α : Type} {l : List α} {a x : α} {i : Nat}
    (h : (l ++ [a])[i]? = some x) : l[i]? = some x ∨ (i = l.length ∧ x = a) := by
  rcases Nat.lt_trichotomy i l.length with hi | rfl | hi
  · rw [List.getElem?_append_left hi] at h
    exact .inl h
  · simp only [List.getElem?_concat_length] at h
    exact .inr ⟨rfl, (Option.some.inj h).symm⟩
  · rw [List.getElem?_eq_none (by simp; omega)] at h
    cases h

/-- What the list holds after one place was written. -/
theorem getElem?_set_cases {α : Type} {l : List α} {a x : α} {i j : Nat}
    (h : (l.set i a)[j]? = some x) : (j = i ∧ x = a) ∨ (j ≠ i ∧ l[j]? = some x) := by
  by_cases hj : j = i
  · subst hj
    obtain ⟨hlt, hget⟩ := List.getElem?_eq_some_iff.mp h
    rw [List.getElem_set_self] at hget
    exact .inl ⟨rfl, hget.symm⟩
  · rw [List.getElem?_set_ne (Ne.symm hj)] at h
    exact .inr ⟨hj, h⟩

end Pool

end Anypay.Async
