/-
Anypay.Async.Stages — calls by the place they have come to, and what is seen of
their steps.

Where a program is short it can be followed line by line: a STAGE says which lines
are left, `rest` is the program that is left at it, and a relation `advance` says
what one line does to the state and to which stage it leads. `Staged` gives every
call of a pool its stage.

`Noted` is a run together with the notes an observer makes of its steps, each from
the answer the step got. `noted_inv` is the induction: what holds of notes, state
and stages at the start, and is kept by every line, holds of every run.
-/
import Anypay.Async.Pool

namespace Anypay.Async.Pool

open Proc

variable {σ χ ε τ ι ρ : Type} {prog : τ → Proc σ χ ε Unit}
  {admits : Pool σ χ ε τ → Move χ τ → Prop}

/-! ## Runs and notes -/

/-- What is noted of a move. -/
def notes (see : χ → σ → σ → List ρ) (p : Pool σ χ ε τ) : Move χ τ → Pool σ χ ε τ → List ρ
  | .start _, _ => []
  | .run _ c, q => see c p.state q.state

/-- Some order of admitted moves leads from the first pool to the second, and these
are the notes made on the way. -/
inductive Noted (prog : τ → Proc σ χ ε Unit) (admits : Pool σ χ ε τ → Move χ τ → Prop)
    (see : χ → σ → σ → List ρ) (p : Pool σ χ ε τ) : List ρ → Pool σ χ ε τ → Prop where
  | start : Noted prog admits see p [] p
  | move {log : List ρ} {q r : Pool σ χ ε τ} {m : Move χ τ} :
      Noted prog admits see p log q → admits q m → q.move prog m = some r →
        Noted prog admits see p (log ++ notes see q m r) r

variable {see : χ → σ → σ → List ρ}

theorem Noted.trans {p q r : Pool σ χ ε τ} {log log' : List ρ}
    (h : Noted prog admits see p log q) (h' : Noted prog admits see q log' r) :
    Noted prog admits see p (log ++ log') r := by
  induction h' with
  | start => simpa using h
  | move _ hm hmv ih =>
      rw [← List.append_assoc]
      exact .move ih hm hmv

/-- An evaluated schedule is a run of which something is noted. -/
theorem noted_of_run {ms : List (Move χ τ)} {p q : Pool σ χ ε τ}
    (hadm : Admitted prog admits ms p) (h : run prog ms p = some q) :
    ∃ log, Noted prog admits see p log q := by
  induction ms generalizing p with
  | nil =>
      obtain rfl : p = q := Option.some.inj h
      exact ⟨[], .start⟩
  | cons m ms ih =>
      obtain ⟨r, hr, hrest⟩ := Option.bind_eq_some_iff.mp h
      obtain ⟨log, hlog⟩ := ih (hadm.2 r hr) hrest
      exact ⟨_, Noted.trans (.move .start hadm.1 hr) hlog⟩

/-! ## Stages -/

/-- Every call is one of `mine`, and has come to its stage. -/
def Staged (mine : τ → Prop) (rest : τ → ι → Proc σ χ ε Unit) (p : Pool σ χ ε τ)
    (gs : List ι) : Prop :=
  List.Forall₂ (fun th g => mine th.1 ∧ th.2 = rest th.1 g) p.threads gs

variable {mine : τ → Prop} {rest : τ → ι → Proc σ χ ε Unit}

theorem Staged.start {p q : Pool σ χ ε τ} {gs : List ι} {t : τ} {g : ι}
    (h : Staged mine rest p gs) (hmv : p.move prog (.start t) = some q) (ht : mine t)
    (hg : prog t = rest t g) : Staged mine rest q (gs ++ [g]) := by
  obtain rfl := move_start hmv
  exact List.rel_append h (.cons ⟨ht, hg⟩ .nil)

/-- One line of one call. -/
theorem Staged.run {advance : τ → χ → σ → ι → σ → ι → Prop} {p q : Pool σ χ ε τ}
    {gs : List ι} {i : Nat} {c : χ} (h : Staged mine rest p gs)
    (hstep : ∀ t g write next, rest t g = .atomic write next → ∀ c s,
      ∃ g', next c s = rest t g' ∧ advance t c s g (write c s) g')
    (hmv : p.move prog (.run i c) = some q) :
    ∃ t g g', mine t ∧ gs[i]? = some g ∧ advance t c p.state g q.state g' ∧
      Staged mine rest q (gs.set i g') := by
  obtain ⟨t, write, next, hi, rfl⟩ := move_run hmv
  obtain ⟨hlt, hget⟩ := List.getElem?_eq_some_iff.mp hi
  have hlen : p.threads.length = gs.length := List.Forall₂.length_eq h
  have hlt' : i < gs.length := hlen ▸ hlt
  have hcall : mine (p.threads[i]).1 ∧ (p.threads[i]).2 = rest (p.threads[i]).1 gs[i] :=
    List.Forall₂.get h hlt hlt'
  rw [hget] at hcall
  obtain ⟨ht, hrest⟩ := hcall
  obtain ⟨g', hnext, hadvance⟩ := hstep t gs[i] write next hrest.symm c p.state
  refine ⟨t, gs[i], g', ht, List.getElem?_eq_getElem hlt', hadvance, ?_⟩
  refine List.forall₂_iff_get.mpr ⟨by simp [hlen], fun j h₁ h₂ => ?_⟩
  simp only [List.length_set] at h₁ h₂
  simp only [List.get_eq_getElem, List.getElem_set]
  by_cases hj : i = j
  · simpa only [if_pos hj] using ⟨ht, hnext⟩
  · simp only [if_neg hj]
    exact List.Forall₂.get h h₁ h₂

/-- What every line keeps, every run has. -/
theorem noted_inv {advance : τ → χ → σ → ι → σ → ι → Prop}
    {I : List ρ → σ → List ι → Prop} {s : σ} {log : List ρ} {q : Pool σ χ ε τ}
    (hstep : ∀ t g write next, rest t g = .atomic write next → ∀ c s,
      ∃ g', next c s = rest t g' ∧ advance t c s g (write c s) g')
    (hstart : ∀ q t, admits q (.start t) → mine t ∧ ∃ g, prog t = rest t g ∧
      ∀ log gs, I log q.state gs → I log q.state (gs ++ [g]))
    (hrun : ∀ log s gs i t c g s' g', mine t → I log s gs → gs[i]? = some g →
      advance t c s g s' g' → I (log ++ see c s s') s' (gs.set i g'))
    (hs : I [] s []) (h : Noted prog admits see (Pool.init s) log q) :
    ∃ gs, Staged mine rest q gs ∧ I log q.state gs := by
  induction h with
  | start => exact ⟨[], .nil, hs⟩
  | @move log q r m _ hm hmv ih =>
      obtain ⟨gs, hstaged, hI⟩ := ih
      cases m with
      | start t =>
          obtain ⟨ht, g, hg, hkeep⟩ := hstart q t hm
          have hr : r.state = q.state := by rw [move_start hmv]
          refine ⟨gs ++ [g], hstaged.start hmv ht hg, ?_⟩
          rw [hr, show notes see q (.start t) r = [] from rfl, List.append_nil]
          exact hkeep log gs hI
      | run i c =>
          obtain ⟨t, g, g', ht, hgi, hadvance, hstaged'⟩ := hstaged.run hstep hmv
          exact ⟨gs.set i g', hstaged',
            hrun log q.state gs i t c g r.state g' ht hI hgi hadvance⟩

end Anypay.Async.Pool

namespace Anypay.Async.Proc

variable {σ χ ε α : Type}

/-- What a line that is one step, and what follows, does next. -/
theorem next_step_bind {op : χ → σ → Except ε α × σ} {f : α → Proc σ χ ε Unit}
    {write : χ → σ → σ} {next : χ → σ → Proc σ χ ε Unit}
    (h : (step op).bind f = .atomic write next) (c : χ) (s : σ) :
    write c s = (op c s).2 ∧ ((∃ a, (op c s).1 = .ok a ∧ next c s = f a) ∨
      ∃ e, (op c s).1 = .error e ∧ next c s = .fail e) := by
  obtain ⟨rfl, rfl⟩ := Proc.atomic.inj h
  refine ⟨rfl, ?_⟩
  cases hr : (op c s).1 with
  | ok a => exact .inl ⟨a, rfl, by simp only [hr, done_bind]⟩
  | error e => exact .inr ⟨e, rfl, by simp only [hr, fail_bind]⟩

end Anypay.Async.Proc
