/-
Anypay.Async.Traces — runs of a pool with their moves.

A TRACE is the list of the moves of a run, each with the pool before and after it, so
that a property can speak of what happened after what. `Traced.inv` is the induction
over a run. `traced_kept` is for calls that keep a contract whose ghost value no step
changes: every call is seen to keep it throughout, and every step by a call is one its
contract allows.
-/
import Anypay.Async.Pool

namespace Anypay.Async.Pool

open Proc

variable {σ χ ε τ γ : Type}

/-- A move, and the pools it lies between. -/
structure Happened (σ χ ε τ : Type) where
  before : Pool σ χ ε τ
  move : Move χ τ
  after : Pool σ χ ε τ

/-- A step of the `i`-th call, which is this one. -/
def Happened.By (e : Happened σ χ ε τ) (i : Nat) (t : τ) : Prop :=
  ∃ c pr, e.move = .run i c ∧ e.before.threads[i]? = some (t, pr)

/-- Some order of admitted moves leads from the first pool to the second: these. -/
inductive Traced (prog : τ → Proc σ χ ε Unit) (admits : Pool σ χ ε τ → Move χ τ → Prop)
    (p : Pool σ χ ε τ) : List (Happened σ χ ε τ) → Pool σ χ ε τ → Prop where
  | start : Traced prog admits p [] p
  | move {trace : List (Happened σ χ ε τ)} {q r : Pool σ χ ε τ} {m : Move χ τ} :
      Traced prog admits p trace q → admits q m → q.move prog m = some r →
        Traced prog admits p (trace ++ [⟨q, m, r⟩]) r

variable {prog : τ → Proc σ χ ε Unit} {admits : Pool σ χ ε τ → Move χ τ → Prop}
  {p q r : Pool σ χ ε τ} {trace : List (Happened σ χ ε τ)}

/-- A run can be traced on. -/
theorem Traced.reaches (h : Traced prog admits p trace q) (hr : Reaches prog admits q r) :
    ∃ rest, Traced prog admits p (trace ++ rest) r := by
  induction hr with
  | refl => exact ⟨[], by rwa [List.append_nil]⟩
  | tail _ hmove ih =>
      obtain ⟨rest, hrest⟩ := ih
      obtain ⟨m, hm, hmv⟩ := hmove
      have hnext := Traced.move hrest hm hmv
      rw [List.append_assoc] at hnext
      exact ⟨_, hnext⟩

/-- A run whose moves are also admitted otherwise. -/
theorem Traced.mono {admits' : Pool σ χ ε τ → Move χ τ → Prop}
    (h : Traced prog admits p trace q) (hadmits : ∀ p m, admits p m → admits' p m) :
    Traced prog admits' p trace q := by
  induction h with
  | start => exact .start
  | move _ hm hmv ih => exact .move ih (hadmits _ _ hm) hmv

/-- What every move keeps, every run has. -/
theorem Traced.inv {I : List (Happened σ χ ε τ) → Pool σ χ ε τ → Prop} (hp : I [] p)
    (hmove : ∀ trace q m r, I trace q → admits q m → q.move prog m = some r →
      I (trace ++ [⟨q, m, r⟩]) r) (h : Traced prog admits p trace q) : I trace q := by
  induction h with
  | start => exact hp
  | move _ hm hmv ih => exact hmove _ _ _ _ ih hm hmv

/-- The ghost value of each call is its own throughout. -/
def Holding (C : Contract σ χ γ) (Q E : γ → σ → Prop) (ghost : τ → γ) (p : Pool σ χ ε τ) :
    Prop :=
  Kept C Q E p (p.threads.map fun th => ghost th.1)

variable {C : Contract σ χ γ} {Q E : γ → σ → Prop} {ghost : τ → γ}

/-- One move, where the others can live with any step a call guarantees. -/
theorem Holding.move {m : Move χ τ} (h : Holding C Q E ghost p)
    (hprog : ∀ t s, (prog t).Meets C (fun _ => Q) (fun _ => E) (ghost t) s)
    (hsame : ∀ {g s t g'}, C.guar g s t g' → g' = g)
    (hrely : ∀ {g s t g'}, C.guar g s t g' → ∀ k, C.rely k s t)
    (hanswers : ∀ i c, m = .run i c → ∀ th, p.threads[i]? = some th →
      C.answers (ghost th.1) p.state c) (hmv : p.move prog m = some q) :
    Holding C Q E ghost q ∧ ∀ i t, (⟨p, m, q⟩ : Happened σ χ ε τ).By i t →
      C.guar (ghost t) p.state q.state (ghost t) := by
  cases m with
  | start t =>
      refine ⟨?_, ?_⟩
      · have hkept := kept_start h hmv (hprog t p.state)
        obtain rfl := move_start hmv
        unfold Holding
        rwa [List.map_append]
      · rintro i t ⟨c, pr, hm, -⟩
        cases hm
  | run i c =>
      have hghost : ∀ g, (p.threads.map fun th => ghost th.1)[i]? = some g →
          ∃ th, p.threads[i]? = some th ∧ ghost th.1 = g := by
        intro g hg
        rwa [List.getElem?_map, Option.map_eq_some_iff] at hg
      obtain ⟨t, pr, g, g', hi, -, hgi, hguar, hnext⟩ := kept_run h hmv fun g hg => by
        obtain ⟨th, hth, rfl⟩ := hghost g hg
        exact hanswers i c rfl th hth
      obtain ⟨th, hth, rfl⟩ := hghost g hgi
      obtain rfl := Option.some.inj (hi.symm.trans hth)
      obtain rfl := hsame hguar
      refine ⟨?_, ?_⟩
      · have hkept := hnext fun j k _ _ => hrely hguar k
        obtain ⟨t', write, next, hi', rfl⟩ := move_run hmv
        obtain ⟨rfl, -⟩ := Prod.mk.inj (Option.some.inj (hi.symm.trans hi'))
        unfold Holding
        rwa [List.map_set]
      · rintro j t' ⟨c', pr', hm, hj⟩
        obtain ⟨rfl, rfl⟩ := Move.run.inj hm
        obtain rfl := congrArg Prod.fst (Option.some.inj (hi.symm.trans hj))
        exact hguar

/-- Calls that keep a contract keep it over a whole run, step by step. -/
theorem traced_kept {s : σ}
    (hprog : ∀ t s, (prog t).Meets C (fun _ => Q) (fun _ => E) (ghost t) s)
    (hsame : ∀ {g s t g'}, C.guar g s t g' → g' = g)
    (hrely : ∀ {g s t g'}, C.guar g s t g' → ∀ k, C.rely k s t)
    (hanswers : ∀ p i c, admits p (.run i c) → ∀ th, p.threads[i]? = some th →
      C.answers (ghost th.1) p.state c)
    (h : Traced prog admits (init s) trace q) :
    (∀ e ∈ trace, ∀ i t, e.By i t → C.guar (ghost t) e.before.state e.after.state (ghost t)) ∧
      ∀ th ∈ q.threads, th.2 = .done () → Q (ghost th.1) q.state := by
  have hall : Holding C Q E ghost q ∧ ∀ e ∈ trace, ∀ i t, e.By i t →
      C.guar (ghost t) e.before.state e.after.state (ghost t) := by
    refine Traced.inv (I := fun trace q => Holding C Q E ghost q ∧ ∀ e ∈ trace, ∀ i t, e.By i t →
      C.guar (ghost t) e.before.state e.after.state (ghost t)) ⟨kept_init s, nofun⟩ ?_ h
    rintro trace p m q ⟨hholding, hpast⟩ hm hmv
    obtain ⟨hnext, hstep⟩ := hholding.move hprog hsame hrely
      (fun i c hrun => hanswers p i c (hrun ▸ hm)) hmv
    refine ⟨hnext, fun e he => ?_⟩
    rcases List.mem_append.mp he with hold | hnew
    · exact hpast e hold
    · rw [List.mem_singleton.mp hnew]
      exact hstep
  refine ⟨hall.2, fun th hth hdone => ?_⟩
  obtain ⟨i, hi⟩ := List.getElem?_of_mem hth
  obtain ⟨g, hg, hmeets⟩ := hall.1.getElem hi
  rw [List.getElem?_map, hi] at hg
  obtain rfl := Option.some.inj hg
  rw [hdone] at hmeets
  exact hmeets q.state (C.rely_refl _ _)

end Anypay.Async.Pool
