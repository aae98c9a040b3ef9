/-
Anypay.Async.Machine — runs of a machine given by a step function.

A step function says which events a state can meet and what they make of it.
`Reach ok` are the states that can be reached by events a guard `ok` lets
through; the guard sees the state the event finds. `Reach.inv` is the induction
every such proof makes, and `reach_of_run` turns an evaluated run into a
reachable state.
-/
import Mathlib.Logic.Basic

namespace Anypay.Async

namespace Machine

variable {σ ε : Type} (step : σ → ε → Option σ)

/-- Reached from `s` by events the guard lets through. -/
inductive Reach (ok : σ → ε → Prop) (s : σ) : σ → Prop where
  | start : Reach ok s s
  | step {t u : σ} {e : ε} : Reach ok s t → ok t e → step t e = some u → Reach ok s u

/-- No guard at all. -/
def Unguarded : σ → ε → Prop := fun _ _ => True

/-- The state after a list of events. -/
def run (events : List ε) (s : σ) : Option σ := events.foldlM step s

/-- Every event of the list gets past the guard. -/
def Guarded (ok : σ → ε → Prop) : List ε → σ → Prop
  | [], _ => True
  | e :: events, s => ok s e ∧ ∀ t, step s e = some t → Guarded ok events t

variable {step} {ok : σ → ε → Prop} {s t : σ}

/-- An invariant of the start and of every step holds in every state reached. -/
theorem Reach.inv {I : σ → Prop} (h : Reach step ok s t) (hs : I s)
    (hstep : ∀ t e u, I t → ok t e → step t e = some u → I u) : I t := by
  induction h with
  | start => exact hs
  | step _ hok hu ih => exact hstep _ _ _ ih hok hu

theorem Reach.head {u : σ} {e : ε} (hok : ok s e) (hstep : step s e = some t)
    (h : Reach step ok t u) : Reach step ok s u := by
  induction h with
  | start => exact .step .start hok hstep
  | step _ hok' hu ih => exact .step ih hok' hu

/-- A run whose events are all let through. -/
theorem reach_of_run {events : List ε} (hguarded : Guarded step ok events s)
    (h : run step events s = some t) : Reach step ok s t := by
  induction events generalizing s with
  | nil =>
      obtain rfl := Option.some.inj h
      exact .start
  | cons e events ih =>
      obtain ⟨u, hu, h⟩ := Option.bind_eq_some_iff.mp h
      exact .head hguarded.1 hu (ih (hguarded.2 u hu) h)

/-- Events the guard lets through in every state. -/
theorem guarded_of_forall {events : List ε} (h : ∀ e ∈ events, ∀ s, ok s e) (s : σ) :
    Guarded step ok events s := by
  induction events generalizing s with
  | nil => trivial
  | cons e events ih =>
      constructor
      · exact h e List.mem_cons_self s
      · intro t _
        exact ih (fun e he => h e (List.mem_cons_of_mem _ he)) t

/-- Without a guard every run counts. -/
theorem guarded_unguarded (events : List ε) (s : σ) : Guarded step Unguarded events s :=
  guarded_of_forall (fun _ _ _ => trivial) s

end Machine

end Anypay.Async
