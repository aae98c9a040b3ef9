/-
Anypay.Histories — the calls of the server one after the other, and what is heard
of some of them.

Payments change by the calls of `Anypay.Server` only; what else there is may change
as it likes in between. Beside them stand the calls one asks about: `call` says
what such a call does to the world, and what is written down of it.
-/
import Anypay.Async.Machine
import Anypay.Server

namespace Anypay

open Async Proc

namespace Histories

/-- A call of the server with what it finds out on its way, anything else, or a call
one asks about. -/
inductive Event (β : Type) where
  | run (op : Op) (o : Nat → Answer)
  | elsewhere (w : World)
  | call (x : β)

structure State (γ : Type) where
  world : World := {}
  heard : List γ := []

variable {β γ : Type}

def step (env : Env) (call : β → World → World × List γ) (s : State γ) :
    Event β → Option (State γ)
  | .run op o => some { s with world := ((program env op).exec o s.world).2 }
  | .elsewhere w => some { s with world := { w with payments := s.world.payments } }
  | .call x => some { world := (call x s.world).1, heard := s.heard ++ (call x s.world).2 }

/-- What is written down of a result, if it is one. -/
def tell {α : Type} (told : α → World → γ) : Except Failure α × World → World × List γ
  | (.ok a, t) => (t, [told a t])
  | (.error _, t) => (t, [])

/-- What is known of the result is known of what is written down. -/
theorem tell_of_wp {α : Type} {p : Task α} {told : α → World → γ} {P : γ → Prop}
    {Q : α → World → Prop} {w : World} (o : Nat → Answer)
    (h : p.wp AnyAnswer Q (fun _ _ => True) w) (hQ : ∀ a t, Q a t → P (told a t)) :
    ∀ y ∈ (tell told (p.exec o w)).2, P y := by
  have hrun := wp_exec h (anyAnswer o)
  intro y hy
  cases heq : p.exec o w with
  | mk r t =>
      rw [heq] at hrun hy
      cases r with
      | error e => exact absurd hy List.not_mem_nil
      | ok a =>
          rw [List.mem_singleton.mp hy]
          exact hQ a t hrun

/-- The calls one asks about find a world that is fit for them. -/
def Fitting (fit : World → β → Prop) (s : State γ) : Event β → Prop
  | .call x => fit s.world x
  | _ => True

open Machine

/-- What is heard of every call that finds a fit world is heard in every history whose
calls do. -/
theorem heard_of_fitting {env : Env} {call : β → World → World × List γ}
    {fit : World → β → Prop} {P : γ → Prop}
    (hcall : ∀ x w, fit w x → ∀ y ∈ (call x w).2, P y) {w : World} {s : State γ}
    (h : Reach (step env call) (Fitting fit) { world := w } s) : ∀ y ∈ s.heard, P y := by
  refine Reach.inv (I := fun s : State γ => ∀ y ∈ s.heard, P y) h
    (fun _ hy => (List.not_mem_nil hy).elim) fun t e u ht hfit hstep => ?_
  cases e with
  | run op o =>
      obtain rfl := Option.some.inj hstep
      exact ht
  | elsewhere w' =>
      obtain rfl := Option.some.inj hstep
      exact ht
  | call x =>
      obtain rfl := Option.some.inj hstep
      intro y hy
      rcases List.mem_append.mp hy with hy | hy
      · exact ht y hy
      · exact hcall x t.world hfit y hy

end Histories

end Anypay
