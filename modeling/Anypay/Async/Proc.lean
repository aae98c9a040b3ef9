/-
Anypay.Async.Proc — programs cut at their awaits.

A JavaScript function that awaits database and network calls is, for every
other function of the same server, a sequence of ATOMIC steps: between two
awaits nothing else runs, at an await anything may. `Proc σ χ ε α` is such a
program over a shared state `σ`. A step reads the state and an ANSWER `χ`
(whatever the outside world decides at that moment: which row an unordered
query returns, what a provider replies, what the clock shows), writes the
state, and continues; a program ends with a value `α` or throws an `ε`.

`bind` and `tryCatch` make this a monad with exceptions, so an async function
is written here line by line as `do` notation. Nothing in this module knows
what the state is.

`exec` runs a program alone; interleaved runs are in `Anypay.Async.Pool`,
the reasoning rules in `Anypay.Async.Logic`.
-/
import Mathlib.Logic.Basic

namespace Anypay.Async

/-- A program of atomic steps. `write` is what the step does to the state and
`next` how the program goes on; both see the answer and the state BEFORE the
step. -/
inductive Proc (σ χ ε α : Type) : Type where
  | done (a : α)
  | fail (e : ε)
  | atomic (write : χ → σ → σ) (next : χ → σ → Proc σ χ ε α)

namespace Proc

variable {σ χ ε α β δ : Type}

/-- Sequencing: `f` goes on where the first program ends, a throw skips it. -/
def bind : Proc σ χ ε α → (α → Proc σ χ ε β) → Proc σ χ ε β
  | done a, f => f a
  | fail e, _ => fail e
  | atomic write next, f => atomic write (fun c s => (next c s).bind f)

/-- `try { p } catch (e) { h e }`. What `p` wrote before it threw stays
written: there is no transaction around an async function. -/
def tryCatch : Proc σ χ ε α → (ε → Proc σ χ ε α) → Proc σ χ ε α
  | done a, _ => done a
  | fail e, h => h e
  | atomic write next, h => atomic write (fun c s => (next c s).tryCatch h)

instance : Monad (Proc σ χ ε) where
  pure := done
  bind := bind

instance : MonadExcept ε (Proc σ χ ε) where
  throw := fail
  tryCatch := tryCatch

/-- One atomic step given by what it computes: a value or an error, and the
state after it. -/
def step (op : χ → σ → Except ε α × σ) : Proc σ χ ε α :=
  atomic (fun c s => (op c s).2) fun c s =>
    match (op c s).1 with
    | .ok a => done a
    | .error e => fail e

/-- A step that only reads. -/
def query (read : χ → σ → Except ε α) : Proc σ χ ε α :=
  step fun c s => (read c s, s)

/-- A value or an error already at hand: no await, no step. -/
protected def ofExcept : Except ε α → Proc σ χ ε α
  | .ok a => done a
  | .error e => fail e

/-- `for (let x of xs) { await body x }`. -/
def forEach : List β → (β → Proc σ χ ε Unit) → Proc σ χ ε Unit
  | [], _ => done ()
  | x :: xs, body => (body x).bind fun _ => forEach xs body

/-- `Promise.all(xs.map(body))`, the bodies run in list order. -/
def mapAll : List β → (β → Proc σ χ ε α) → Proc σ χ ε (List α)
  | [], _ => done []
  | x :: xs, body =>
      (body x).bind fun a => (mapAll xs body).bind fun as => done (a :: as)

/-- How the program ends, as a value. -/
def attempt (p : Proc σ χ ε α) : Proc σ χ ε (Except ε α) :=
  (p.bind fun a => done (.ok a)).tryCatch fun e => done (.error e)

/-- A program over a part of a larger state. -/
def within {τ : Type} (get : τ → σ) (put : σ → τ → τ) : Proc σ χ ε α → Proc τ χ ε α
  | done a => done a
  | fail e => fail e
  | atomic write next =>
      atomic (fun c t => put (write c (get t)) t) fun c t => (next c (get t)).within get put

/-- The program has a step left to run. -/
def running : Proc σ χ ε α → Bool
  | atomic _ _ => true
  | _ => false

/-! ## Equations -/

@[simp] theorem pure_eq (a : α) : (pure a : Proc σ χ ε α) = done a := rfl

@[simp] theorem throw_eq (e : ε) : (throw e : Proc σ χ ε α) = fail e := rfl

@[simp] theorem bind_eq (p : Proc σ χ ε α) (f : α → Proc σ χ ε β) :
    p >>= f = p.bind f := rfl

@[simp] theorem discard_eq (p : Proc σ χ ε α) :
    (discard p : Proc σ χ ε Unit) = p.bind fun _ => done () := rfl

@[simp] theorem done_bind (a : α) (f : α → Proc σ χ ε β) :
    (done a : Proc σ χ ε α).bind f = f a := rfl

@[simp] theorem fail_bind (e : ε) (f : α → Proc σ χ ε β) :
    (fail e : Proc σ χ ε α).bind f = fail e := rfl

@[simp] theorem running_done (a : α) : (done a : Proc σ χ ε α).running = false := rfl

@[simp] theorem running_fail (e : ε) : (fail e : Proc σ χ ε α).running = false := rfl

@[simp] theorem running_atomic (write : χ → σ → σ) (next : χ → σ → Proc σ χ ε α) :
    (atomic write next).running = true := rfl

theorem bind_done (p : Proc σ χ ε α) : p.bind done = p := by
  induction p with
  | done a => rfl
  | fail e => rfl
  | atomic write next ih =>
      simp only [bind]
      congr 1
      funext c s
      exact ih c s

theorem bind_assoc (p : Proc σ χ ε α) (f : α → Proc σ χ ε β)
    (g : β → Proc σ χ ε δ) :
    (p.bind f).bind g = p.bind fun a => (f a).bind g := by
  induction p with
  | done a => rfl
  | fail e => rfl
  | atomic write next ih =>
      simp only [bind]
      congr 1
      funext c s
      exact ih c s

/-- A `try` around two programs, one after the other. -/
theorem tryCatch_bind (p : Proc σ χ ε α) (f : α → Proc σ χ ε β) (h : ε → Proc σ χ ε β) :
    (p.bind f).tryCatch h = p.attempt.bind fun
      | .ok a => (f a).tryCatch h
      | .error e => h e := by
  induction p with
  | done a => rfl
  | fail e => rfl
  | atomic write next ih =>
      simp only [attempt, bind, tryCatch]
      congr 1
      funext c s
      exact ih c s

theorem tryCatch_eq (p : Proc σ χ ε α) (h : ε → Proc σ χ ε α) :
    p.tryCatch h = p.attempt.bind fun
      | .ok a => done a
      | .error e => h e := by
  have hp := tryCatch_bind p done h
  rw [bind_done] at hp
  exact hp

/-- What became of a program says all there is to say. -/
theorem attempt_bind_ofExcept (p : Proc σ χ ε α) : p.attempt.bind Proc.ofExcept = p := by
  induction p with
  | done a => rfl
  | fail e => rfl
  | atomic write next ih =>
      show (atomic write fun c s => ((next c s).attempt).bind Proc.ofExcept) = _
      congr 1
      funext c s
      exact ih c s

instance : LawfulMonad (Proc σ χ ε) :=
  LawfulMonad.mk' _ bind_done (fun _ _ => rfl) bind_assoc

/-! ## Running a program alone -/

/-- Run to the end with nothing in between; `o n` is the answer the `n`-th
step gets. -/
def exec : Proc σ χ ε α → (Nat → χ) → σ → Except ε α × σ
  | done a, _, s => (.ok a, s)
  | fail e, _, s => (.error e, s)
  | atomic write next, o, s =>
      (next (o 0) s).exec (fun n => o (n + 1)) (write (o 0) s)

/-- The answers from the second step on. -/
def tail (o : Nat → χ) : Nat → χ := fun n => o (n + 1)

@[simp] theorem tail_apply (o : Nat → χ) (n : Nat) : tail o n = o (n + 1) := rfl

@[simp] theorem exec_done (a : α) (o : Nat → χ) (s : σ) :
    (done a : Proc σ χ ε α).exec o s = (.ok a, s) := rfl

@[simp] theorem exec_fail (e : ε) (o : Nat → χ) (s : σ) :
    (fail e : Proc σ χ ε α).exec o s = (.error e, s) := rfl

theorem exec_bind (p : Proc σ χ ε α) (f : α → Proc σ χ ε β) (o : Nat → χ) (s : σ) :
    ∃ o', (p.bind f).exec o s =
      match p.exec o s with
      | (.ok a, t) => (f a).exec o' t
      | (.error e, t) => (.error e, t) := by
  induction p generalizing o s with
  | done a => exact ⟨o, rfl⟩
  | fail e => exact ⟨o, rfl⟩
  | atomic write next ih => exact ih (o 0) s (tail o) (write (o 0) s)

/-- Two runs after one another are a run. -/
theorem exec_bind_ok {p : Proc σ χ ε α} {f : α → Proc σ χ ε β} {o o' : Nat → χ} {s t : σ}
    {a : α} (h : p.exec o s = (.ok a, t)) :
    ∃ o'', (p.bind f).exec o'' s = (f a).exec o' t := by
  induction p generalizing o s with
  | done b =>
      obtain ⟨hb, rfl⟩ := Prod.mk.inj h
      obtain rfl := Except.ok.inj hb
      exact ⟨o', rfl⟩
  | fail e => cases (Prod.mk.inj h).1
  | atomic write next ih =>
      obtain ⟨o'', hrest⟩ := ih (o 0) s h
      refine ⟨fun n => n.casesOn (o 0) o'', ?_⟩
      rw [← hrest]
      rfl

/-- One step, then the rest in the state it left. -/
theorem exec_step_bind (op : χ → σ → Except ε α × σ) (f : α → Proc σ χ ε β) (o : Nat → χ)
    (s : σ) : ((step op).bind f).exec o s =
      match (op (o 0) s).1 with
      | .ok a => (f a).exec (tail o) (op (o 0) s).2
      | .error e => (.error e, (op (o 0) s).2) := by
  cases h : (op (o 0) s).1 with
  | ok a =>
      simp only [step, bind, exec, h]
      rfl
  | error e => simp only [step, bind, exec, h]

theorem exec_query_bind (read : χ → σ → Except ε α) (f : α → Proc σ χ ε β) (o : Nat → χ)
    (s : σ) : ((query read).bind f).exec o s =
      match read (o 0) s with
      | .ok a => (f a).exec (tail o) s
      | .error e => (.error e, s) :=
  exec_step_bind _ f o s

theorem exec_ofExcept_bind (x : Except ε α) (f : α → Proc σ χ ε β) (o : Nat → χ) (s : σ) :
    ((Proc.ofExcept x).bind f).exec o s =
      match x with
      | .ok a => (f a).exec o s
      | .error e => (.error e, s) := by
  cases x <;> rfl

/-- Reads that can each find what `f` says can find it all in one run. -/
theorem exec_mapAll_query {read : β → χ → σ → Except ε α} {f : β → α} {xs : List β} {s : σ}
    (h : ∀ x ∈ xs, ∃ c, read x c s = .ok (f x)) (c₀ : χ) :
    ∃ o, (mapAll xs fun x => query (read x)).exec o s = (.ok (xs.map f), s) := by
  induction xs with
  | nil => exact ⟨fun _ => c₀, rfl⟩
  | cons x xs ih =>
      obtain ⟨c, hc⟩ := h x (by simp)
      obtain ⟨o, ho⟩ := ih fun y hy => h y (by simp [hy])
      refine ⟨fun n => n.casesOn c o, ?_⟩
      obtain ⟨o', hrest⟩ := exec_bind (mapAll xs fun x => query (read x))
        (fun as => done (f x :: as)) o s
      simp only [ho, exec_done] at hrest
      rw [mapAll, exec_query_bind]
      show (match read x c s with
        | .ok a => ((mapAll xs fun x => query (read x)).bind fun as => done (a :: as)).exec o s
        | .error e => (.error e, s)) = _
      rw [hc]
      exact hrest

end Proc

end Anypay.Async
