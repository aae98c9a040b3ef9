/-
Anypay.Async.Among — one program among others.

`p.Among R s out t` says that `p`, begun in `s`, may end with the outcome `out` in
`t` while others change the state between its steps, each time by an `R` change.
Alone (`among_exec`) is one such run. The rules take a run apart along the program:
`among_bind` at a call, `among_query_bind` at a read, `among_forEach` for a loop
whose body never throws.
-/
import Anypay.Async.Logic

namespace Anypay.Async.Proc

variable {σ χ ε α β : Type} {R : σ → σ → Prop}

/-- The program may end so, others changing the state between its steps. -/
def Among (R : σ → σ → Prop) : Proc σ χ ε α → σ → Except ε α → σ → Prop
  | done a, s, out, t => out = .ok a ∧ t = s
  | fail e, s, out, t => out = .error e ∧ t = s
  | atomic write next, s, out, t => ∃ s' c, R s s' ∧ (next c s').Among R (write c s') out t

/-- A run with no change in between is one of them. -/
theorem among_exec (hR : ∀ s, R s s) (p : Proc σ χ ε α) (o : Nat → χ) (s : σ) :
    p.Among R s (p.exec o s).1 (p.exec o s).2 := by
  induction p generalizing o s with
  | done a => exact ⟨rfl, rfl⟩
  | fail e => exact ⟨rfl, rfl⟩
  | atomic write next ih => exact ⟨s, o 0, hR s, ih (o 0) s (tail o) (write (o 0) s)⟩

/-- A run of two programs, one after the other. -/
theorem among_bind {p : Proc σ χ ε α} {f : α → Proc σ χ ε β} {s t : σ} {out : Except ε β}
    (h : (p.bind f).Among R s out t) :
    (∃ e, p.Among R s (.error e) t ∧ out = .error e) ∨
      ∃ a u, p.Among R s (.ok a) u ∧ (f a).Among R u out t := by
  induction p generalizing s with
  | done a => exact .inr ⟨a, s, ⟨rfl, rfl⟩, h⟩
  | fail e =>
      obtain ⟨rfl, rfl⟩ := h
      exact .inl ⟨e, ⟨rfl, rfl⟩, rfl⟩
  | atomic write next ih =>
      obtain ⟨s', c, hR, hrest⟩ := h
      rcases ih c s' hrest with ⟨e, hp, rfl⟩ | ⟨a, u, hp, hf⟩
      · exact .inl ⟨e, ⟨s', c, hR, hp⟩, rfl⟩
      · exact .inr ⟨a, u, ⟨s', c, hR, hp⟩, hf⟩

/-- A read of something that is always there. -/
theorem among_query_bind {read : σ → α} {f : α → Proc σ χ ε β} {s t : σ} {out : Except ε β}
    (h : ((query fun _ s => .ok (read s)).bind f).Among R s out t) :
    ∃ s', R s s' ∧ (f (read s')).Among R s' out t := by
  obtain ⟨s', c, hR, hrest⟩ := h
  exact ⟨s', hR, hrest⟩

/-- What is caught and passed over never throws. -/
theorem among_caught {p : Proc σ χ ε Unit} {s t : σ} {out : Except ε Unit}
    (h : (p.tryCatch fun _ => done ()).Among R s out t) : out = .ok () := by
  induction p generalizing s with
  | done a => exact h.1
  | fail e => exact h.1
  | atomic write next ih =>
      obtain ⟨s', c, -, hrest⟩ := h
      exact ih c s' hrest

/-- Nor does a loop over such bodies. -/
theorem among_forEach {xs : List β} {body : β → Proc σ χ ε Unit} {s t : σ}
    {out : Except ε Unit} (hbody : ∀ x s t out, (body x).Among R s out t → out = .ok ())
    (h : (forEach xs body).Among R s out t) : out = .ok () := by
  induction xs generalizing s with
  | nil => exact h.1
  | cons x xs ih =>
      rcases among_bind h with ⟨e, hx, -⟩ | ⟨_, u, -, hrest⟩
      · cases hbody x s t _ hx
      · exact ih hrest

/-- What both the program's steps and the changes keep, the run keeps. -/
theorem among_always {K : σ → Prop} {p : Proc σ χ ε α} {s t : σ} {out : Except ε α}
    (hp : p.Always (fun s t => K s → K t) fun _ => True) (hR : ∀ s t, R s t → K s → K t)
    (h : p.Among R s out t) (hs : K s) : K t := by
  induction p generalizing s with
  | done a => exact h.2 ▸ hs
  | fail e => exact h.2 ▸ hs
  | atomic write next ih =>
      obtain ⟨s', c, hchange, hrest⟩ := h
      obtain ⟨hwrite, hnext⟩ := hp c s'
      exact ih c s' hnext hrest (hwrite (hR s s' hchange hs))

end Anypay.Async.Proc
