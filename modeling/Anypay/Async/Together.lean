/-
Anypay.Async.Together — programs started together and awaited together.

`Promise.all(ps)` starts its programs at once; their steps interleave in any
order, and it waits for all of them. `Settles ps s outcomes t`: some order of the
steps, with some answers, takes the state from `s` to `t` and ends each program
as `outcomes` says. A program alone is one such order (`settles_exec`).

`FilesOnce` is for programs that only read until, in their last step, they file
one thing in the state. `settles_filed` says what any number of them come to: all
that was filed is there in some order, and each of them ended in a way of its own,
whatever became of the others.

`faulty` is the same program where every step may be refused.
-/
import Mathlib.Data.List.Perm.Basic
import Anypay.Async.Logic

namespace Anypay.Async

variable {σ χ ε α β ρ φ : Type}

/-! ## Any order of steps -/

/-- Some order of steps of these programs. -/
inductive Together : List (Proc σ χ ε α) → σ → List (Proc σ χ ε α) → σ → Prop
  | refl (ps : List (Proc σ χ ε α)) (s : σ) : Together ps s ps s
  | step {ps : List (Proc σ χ ε α)} {s t : σ} {before after : List (Proc σ χ ε α)}
      {write : χ → σ → σ} {next : χ → σ → Proc σ χ ε α}
      (h : Together ps s (before ++ .atomic write next :: after) t) (c : χ) :
      Together ps s (before ++ next c t :: after) (write c t)

/-- All of them have ended, like this. -/
def Settles (ps : List (Proc σ χ ε α)) (s : σ) (outcomes : List (Except ε α)) (t : σ) : Prop :=
  Together ps s (outcomes.map Proc.ofExcept) t

namespace Together

theorem trans {ps qs rs : List (Proc σ χ ε α)} {s t u : σ} (h : Together ps s qs t)
    (h' : Together qs t rs u) : Together ps s rs u := by
  induction h' with
  | refl => exact h
  | step _ c ih => exact ih.step c

/-- One of them is run alone, to its end. -/
theorem exec {before after : List (Proc σ χ ε α)} (p : Proc σ χ ε α) (o : Nat → χ) (s : σ) :
    Together (before ++ p :: after) s (before ++ Proc.ofExcept (p.exec o s).1 :: after)
      (p.exec o s).2 := by
  induction p generalizing o s with
  | done a => exact .refl _ _
  | fail e => exact .refl _ _
  | atomic write next ih =>
      have hfirst := (Together.refl (before ++ Proc.atomic write next :: after) s).step (o 0)
      exact hfirst.trans (ih (o 0) s (Proc.tail o) (write (o 0) s))

/-- Those that have ended beside them change nothing. -/
theorem behind (p : Proc σ χ ε α) {ps qs : List (Proc σ χ ε α)} {s t : σ}
    (h : Together ps s qs t) : Together (p :: ps) s (p :: qs) t := by
  induction h with
  | refl => exact .refl _ _
  | step _ c ih =>
      rw [← List.cons_append] at ih ⊢
      exact ih.step c

end Together

/-- One after the other is an order too. -/
theorem settles_cons {p : Proc σ χ ε α} {ps : List (Proc σ χ ε α)} {s t : σ}
    {outcomes : List (Except ε α)} (o : Nat → χ) (h : Settles ps (p.exec o s).2 outcomes t) :
    Settles (p :: ps) s ((p.exec o s).1 :: outcomes) t :=
  by
  rw [Settles, List.map_cons, ← List.nil_append (_ :: _)]
  exact (Together.exec p o s).trans (h.behind _)

/-! ## Refused steps -/

namespace Proc

/-- Every step may be refused: it then writes nothing, and throws. -/
def faulty : Proc σ χ ε α → Proc σ (χ × Option φ) (ε ⊕ φ) α
  | done a => done a
  | fail e => fail (.inl e)
  | atomic write next =>
      atomic
        (fun c s => match c.2 with
          | none => write c.1 s
          | some _ => s)
        fun c s => match c.2 with
          | none => (next c.1 s).faulty
          | some refusal => fail (.inr refusal)

/-- Where nothing is refused it is the program. -/
theorem exec_faulty (p : Proc σ χ ε α) (o : Nat → χ) (s : σ) :
    (p.faulty (φ := φ)).exec (fun n => (o n, none)) s =
      ((p.exec o s).1.mapError Sum.inl, (p.exec o s).2) := by
  induction p generalizing o s with
  | done a => rfl
  | fail e => rfl
  | atomic write next ih => exact ih (o 0) s (tail o) (write (o 0) s)

/-! ## Programs that read, then file one thing -/

/-- In states `J`, the program only reads; it ends as `Q` or `E` say. -/
def Reads (J : σ → Prop) (Q : β → Prop) (E : ε → Prop) : Proc σ χ ε β → Prop
  | done b => Q b
  | fail e => E e
  | atomic write next => ∀ c s, J s → write c s = s ∧ (next c s).Reads J Q E

/-- The state where these things were filed, in this order, is a `D` state. Among
such states the program reads until it files `r`, with `L r`, in its last step; or it
ends with nothing filed. -/
def FilesOnce (D : List ρ → σ → Prop) (N : Prop) (E : ε → Prop) (L : ρ → Prop) :
    Proc σ χ ε (Option ρ) → Prop
  | done none => N
  | done (some _) => False
  | fail e => E e
  | atomic write next => ∀ c rs s, D rs s →
      (write c s = s ∧ (next c s).FilesOnce D N E L) ∨
        ∃ r, next c s = done (some r) ∧ L r ∧ D (rs ++ [r]) (write c s)

section Rules

variable {J : σ → Prop} {Q : β → Prop} {E : ε → Prop} {D : List ρ → σ → Prop} {N : Prop}
  {L : ρ → Prop}

theorem reads_query {read : χ → σ → Except ε β} (hok : ∀ c s, J s → ∀ b, read c s = .ok b → Q b)
    (herr : ∀ c s, J s → ∀ e, read c s = .error e → E e) : (query read).Reads J Q E := by
  intro c s hs
  refine ⟨rfl, ?_⟩
  cases h : read c s with
  | ok b =>
      simp only [h]
      exact hok c s hs b h
  | error e =>
      simp only [h]
      exact herr c s hs e h

theorem reads_bind {Q' : α → Prop} {p : Proc σ χ ε β} {f : β → Proc σ χ ε α}
    (hp : p.Reads J Q E) (hf : ∀ b, Q b → (f b).Reads J Q' E) : (p.bind f).Reads J Q' E := by
  induction p with
  | done b => exact hf b hp
  | fail e => exact hp
  | atomic write next ih => exact fun c s hs => ⟨(hp c s hs).1, ih c s (hp c s hs).2⟩

theorem reads_mono {Q' : β → Prop} {E' : ε → Prop} {p : Proc σ χ ε β} (hp : p.Reads J Q E)
    (hQ : ∀ b, Q b → Q' b) (hE : ∀ e, E e → E' e) : p.Reads J Q' E' := by
  induction p with
  | done b => exact hQ b hp
  | fail e => exact hE e hp
  | atomic write next ih => exact fun c s hs => ⟨(hp c s hs).1, ih c s (hp c s hs).2⟩

/-- What is read first, whatever has been filed by then. -/
theorem filesOnce_bind {p : Proc σ χ ε β} {f : β → Proc σ χ ε (Option ρ)}
    (hp : p.Reads (fun s => ∃ rs, D rs s) Q E) (hf : ∀ b, Q b → (f b).FilesOnce D N E L) :
    (p.bind f).FilesOnce D N E L := by
  induction p with
  | done b => exact hf b hp
  | fail e => exact hp
  | atomic write next ih =>
      intro c rs s hs
      obtain ⟨hw, hn⟩ := hp c s ⟨rs, hs⟩
      exact .inl ⟨hw, ih c s hn⟩

theorem filesOnce_ofExcept_bind {x : Except ε β} {f : β → Proc σ χ ε (Option ρ)}
    (hok : ∀ b, x = .ok b → (f b).FilesOnce D N E L) (herr : ∀ e, x = .error e → E e) :
    ((Proc.ofExcept x).bind f).FilesOnce D N E L := by
  cases x with
  | ok b => exact hok b rfl
  | error e => exact herr e rfl

/-- Refusals are one more way to end. -/
theorem FilesOnce.faulty {p : Proc σ χ ε (Option ρ)} (h : p.FilesOnce D N E L) :
    (p.faulty (φ := φ)).FilesOnce D N (Sum.elim E fun _ => True) L := by
  induction p with
  | done r =>
      cases r with
      | none => exact h
      | some r => exact h
  | fail e => exact h
  | atomic write next ih =>
      rintro ⟨c, refused⟩ rs s hs
      cases refused with
      | some refusal => exact .inl ⟨rfl, trivial⟩
      | none =>
          rcases h c rs s hs with ⟨hw, hn⟩ | ⟨r, hnext, hL, hD⟩
          · exact .inl ⟨hw, ih c s hn⟩
          · refine .inr ⟨r, ?_, hL, hD⟩
            show (next c s).faulty = _
            rw [hnext]
            rfl

end Rules

end Proc

/-! ## Any number of them -/

/-- The ways such a program ends. -/
inductive Ended (N : Prop) (E : ε → Prop) (L : ρ → Prop) : Except ε (Option ρ) → Prop
  | filed (r : ρ) (h : L r) : Ended N E L (.ok (some r))
  | nothing (h : N) : Ended N E L (.ok none)
  | failed (e : ε) (h : E e) : Ended N E L (.error e)

/-- What a program that ended has filed. -/
def filedBy : Except ε (Option ρ) → Option ρ
  | .ok r => r
  | .error _ => none

section Filing

variable {D : List ρ → σ → Prop} {N : β → Prop} {E : β → ε → Prop} {L : β → ρ → Prop}

/-- What a program has filed so far: something only once it has ended with it. -/
def filedSoFar : Proc σ χ ε (Option ρ) → Option ρ
  | .done r => r
  | _ => none

/-- It still reads, or it has ended with what it filed. -/
def Filing (D : List ρ → σ → Prop) (N : β → Prop) (E : β → ε → Prop) (L : β → ρ → Prop) (x : β)
    (p : Proc σ χ ε (Option ρ)) : Prop :=
  p.FilesOnce D (N x) (E x) (L x) ∨ ∃ r, p = .done (some r) ∧ L x r

theorem Filing.ended {x : β} {r : Except ε (Option ρ)}
    (h : Filing D N E L x (Proc.ofExcept r : Proc σ χ ε (Option ρ))) :
    Ended (N x) (E x) (L x) r := by
  rcases h with h | ⟨r', heq, hL⟩
  · cases r with
    | error e => exact .failed e h
    | ok a =>
        cases a with
        | none => exact .nothing h
        | some a => exact h.elim
  · cases r with
    | error e => cases heq
    | ok a =>
        obtain rfl := Proc.done.inj heq
        exact .filed r' hL

/-- What is filed before the last step of a program: nothing by it. -/
theorem filedSoFar_reading {x : β} {p : Proc σ χ ε (Option ρ)}
    (h : p.FilesOnce D (N x) (E x) (L x)) : filedSoFar p = none := by
  cases p with
  | done r =>
      cases r with
      | none => rfl
      | some r => exact h.elim
  | fail e => rfl
  | atomic write next => rfl

/-- The entry that belongs to one place of the other list. -/
theorem forall₂_split {R : β → α → Prop} {xs : List β} {before after : List α} {a : α}
    (h : List.Forall₂ R xs (before ++ a :: after)) :
    ∃ xs₁ x xs₂, xs = xs₁ ++ x :: xs₂ ∧ List.Forall₂ R xs₁ before ∧ R x a ∧
      List.Forall₂ R xs₂ after := by
  induction before generalizing xs with
  | nil =>
      cases h with
      | cons hx hrest => exact ⟨[], _, _, rfl, .nil, hx, hrest⟩
  | cons b before ih =>
      cases h with
      | cons hb hrest =>
          obtain ⟨xs₁, x, xs₂, rfl, hbefore, hx, hafter⟩ := ih hrest
          exact ⟨_ :: xs₁, x, xs₂, rfl, .cons hb hbefore, hx, hafter⟩

/-- One step of one program, among the others. -/
theorem filing_step {xs : List β} {before after : List (Proc σ χ ε (Option ρ))}
    {write : χ → σ → σ} {next : χ → σ → Proc σ χ ε (Option ρ)} {filed : List ρ} {s : σ}
    (hall : List.Forall₂ (Filing D N E L) xs (before ++ .atomic write next :: after))
    (hD : D filed s)
    (hperm : filed.Perm ((before ++ .atomic write next :: after).filterMap filedSoFar)) (c : χ) :
    List.Forall₂ (Filing D N E L) xs (before ++ next c s :: after) ∧
      ∃ filed', D filed' (write c s) ∧
        filed'.Perm ((before ++ next c s :: after).filterMap filedSoFar) := by
  obtain ⟨xs₁, x, xs₂, rfl, hbefore, hx, hafter⟩ := forall₂_split hall
  have hkeep : Filing D N E L x (next c s) → List.Forall₂ (Filing D N E L) (xs₁ ++ x :: xs₂)
      (before ++ next c s :: after) := fun h => List.rel_append hbefore (.cons h hafter)
  simp only [List.filterMap_append, List.filterMap_cons, filedSoFar] at hperm
  rcases hx with hx | ⟨r, heq, -⟩
  · rcases hx c filed s hD with ⟨hw, hn⟩ | ⟨r, hnext, hL, hD'⟩
    · refine ⟨hkeep (.inl hn), filed, by rwa [hw], ?_⟩
      simpa only [List.filterMap_append, List.filterMap_cons, filedSoFar_reading hn] using hperm
    · refine ⟨hkeep (.inr ⟨r, hnext, hL⟩), filed ++ [r], hD', ?_⟩
      simp only [hnext, List.filterMap_append, List.filterMap_cons, filedSoFar]
      refine (List.perm_append_singleton r filed).trans ?_
      exact (hperm.cons r).trans List.perm_middle.symm
  · cases heq

/-- What any order of their steps comes to. -/
theorem settles_filed {xs : List β} {ps : List (Proc σ χ ε (Option ρ))} {s t : σ}
    {outcomes : List (Except ε (Option ρ))}
    (h : List.Forall₂ (fun x p => p.FilesOnce D (N x) (E x) (L x)) xs ps) (hs : D [] s)
    (hrun : Settles ps s outcomes t) :
    List.Forall₂ (fun x r => Ended (N x) (E x) (L x) r) xs outcomes ∧
      ∃ filed, D filed t ∧ filed.Perm (outcomes.filterMap filedBy) := by
  have hrun' : ∀ qs u, Together ps s qs u → List.Forall₂ (Filing D N E L) xs qs ∧
      ∃ filed, D filed u ∧ filed.Perm (qs.filterMap filedSoFar) := by
    intro qs u hqs
    induction hqs with
    | refl =>
        refine ⟨h.imp fun _ _ hx => .inl hx, [], hs, ?_⟩
        have hnone : ps.filterMap filedSoFar = [] := by
          rw [List.filterMap_eq_nil_iff]
          intro p hp
          obtain ⟨x, -, hx⟩ := (Proc.mem_of_pointwise h).2 p hp
          exact filedSoFar_reading hx
        rw [hnone]
    | step _ c ih =>
        obtain ⟨hall, filed, hD, hperm⟩ := ih
        exact filing_step hall hD hperm c
  obtain ⟨hall, filed, hD, hperm⟩ := hrun' _ t hrun
  refine ⟨(List.forall₂_map_right_iff.mp hall).imp fun _ _ hx => hx.ended, filed, hD, ?_⟩
  have hsame : (outcomes.map Proc.ofExcept).filterMap (filedSoFar (σ := σ) (χ := χ)) =
      outcomes.filterMap filedBy := by
    rw [List.filterMap_map]
    congr 1
    funext r
    cases r <;> rfl
  rwa [hsame] at hperm

end Filing

end Anypay.Async
