/-
Anypay.Async.Exclusive — calls of one kind that take turns.

A call of the kind is INSIDE while it is under way. Where such a call starts
only while none is inside, it works as if it were alone, with steps of the others
in between: it finds the state at REST, may disturb it, and has to leave it at
rest. The ghost value a call holds says whether it is inside.

`Exclusive` is what a contract over that ghost must satisfy, and `turns_reaches`
the rule in one piece: the state is at rest whenever no call is inside, and what
every step keeps holds at every moment. Where all calls take turns nobody else moves
while one is under way, and `alone_reaches` asks of each only what it does alone.
-/
import Anypay.Async.Pool

namespace Anypay.Async.Pool

open Proc

variable {σ χ ε τ : Type} {prog : τ → Proc σ χ ε Unit}

/-- What a call has to leave behind: rest, if it was inside. -/
def Leaves (Rest : σ → Prop) (g : Bool) (s : σ) : Prop := g = true → Rest s

/-- What a contract for turns must satisfy. -/
structure Exclusive (C : Contract σ χ Bool) (Busy Rest : σ → Prop) : Prop where
  same : ∀ {g s t g'}, C.guar g s t g' → g' = g
  keep : ∀ {g s t}, C.guar g s t g → Busy s → Busy t
  /-- A step from outside does not disturb the rest. -/
  rest : ∀ {s t}, C.guar false s t false → Rest s → Rest t
  /-- Every step suits those outside, a step from outside also the one inside. -/
  outside : ∀ {g s t}, C.guar g s t g → C.rely false s t
  inside : ∀ {s t}, C.guar false s t false → C.rely true s t

/-- Every call keeps the contract; at most one is inside, a call under way of the
kind; and while none is inside the state is at rest. -/
structure Turns (C : Contract σ χ Bool) (Busy Rest : σ → Prop) (kind : τ → Prop)
    (p : Pool σ χ ε τ) (gs : List Bool) : Prop where
  kept : Kept C (Leaves Rest) (Leaves Rest) p gs
  busy : Busy p.state
  rest : true ∉ gs → Rest p.state
  held : ∀ (i : Nat) th, p.threads[i]? = some th → gs[i]? = some true →
    th.2.running = true ∧ kind th.1
  alone : ∀ i j : Nat, gs[i]? = some true → gs[j]? = some true → i = j

variable {C : Contract σ χ Bool} {Busy Rest : σ → Prop} {kind : τ → Prop}
  {p q : Pool σ χ ε τ} {gs : List Bool}

theorem Turns.init {s : σ} (hbusy : Busy s) (hrest : Rest s) :
    Turns C Busy Rest kind (Pool.init s : Pool σ χ ε τ) [] where
  kept := kept_init s
  busy := hbusy
  rest _ := hrest
  held := by simp
  alone := by simp

/-- While no call of the kind is under way none is inside. -/
theorem Turns.none_inside (h : Turns C Busy Rest kind p gs) (hidle : p.Idle kind) :
    true ∉ gs := by
  intro hmem
  obtain ⟨i, hlt, hi⟩ := List.mem_iff_getElem.mp hmem
  have hlt' : i < p.threads.length := h.kept.length_eq ▸ hlt
  obtain ⟨hrun, hkind⟩ := h.held i _ (List.getElem?_eq_getElem hlt')
    (List.getElem?_eq_some_iff.mpr ⟨hlt, hi⟩)
  exact hidle _ (List.getElem_mem hlt') hrun hkind

theorem Turns.at_rest (h : Turns C Busy Rest kind p gs) (hidle : p.Idle kind) :
    Rest p.state := h.rest (h.none_inside hidle)

/-- A call starts outside. -/
theorem Turns.start_outside {t : τ} (h : Turns C Busy Rest kind p gs)
    (hmv : p.move prog (.start t) = some q)
    (hg : Meets C (fun _ => Leaves Rest) (fun _ => Leaves Rest) (prog t) false p.state) :
    Turns C Busy Rest kind q (gs ++ [false]) := by
  have hkept := kept_start h.kept hmv hg
  obtain rfl := move_start hmv
  refine ⟨hkept, h.busy, fun hno => h.rest fun hmem => hno (by simp [hmem]), ?_, ?_⟩
  · intro i th hth hi
    rcases getElem?_concat hi with hi | ⟨-, hg⟩
    · rcases getElem?_concat hth with hth | ⟨hlen, -⟩
      · exact h.held i th hth hi
      · obtain ⟨hlt, -⟩ := List.getElem?_eq_some_iff.mp hi
        have hsame := h.kept.length_eq
        omega
    · cases hg
  · intro i j hi hj
    rcases getElem?_concat hi with hi | ⟨-, hg⟩
    · rcases getElem?_concat hj with hj | ⟨-, hg⟩
      · exact h.alone i j hi hj
      · cases hg
    · cases hg

/-- A call starts inside, where none is. -/
theorem Turns.start_inside {t : τ} (h : Turns C Busy Rest kind p gs)
    (hmv : p.move prog (.start t) = some q)
    (hg : Meets C (fun _ => Leaves Rest) (fun _ => Leaves Rest) (prog t) true p.state)
    (hkind : kind t) (hrun : (prog t).running = true) (hnone : true ∉ gs) :
    Turns C Busy Rest kind q (gs ++ [true]) := by
  have hkept := kept_start h.kept hmv hg
  have hsame := h.kept.length_eq
  have hold : ∀ i : Nat, gs[i]? ≠ some true := fun i hi =>
    hnone (List.mem_of_getElem? hi)
  obtain rfl := move_start hmv
  refine ⟨hkept, h.busy, fun hno => absurd (by simp) hno, ?_, ?_⟩
  · intro i th hth hi
    rcases getElem?_concat hi with hi | ⟨hi, -⟩
    · exact absurd hi (hold i)
    · rcases getElem?_concat hth with hth | ⟨-, rfl⟩
      · obtain ⟨hlt, -⟩ := List.getElem?_eq_some_iff.mp hth
        omega
      · exact ⟨hrun, hkind⟩
  · intro i j hi hj
    rcases getElem?_concat hi with hi | ⟨hi, -⟩
    · exact absurd hi (hold i)
    · rcases getElem?_concat hj with hj | ⟨hj, -⟩
      · exact absurd hj (hold j)
      · omega

/-- A step: of the one inside, which may be its last, or of one outside. -/
theorem Turns.run {i : Nat} {c : χ} (hC : Exclusive C Busy Rest)
    (h : Turns C Busy Rest kind p gs) (hmv : p.move prog (.run i c) = some q)
    (hc : ∀ g, C.answers g p.state c) : ∃ gs', Turns C Busy Rest kind q gs' := by
  obtain ⟨t, pr, g, g', hi, -, hgi, hguar, hnext⟩ := kept_run h.kept hmv fun g _ => hc g
  obtain rfl := hC.same hguar
  have hkept := hnext fun j k hj hk => by
    cases k with
    | false => exact hC.outside hguar
    | true =>
        cases g' with
        | true => exact absurd (h.alone j i hk hgi) hj
        | false => exact hC.inside hguar
  have hself : gs.set i g' = gs := set_same hgi
  rw [hself] at hkept
  have hbusy := hC.keep hguar h.busy
  have hrest : true ∉ gs → Rest q.state := by
    intro hno
    cases g' with
    | true => exact absurd (List.mem_of_getElem? hgi) hno
    | false => exact hC.rest hguar (h.rest hno)
  obtain ⟨t', write, next, hi', rfl⟩ := move_run hmv
  obtain ⟨rfl, -⟩ := Prod.mk.inj (Option.some.inj (hi.symm.trans hi'))
  obtain ⟨hlt, -⟩ := List.getElem?_eq_some_iff.mp hi
  have hset : (p.threads.set i (t, next c p.state))[i]? = some (t, next c p.state) :=
    List.getElem?_set_self hlt
  have hother : ∀ (j : Nat) th, j ≠ i →
      (p.threads.set i (t, next c p.state))[j]? = some th → gs[j]? = some true →
      th.2.running = true ∧ kind th.1 := by
    intro j th hj hth hk
    rw [List.getElem?_set_ne (Ne.symm hj)] at hth
    exact h.held j th hth hk
  by_cases hend : (next c p.state).running = true
  · refine ⟨gs, hkept, hbusy, hrest, fun j th hth hk => ?_, h.alone⟩
    by_cases hj : j = i
    · subst hj
      rw [hset] at hth
      obtain rfl := Option.some.inj hth
      exact ⟨hend, (h.held j _ hi hk).2⟩
    · exact hother j th hj hth hk
  · have hended : (next c p.state).running = false := by simpa using hend
    have hlt' : i < gs.length := by
      obtain ⟨hlt', -⟩ := List.getElem?_eq_some_iff.mp hgi
      exact hlt'
    have hget : ∀ j : Nat, (gs.set i false)[j]? = some true → j ≠ i ∧ gs[j]? = some true := by
      intro j hk
      by_cases hj : j = i
      · subst hj
        rw [List.getElem?_set_self hlt'] at hk
        cases hk
      · rw [List.getElem?_set_ne (Ne.symm hj)] at hk
        exact ⟨hj, hk⟩
    -- the last step of the one inside leaves the state at rest
    have hlast : g' = true → Rest (write c p.state) := by
      intro hg
      obtain ⟨g'', hgi'', hmeets⟩ := hkept.getElem hset
      obtain rfl := Option.some.inj (hgi.symm.trans hgi'')
      cases hpr : next c p.state with
      | done a =>
          rw [hpr] at hmeets
          exact hmeets _ (C.rely_refl _ _) hg
      | fail e =>
          rw [hpr] at hmeets
          exact hmeets _ (C.rely_refl _ _) hg
      | atomic write' next' =>
          rw [hpr] at hended
          cases hended
    refine ⟨gs.set i false, hkept.retire hset hended false nofun nofun, hbusy, fun hno => ?_,
      fun j th hth hk => ?_, fun j l hj hl => ?_⟩
    · cases g' with
      | true => exact hlast rfl
      | false => exact hrest (by rwa [hself] at hno)
    · obtain ⟨hj, hk⟩ := hget j hk
      exact hother j th hj hth hk
    · exact h.alone j l (hget j hj).2 (hget l hl).2

/-- What holds in addition now, and every step keeps, is kept. -/
theorem Turns.with_busy {Busy' : σ → Prop} (h : Turns C Busy Rest kind p gs)
    (hbusy : Busy' p.state) : Turns C Busy' Rest kind p gs where
  kept := h.kept
  busy := hbusy
  rest := h.rest
  held := h.held
  alone := h.alone

/-- A call of the kind starts while none is under way, at rest, and leaves the state
at rest; a call of another kind stays outside. -/
theorem Turns.reaches {admits : Pool σ χ ε τ → Move χ τ → Prop}
    (hC : Exclusive C Busy Rest)
    (hinside : ∀ p t, Busy p.state → admits p (.start t) → kind t → p.Idle kind ∧
      (Rest p.state →
        Meets C (fun _ => Leaves Rest) (fun _ => Leaves Rest) (prog t) true p.state))
    (houtside : ∀ p t, Busy p.state → admits p (.start t) → ¬ kind t →
      Meets C (fun _ => Leaves Rest) (fun _ => Leaves Rest) (prog t) false p.state)
    (hanswer : ∀ p i c, admits p (.run i c) → ∀ g, C.answers g p.state c)
    (hp : ∃ gs, Turns C Busy Rest kind p gs) (h : Reaches prog admits p q) :
    ∃ gs, Turns C Busy Rest kind q gs := by
  refine reaches_inv (I := fun p => ∃ gs, Turns C Busy Rest kind p gs)
    (fun p m q hp hm hmv => ?_) hp h
  obtain ⟨gs, hturns⟩ := hp
  cases m with
  | start t =>
      by_cases hkind : kind t
      · obtain ⟨hidle, hmeets⟩ := hinside p t hturns.busy hm hkind
        have hnone := hturns.none_inside hidle
        by_cases hrun : (prog t).running = true
        · exact ⟨_, hturns.start_inside hmv (hmeets (hturns.rest hnone)) hkind hrun hnone⟩
        · refine ⟨_, hturns.start_outside hmv ?_⟩
          cases hpr : prog t with
          | done a => exact fun _ _ hg => nomatch hg
          | fail e => exact fun _ _ hg => nomatch hg
          | atomic write next =>
              rw [hpr] at hrun
              exact absurd rfl hrun
      · exact ⟨_, hturns.start_outside hmv (houtside p t hturns.busy hm hkind)⟩
  | run i c => exact hturns.run hC hmv (hanswer p i c hm)

/-- The rule in one piece, from where nothing was called yet. -/
theorem turns_reaches {admits : Pool σ χ ε τ → Move χ τ → Prop} {s : σ}
    (hC : Exclusive C Busy Rest)
    (hinside : ∀ p t, Busy p.state → admits p (.start t) → kind t → p.Idle kind ∧
      (Rest p.state →
        Meets C (fun _ => Leaves Rest) (fun _ => Leaves Rest) (prog t) true p.state))
    (houtside : ∀ p t, Busy p.state → admits p (.start t) → ¬ kind t →
      Meets C (fun _ => Leaves Rest) (fun _ => Leaves Rest) (prog t) false p.state)
    (hanswer : ∀ p i c, admits p (.run i c) → ∀ g, C.answers g p.state c)
    (hbusy : Busy s) (hrest : Rest s) (h : Reaches prog admits (Pool.init s) q) :
    Busy q.state ∧ (q.Idle kind → Rest q.state) := by
  obtain ⟨gs, hturns⟩ := Turns.reaches hC hinside houtside hanswer
    ⟨[], Turns.init hbusy hrest⟩ h
  exact ⟨hturns.busy, hturns.at_rest⟩

/-! ## Where all calls take turns -/

/-- Inside, nobody else moves; outside, one does not move. -/
def aloneContract (A : χ → Prop) : Contract σ χ Bool where
  answers _ _ c := A c
  rely g s t := g = true → t = s
  guar g s t g' := g' = g ∧ (g = false → t = s)
  guar_refl _ _ := ⟨rfl, fun _ => rfl⟩
  rely_refl _ _ _ := rfl
  rely_trans h h' hg := (h' hg).trans (h hg)

theorem alone_exclusive {A : χ → Prop} :
    Exclusive (aloneContract A) (fun _ => True) Rest where
  same h := h.1
  keep _ _ := trivial
  rest h hs := h.2 rfl ▸ hs
  outside _ hg := by cases hg
  inside h _ := h.2 rfl

/-- What a call does alone it does in its turn. -/
theorem meets_alone {α : Type} {A : χ → Prop} {Q : α → σ → Prop} {E : ε → σ → Prop}
    {p : Proc σ χ ε α} {s : σ} (h : p.wp A Q E s) :
    p.Meets (aloneContract A) (fun a _ => Q a) (fun e _ => E e) true s := by
  induction p generalizing s with
  | done a =>
      intro t hst
      rw [hst rfl]
      exact h
  | fail e =>
      intro t hst
      rw [hst rfl]
      exact h
  | atomic write next ih =>
      intro t hst c hc
      obtain rfl := hst rfl
      exact ⟨true, ⟨rfl, fun hg => by cases hg⟩, ih c t (h c hc)⟩

/-- Calls that start only while none is under way, and leave the state at rest however
they end, leave it at rest. -/
theorem alone_reaches {A : χ → Prop} {admits : Pool σ χ ε τ → Move χ τ → Prop} {s : σ}
    (hstart : ∀ p t, admits p (.start t) → p.Idle (fun _ => True) ∧
      (Rest p.state → (prog t).wp A (fun _ => Rest) (fun _ => Rest) p.state))
    (hanswer : ∀ p i c, admits p (.run i c) → A c) (hs : Rest s)
    (h : Reaches prog admits (Pool.init s) q) : q.Idle (fun _ => True) → Rest q.state := by
  have hleaves : ∀ g s, Rest s → Leaves Rest g s := fun _ _ hs _ => hs
  have hinside : ∀ p t, True → admits p (.start t) → True → p.Idle (fun _ => True) ∧
      (Rest p.state → (prog t).Meets (aloneContract A) (fun _ => Leaves Rest)
        (fun _ => Leaves Rest) true p.state) := by
    intro p t _ hm _
    obtain ⟨hidle, hwp⟩ := hstart p t hm
    exact ⟨hidle, fun hrest =>
      meets_mono (fun _ => hleaves) (fun _ => hleaves) (meets_alone (hwp hrest))⟩
  exact (turns_reaches alone_exclusive hinside (fun _ _ _ _ hno => absurd trivial hno)
    (fun p i c hm _ => hanswer p i c hm) trivial hs h).2

end Anypay.Async.Pool
