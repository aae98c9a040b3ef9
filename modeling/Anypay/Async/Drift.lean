/-
Anypay.Async.Drift — calls that are all held to the same.

A DRIFT says what one step of any call may do to the state, and what any number of
steps, by whichever calls, may have done to it by the time one looks again. Where every
call keeps to the same drift there is no ghost value to pass on, and a call is described
by what it gives: `Proc.Gives D answers P p g s` says that `p`, called from `s`, takes
such steps only and that `P` holds of its result whenever that is looked at. The rules
follow the program; the facts a later part needs are those no drift takes away.

`Growing` puts such calls side by side, each with what it is to leave if it ends well, and
`growing_reaches` is the induction over a run: what a step keeps, every run keeps, and
every run is a drift.
-/
import Anypay.Async.Pool

namespace Anypay.Async

open Proc

variable {σ χ ε τ α β γ : Type}

structure Drift (σ : Type) where
  /-- What one step may do. -/
  step : σ → σ → Prop
  /-- What any number of steps may have done. -/
  later : σ → σ → Prop
  step_refl : ∀ s, step s s
  later_refl : ∀ s, later s s
  later_trans : ∀ {s t u}, later s t → later t u → later s u
  later_of_step : ∀ {s t}, step s t → later s t

/-- The contract of a call: its ghost value, which stays, only says what answers it gets. -/
def Drift.contract (D : Drift σ) (answers : γ → σ → χ → Prop) : Contract σ χ γ where
  answers := answers
  rely _ := D.later
  guar g s t g' := g' = g ∧ D.step s t
  guar_refl _ s := ⟨rfl, D.step_refl s⟩
  rely_refl _ := D.later_refl
  rely_trans := D.later_trans

namespace Proc

/-- What a call gives, however it is run. -/
def Gives (D : Drift σ) (answers : γ → σ → χ → Prop) (P : α → σ → Prop)
    (p : Proc σ χ ε α) (g : γ) (s : σ) : Prop :=
  p.Meets (D.contract answers) (fun a _ t => P a t) (fun _ _ _ => True) g s

variable {D : Drift σ} {answers : γ → σ → χ → Prop} {P P' : α → σ → Prop}
  {R : β → σ → Prop} {g : γ} {s t : σ}

theorem gives_done {a : α} (h : ∀ t, D.later s t → P a t) :
    (done a : Proc σ χ ε α).Gives D answers P g s := h

theorem gives_fail (e : ε) : (fail e : Proc σ χ ε α).Gives D answers P g s :=
  fun _ _ => trivial

/-- Called later. -/
theorem gives_later {p : Proc σ χ ε α} (h : p.Gives D answers P g s) (hst : D.later s t) :
    p.Gives D answers P g t :=
  meets_mono_rely h hst

theorem gives_mono {p : Proc σ χ ε α} (hP : ∀ a t, P a t → P' a t)
    (h : p.Gives D answers P g s) : p.Gives D answers P' g s :=
  meets_mono (fun a _ t => hP a t) (fun _ _ _ h => h) h

/-- However it ends, the state has drifted, and the ghost value is the same. -/
theorem gives_framed {p : Proc σ χ ε α} (h : p.Gives D answers P g s) :
    p.Meets (D.contract answers) (fun a g' t => (P a t ∧ D.later s t) ∧ g' = g)
      (fun _ g' t => (True ∧ D.later s t) ∧ g' = g) g s := by
  refine meets_same (C := D.contract answers) (fun h => h.1) (meets_frame ?_ ?_ (D.later_refl s) h)
  · intro _ _ _ hlater hst
    exact D.later_trans hlater hst
  · intro _ _ _ _ hlater hst
    exact D.later_trans hlater (D.later_of_step hst.2)

/-- One part after the other; the second is called from a drifted state. -/
theorem gives_bind {p : Proc σ χ ε α} {f : α → Proc σ χ ε β} (hp : p.Gives D answers P g s)
    (hf : ∀ a t, D.later s t → P a t → (f a).Gives D answers R g t) :
    (p.bind f).Gives D answers R g s := by
  refine meets_bind (meets_mono ?_ (fun _ _ _ _ => trivial) (gives_framed hp))
  rintro a _ t ⟨⟨ha, hst⟩, rfl⟩
  exact hf a t hst ha

theorem gives_discard {p : Proc σ χ ε α} (h : p.Gives D answers P g s) :
    (discard p : Proc σ χ ε Unit).Gives D answers (fun _ _ => True) g s :=
  meets_discard h

/-- Where an error is handled, the handler is called from a drifted state. -/
theorem gives_tryCatch {p : Proc σ χ ε α} {h : ε → Proc σ χ ε α}
    (hp : p.Gives D answers P g s) (hh : ∀ e t, D.later s t → (h e).Gives D answers P g t) :
    (p.tryCatch h).Gives D answers P g s := by
  refine meets_tryCatch (meets_mono (fun _ _ _ h => h.1.1) ?_ (gives_framed hp))
  rintro e _ t ⟨⟨-, hst⟩, rfl⟩
  exact hh e t hst

theorem gives_forEach {xs : List β} {body : β → Proc σ χ ε Unit}
    (h : ∀ x ∈ xs, ∀ t, D.later s t → (body x).Gives D answers (fun _ _ => True) g t) :
    (forEach xs body).Gives D answers (fun _ _ => True) g s := by
  induction xs generalizing s with
  | nil => exact gives_done fun _ _ => trivial
  | cons x xs ih =>
      refine gives_bind (h x (by simp) s (D.later_refl s)) fun _ t hst _ => ih fun y hy u htu => ?_
      exact h y (by simp [hy]) u (D.later_trans hst htu)

/-- A loop that collects results, each of which is as it should be. -/
theorem gives_mapAll {S : α → Prop} {xs : List β} {body : β → Proc σ χ ε α}
    (h : ∀ x ∈ xs, ∀ t, D.later s t → (body x).Gives D answers (fun a _ => S a) g t) :
    (mapAll xs body).Gives D answers (fun as _ => ∀ a ∈ as, S a) g s := by
  induction xs generalizing s with
  | nil => exact gives_done fun _ _ a ha => by cases ha
  | cons x xs ih =>
      refine gives_bind (h x (by simp) s (D.later_refl s)) fun a t hst ha => ?_
      have hrest := ih fun y hy u htu => h y (by simp [hy]) u (D.later_trans hst htu)
      refine gives_bind hrest fun as u _ has => gives_done fun _ _ b hb => ?_
      rcases List.mem_cons.mp hb with rfl | hb
      · exact ha
      · exact has b hb

/-- One step. -/
theorem gives_step {op : χ → σ → Except ε α × σ}
    (h : ∀ t, D.later s t → ∀ c, answers g t c → D.step t (op c t).2 ∧
      ∀ a, (op c t).1 = .ok a → ∀ u, D.later (op c t).2 u → P a u) :
    (Proc.step op).Gives D answers P g s := by
  refine meets_step fun t hst c hc => ?_
  obtain ⟨hstep, hok⟩ := h t hst c hc
  exact ⟨g, ⟨rfl, hstep⟩, hok, fun _ _ _ _ => trivial⟩

/-- A program that takes allowed steps only, in whatever state, keeps the contract. -/
theorem meets_of_always {C : Contract σ χ γ} {R : σ → σ → Prop} {S : α → Prop}
    {Q : α → γ → σ → Prop} {E : ε → γ → σ → Prop} {p : Proc σ χ ε α}
    (hguar : ∀ s t, R s t → C.guar g s t g) (hQ : ∀ a t, S a → Q a g t) (hE : ∀ e t, E e g t)
    (h : p.Always R S) : p.Meets C Q E g s := by
  induction p generalizing s with
  | done a => exact fun t _ => hQ a t h
  | fail e => exact fun t _ => hE e t
  | atomic write next ih => exact fun t _ c _ => ⟨g, hguar _ _ (h c t).1, ih c t (h c t).2⟩

theorem gives_of_always {S : α → Prop} {p : Proc σ χ ε α} (h : p.Always D.step S) :
    p.Gives D answers (fun a _ => S a) g s :=
  meets_of_always (fun _ _ hst => ⟨rfl, hst⟩) (fun _ _ h => h) (fun _ _ => trivial) h

/-- A step that only reads. -/
theorem gives_query {read : χ → σ → Except ε α}
    (h : ∀ t, D.later s t → ∀ c, answers g t c → ∀ a, read c t = .ok a →
      ∀ u, D.later t u → P a u) : (query read).Gives D answers P g s :=
  gives_step fun t hst c hc => ⟨D.step_refl t, h t hst c hc⟩

end Proc

namespace Pool

variable {D : Drift σ} {answers : γ → σ → χ → Prop} {ghost : τ → γ} {post : Nat → τ → σ → Prop}
  {p q : Pool σ χ ε τ}

/-- Every call under way keeps to the drift, and leaves what it should. -/
def Growing (D : Drift σ) (answers : γ → σ → χ → Prop) (ghost : τ → γ)
    (post : Nat → τ → σ → Prop) (p : Pool σ χ ε τ) : Prop :=
  ∀ (i : Nat) th, p.threads[i]? = some th →
    th.2.Gives D answers (fun _ => post i th.1) (ghost th.1) p.state

theorem growing_init (s : σ) : Growing D answers ghost post (init s : Pool σ χ ε τ) := by
  intro i th hth
  simp [init] at hth

/-- What a call that ended well has left. -/
theorem growing_ended {i : Nat} {t : τ} (h : Growing D answers ghost post p)
    (hi : p.threads[i]? = some (t, .done ())) : post i t p.state :=
  h i _ hi p.state (D.later_refl _)

variable {prog : τ → Proc σ χ ε Unit}

theorem growing_start {t : τ} (h : Growing D answers ghost post p)
    (ht : (prog t).Gives D answers (fun _ => post p.threads.length t) (ghost t) p.state)
    (hmv : p.move prog (.start t) = some q) : Growing D answers ghost post q := by
  obtain rfl := move_start hmv
  intro i th hth
  rcases getElem?_concat hth with hth | ⟨rfl, rfl⟩
  · exact h i th hth
  · exact ht

theorem growing_run {i : Nat} {c : χ} (h : Growing D answers ghost post p)
    (hc : ∀ th, p.threads[i]? = some th → answers (ghost th.1) p.state c)
    (hmv : p.move prog (.run i c) = some q) :
    Growing D answers ghost post q ∧ D.step p.state q.state := by
  obtain ⟨t, write, next, hi, rfl⟩ := move_run hmv
  obtain ⟨g, ⟨rfl, hstep⟩, hnext⟩ := h i _ hi p.state (D.later_refl _) c (hc _ hi)
  refine ⟨fun j th hth => ?_, hstep⟩
  rcases getElem?_set_cases hth with ⟨rfl, rfl⟩ | ⟨-, hth⟩
  · exact hnext
  · exact gives_later (h j th hth) (D.later_of_step hstep)

/-- What every step keeps, every run keeps; and the state has drifted. -/
theorem growing_reaches {admits : Pool σ χ ε τ → Move χ τ → Prop} {J : σ → Prop}
    (hstart : ∀ p t, J p.state → admits p (.start t) →
      (prog t).Gives D answers (fun _ => post p.threads.length t) (ghost t) p.state)
    (hanswers : ∀ p i c, J p.state → admits p (.run i c) →
      ∀ th, p.threads[i]? = some th → answers (ghost th.1) p.state c)
    (hkeep : ∀ s t, D.step s t → J s → J t) (hp : Growing D answers ghost post p)
    (hJ : J p.state) (h : Reaches prog admits p q) :
    Growing D answers ghost post q ∧ J q.state ∧ D.later p.state q.state := by
  refine reaches_inv (I := fun q => Growing D answers ghost post q ∧ J q.state ∧
    D.later p.state q.state) (fun r m q hr hm hmv => ?_) ⟨hp, hJ, D.later_refl _⟩ h
  obtain ⟨hgrowing, hJr, hlater⟩ := hr
  cases m with
  | start t =>
      have hnext := growing_start hgrowing (hstart r t hJr hm) hmv
      obtain rfl := move_start hmv
      exact ⟨hnext, hJr, hlater⟩
  | run i c =>
      obtain ⟨hnext, hstep⟩ := growing_run hgrowing (hanswers r i c hJr hm) hmv
      exact ⟨hnext, hkeep _ _ hstep hJr, D.later_trans hlater (D.later_of_step hstep)⟩

/-- The calls of a kind that take such steps only, in whatever state, go on like that. -/
theorem always_reaches {R : σ → σ → Prop} (kind : τ → Prop)
    {admits : Pool σ χ ε τ → Move χ τ → Prop}
    (hprog : ∀ t, kind t → (prog t).Always R fun _ => True)
    (hp : ∀ th ∈ p.threads, kind th.1 → th.2.Always R fun _ => True)
    (h : Reaches prog admits p q) :
    ∀ th ∈ q.threads, kind th.1 → th.2.Always R fun _ => True := by
  refine reaches_inv (I := fun q => ∀ th ∈ q.threads, kind th.1 → th.2.Always R fun _ => True)
    (fun r m q hr _ hmv => ?_) hp h
  cases m with
  | start t =>
      obtain rfl := move_start hmv
      intro th hth hkind
      rcases List.mem_append.mp hth with hth | hth
      · exact hr th hth hkind
      · obtain rfl := List.mem_singleton.mp hth
        exact hprog t hkind
  | run i c =>
      obtain ⟨t, write, next, hi, rfl⟩ := move_run hmv
      intro th hth hkind
      rcases List.mem_or_eq_of_mem_set hth with hth | rfl
      · exact hr th hth hkind
      · exact (hr _ (List.mem_of_getElem? hi) hkind c r.state).2

end Pool

end Anypay.Async
