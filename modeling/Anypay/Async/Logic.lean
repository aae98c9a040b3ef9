/-
Anypay.Async.Logic — two program logics for `Proc`.

ALONE. `Proc.wp A Q E p s`: run from `s` with nothing in between, `p` ends in a
state `Q` accepts or throws in a state `E` accepts, whatever the answers, as long
as `A` accepts them. The equations `wp_bind`, `wp_step`, `wp_tryCatch` run a program symbolically, and
`wp_exec` says that `exec` can end nowhere else. `Proc.Always R P p`: every step
of `p` is an `R` step, in whatever state it finds itself.

AMONG OTHERS. A `Contract` says what one program may do to the state in one
step (`guar`) and what it puts up with from the others between two of its
steps (`rely`). Both depend on a GHOST value `γ` the program carries: what it
still may do, or how far it has come. `Proc.Meets C Q E p g s` says that `p`,
holding `g` in state `s`, keeps the contract to its end. `meets_mono_rely` is
the stability every such argument rests on: interference the program puts up
with does not invalidate what was proved of its future.

`Anypay.Async.Pool` puts programs that meet a contract side by side.
-/
import Mathlib.Data.List.Forall2
import Anypay.Async.Proc

namespace Anypay.Async

variable {σ χ ε α β γ : Type}

namespace Proc

/-! ## Alone -/

/-- Every way to run `p` alone from `s` with answers `A` accepts ends as `Q` or `E`
say. -/
def wp (A : χ → Prop) (Q : α → σ → Prop) (E : ε → σ → Prop) : Proc σ χ ε α → σ → Prop
  | done a, s => Q a s
  | fail e, s => E e s
  | atomic write next, s => ∀ c, A c → (next c s).wp A Q E (write c s)

/-- Any answer will do. -/
def AnyAnswer : χ → Prop := fun _ => True

theorem anyAnswer (o : Nat → χ) (n : Nat) : AnyAnswer (o n) := trivial

variable {A : χ → Prop} {Q Q' : α → σ → Prop} {E E' : ε → σ → Prop}

@[simp] theorem wp_done (a : α) (s : σ) :
    (done a : Proc σ χ ε α).wp A Q E s ↔ Q a s := Iff.rfl

@[simp] theorem wp_fail (e : ε) (s : σ) :
    (fail e : Proc σ χ ε α).wp A Q E s ↔ E e s := Iff.rfl

theorem wp_mono (hQ : ∀ a s, Q a s → Q' a s) (hE : ∀ e s, E e s → E' e s)
    {p : Proc σ χ ε α} {s : σ} (h : p.wp A Q E s) : p.wp A Q' E' s := by
  induction p generalizing s with
  | done a => exact hQ a s h
  | fail e => exact hE e s h
  | atomic write next ih => exact fun c hc => ih c s (h c hc)

/-- Two things proved of the same run. -/
theorem wp_and {p : Proc σ χ ε α} {s : σ} (h : p.wp A Q E s) (h' : p.wp A Q' E' s) :
    p.wp A (fun a t => Q a t ∧ Q' a t) (fun e t => E e t ∧ E' e t) s := by
  induction p generalizing s with
  | done a => exact ⟨h, h'⟩
  | fail e => exact ⟨h, h'⟩
  | atomic write next ih => exact fun c hc => ih c s (h c hc) (h' c hc)

/-- Every run ends somehow. -/
theorem wp_trivial (p : Proc σ χ ε α) (s : σ) :
    p.wp A (fun _ _ => True) (fun _ _ => True) s := by
  induction p generalizing s with
  | done a => exact trivial
  | fail e => exact trivial
  | atomic write next ih => exact fun c _ => ih c s _

@[simp] theorem wp_bind {R : β → σ → Prop} (p : Proc σ χ ε α) (f : α → Proc σ χ ε β)
    (s : σ) : (p.bind f).wp A R E s ↔ p.wp A (fun a t => (f a).wp A R E t) E s := by
  induction p generalizing s with
  | done a => rfl
  | fail e => rfl
  | atomic write next ih =>
      simp only [bind, wp]
      exact forall_congr' fun c => imp_congr_right fun _ => ih c s _

@[simp] theorem wp_tryCatch (p : Proc σ χ ε α) (h : ε → Proc σ χ ε α) (s : σ) :
    (p.tryCatch h).wp A Q E s ↔ p.wp A Q (fun e t => (h e).wp A Q E t) s := by
  induction p generalizing s with
  | done a => rfl
  | fail e => rfl
  | atomic write next ih =>
      simp only [tryCatch, wp]
      exact forall_congr' fun c => imp_congr_right fun _ => ih c s _

@[simp] theorem wp_attempt {R : Except ε α → σ → Prop} (p : Proc σ χ ε α) (s : σ) :
    p.attempt.wp A R E s ↔ p.wp A (fun a t => R (.ok a) t) (fun e t => R (.error e) t) s := by
  rw [attempt, wp_tryCatch, wp_bind]
  rfl

/-- One step: look at what it computes. -/
theorem wp_step {op : χ → σ → Except ε α × σ} {s : σ}
    (hok : ∀ c, A c → ∀ a, (op c s).1 = .ok a → Q a (op c s).2)
    (herr : ∀ c e, (op c s).1 = .error e → E e (op c s).2) :
    (step op).wp A Q E s := by
  intro c hc
  cases h : (op c s).1 with
  | ok a => simp only [h]; exact hok c hc a h
  | error e => simp only [h]; exact herr c e h

theorem wp_query {read : χ → σ → Except ε α} {s : σ}
    (hok : ∀ c, A c → ∀ a, read c s = .ok a → Q a s)
    (herr : ∀ c e, read c s = .error e → E e s) : (query read).wp A Q E s :=
  wp_step hok herr

/-- A read, outcome by outcome: also a throw comes from an answer `A` accepts. -/
theorem wp_query_cases {read : χ → σ → Except ε α} {s : σ}
    (hok : ∀ c, A c → ∀ a, read c s = .ok a → Q a s)
    (herr : ∀ c, A c → ∀ e, read c s = .error e → E e s) : (query read).wp A Q E s := by
  intro c hc
  cases h : read c s with
  | ok a =>
      simp only [h]
      exact hok c hc a h
  | error e =>
      simp only [h]
      exact herr c hc e h

theorem wp_ofExcept {x : Except ε α} {s : σ} (hok : ∀ a, x = .ok a → Q a s)
    (herr : ∀ e, x = .error e → E e s) : (Proc.ofExcept x).wp A Q E s := by
  cases x with
  | ok a => exact hok a rfl
  | error e => exact herr e rfl

/-- A loop keeps what its body keeps. -/
theorem wp_forEach {I : σ → Prop} {xs : List β} {body : β → Proc σ χ ε Unit} {s : σ}
    (hbody : ∀ x ∈ xs, ∀ t, I t → (body x).wp A (fun _ => I) E t) (hs : I s) :
    (forEach xs body).wp A (fun _ => I) E s := by
  induction xs generalizing s with
  | nil => exact hs
  | cons x xs ih =>
      simp only [forEach, wp_bind]
      refine wp_mono (fun _ t ht => ?_) (fun _ _ h => h) (hbody x (by simp) s hs)
      exact ih (fun y hy => hbody y (by simp [hy])) ht

/-- A loop that passes none of the elements at which its body throws. -/
theorem wp_forEach_until {P : β → Prop} {I : σ → Prop} {F : ε → σ → Prop} {xs : List β}
    {body : β → Proc σ χ ε Unit} {s : σ}
    (hgo : ∀ x ∈ xs, ¬ P x → ∀ t, I t → (body x).wp A (fun _ => I) F t)
    (hstop : ∀ x ∈ xs, P x → ∀ t, I t → (body x).wp A (fun _ _ => False) F t) (hs : I s) :
    (forEach xs body).wp A (fun _ t => I t ∧ ∀ x ∈ xs, ¬ P x) F s := by
  induction xs generalizing s with
  | nil => exact ⟨hs, nofun⟩
  | cons x xs ih =>
      simp only [forEach, wp_bind]
      by_cases hx : P x
      · exact wp_mono (fun _ _ h => h.elim) (fun _ _ h => h) (hstop x (by simp) hx s hs)
      · refine wp_mono (fun _ t ht => ?_) (fun _ _ h => h) (hgo x (by simp) hx s hs)
        refine wp_mono (fun _ u hu => ⟨hu.1, ?_⟩) (fun _ _ h => h)
          (ih (fun y hy => hgo y (by simp [hy])) (fun y hy => hstop y (by simp [hy])) ht)
        intro y hy
        rcases List.mem_cons.mp hy with rfl | hy
        · exact hx
        · exact hu.2 y hy

/-- The elements of a list are dealt with one after the other, each as `R` says. -/
def Steps (R : β → σ → σ → Prop) : List β → σ → σ → Prop
  | [], s, t => t = s
  | x :: xs, s, t => ∃ u, R x s u ∧ Steps R xs u t

/-- A loop deals with its elements one after the other, up to the one that
throws. -/
theorem wp_forEach_steps {R : β → σ → σ → Prop} {H : ε → σ → σ → Prop} {xs : List β}
    {body : β → Proc σ χ ε Unit} {s : σ}
    (hbody : ∀ x ∈ xs, ∀ t, (body x).wp A (fun _ => R x t) (fun e => H e t) t) :
    (forEach xs body).wp A (fun _ => Steps R xs s)
      (fun e t => ∃ finished x rest u, xs = finished ++ x :: rest ∧
        Steps R finished s u ∧ H e u t) s := by
  induction xs generalizing s with
  | nil => exact rfl
  | cons x xs ih =>
      simp only [forEach, wp_bind]
      refine wp_mono (fun _ u hu => ?_) (fun e t ht => ⟨[], x, xs, s, rfl, rfl, ht⟩)
        (hbody x (by simp) s)
      refine wp_mono (fun _ t ht => ⟨u, hu, ht⟩) (fun e t ht => ?_)
        (ih fun y hy => hbody y (by simp [hy]))
      obtain ⟨finished, y, rest, v, rfl, hsteps, hH⟩ := ht
      exact ⟨x :: finished, y, rest, v, rfl, ⟨u, hu, hsteps⟩, hH⟩

/-- A loop that collects results: `I` says what holds of the state once some of
them are there. -/
theorem wp_mapAll_from {I : List α → σ → Prop} {xs : List β} {body : β → Proc σ χ ε α}
    (hbody : ∀ x ∈ xs, ∀ as t, I as t →
      (body x).wp A (fun a => I (as ++ [a])) E t) {as : List α} {s : σ} (hs : I as s) :
    (mapAll xs body).wp A (fun bs => I (as ++ bs)) E s := by
  induction xs generalizing s as with
  | nil => simpa only [mapAll, wp_done, List.append_nil] using hs
  | cons x xs ih =>
      simp only [mapAll, wp_bind]
      refine wp_mono (fun a t ht => ?_) (fun _ _ h => h) (hbody x (by simp) as s hs)
      refine wp_mono (fun bs u hu => ?_) (fun _ _ h => h)
        (ih (fun y hy => hbody y (by simp [hy])) ht)
      simpa using hu

theorem wp_mapAll {I : List α → σ → Prop} {xs : List β} {body : β → Proc σ χ ε α}
    (hbody : ∀ x ∈ xs, ∀ as t, I as t →
      (body x).wp A (fun a => I (as ++ [a])) E t) {s : σ} (hs : I [] s) :
    (mapAll xs body).wp A I E s :=
  wp_mapAll_from hbody hs

/-- A loop whose results each fit what they were made of. -/
theorem wp_mapAll_pointwise {P : β → α → Prop} {I : σ → Prop} {xs : List β}
    {body : β → Proc σ χ ε α} {s : σ}
    (hbody : ∀ x ∈ xs, ∀ t, I t → (body x).wp A (fun a t => P x a ∧ I t) E t) (hs : I s) :
    (mapAll xs body).wp A (fun as t => List.Forall₂ P xs as ∧ I t) E s := by
  induction xs generalizing s with
  | nil => exact ⟨.nil, hs⟩
  | cons x xs ih =>
      simp only [mapAll, wp_bind]
      refine wp_mono (fun a t ht => ?_) (fun _ _ h => h) (hbody x (by simp) s hs)
      refine wp_mono (fun bs u hu => ?_) (fun _ _ h => h)
        (ih (fun y hy => hbody y (by simp [hy])) ht.2)
      exact ⟨.cons ht.1 hu.1, hu.2⟩

/-- Every element has its result and every result its element. -/
theorem mem_of_pointwise {P : β → α → Prop} {xs : List β} {as : List α}
    (h : List.Forall₂ P xs as) :
    (∀ x ∈ xs, ∃ a ∈ as, P x a) ∧ ∀ a ∈ as, ∃ x ∈ xs, P x a := by
  induction h with
  | nil => simp
  | cons hhead _ ih =>
      constructor
      · intro x hx
        rcases List.mem_cons.mp hx with rfl | hx
        · exact ⟨_, by simp, hhead⟩
        · obtain ⟨a, ha, hP⟩ := ih.1 x hx
          exact ⟨a, by simp [ha], hP⟩
      · intro a ha
        rcases List.mem_cons.mp ha with rfl | ha
        · exact ⟨_, by simp, hhead⟩
        · obtain ⟨x, hx, hP⟩ := ih.2 a ha
          exact ⟨x, by simp [hx], hP⟩

/-- What the logic says of a run is true of `exec`. -/
theorem wp_exec {p : Proc σ χ ε α} {s : σ} (h : p.wp A Q E s) {o : Nat → χ}
    (ho : ∀ n, A (o n)) :
    match (p.exec o s).1 with
    | .ok a => Q a (p.exec o s).2
    | .error e => E e (p.exec o s).2 := by
  induction p generalizing s o with
  | done a => exact h
  | fail e => exact h
  | atomic write next ih => exact ih (o 0) s (h (o 0) (ho 0)) fun n => ho (n + 1)

/-- What a run that returned came to. -/
theorem wp_exec_ok {p : Proc σ χ ε α} {s t : σ} {a : α} (h : p.wp A Q E s) {o : Nat → χ}
    (ho : ∀ n, A (o n)) (hrun : p.exec o s = (.ok a, t)) : Q a t := by
  have hend := wp_exec h ho
  rwa [hrun] at hend

/-- What a run that threw came to. -/
theorem wp_exec_error {p : Proc σ χ ε α} {s t : σ} {e : ε} (h : p.wp A Q E s) {o : Nat → χ}
    (ho : ∀ n, A (o n)) (hrun : p.exec o s = (.error e, t)) : E e t := by
  have hend := wp_exec h ho
  rwa [hrun] at hend

/-- The form invariants use: one condition on the end state, thrown or not. -/
theorem wp_exec_state {I : σ → Prop} {p : Proc σ χ ε α} {s : σ}
    (h : p.wp A (fun _ => I) (fun _ => I) s) {o : Nat → χ} (ho : ∀ n, A (o n)) :
    I (p.exec o s).2 := by
  have hend := wp_exec h ho
  cases hr : (p.exec o s).1 <;> simpa only [hr] using hend

/-- Every step of the program, in whatever state it is run, is an `R` step, and
what it returns satisfies `P`. -/
def Always (R : σ → σ → Prop) (P : α → Prop) : Proc σ χ ε α → Prop
  | done a => P a
  | fail _ => True
  | atomic write next => ∀ c s, R s (write c s) ∧ (next c s).Always R P

section Always

variable {R : σ → σ → Prop} {P : α → Prop} {P' : β → Prop}

theorem always_bind {p : Proc σ χ ε α} {f : α → Proc σ χ ε β} (hp : p.Always R P)
    (hf : ∀ a, P a → (f a).Always R P') : (p.bind f).Always R P' := by
  induction p with
  | done a => exact hf a hp
  | fail e => exact trivial
  | atomic write next ih => exact fun c s => ⟨(hp c s).1, ih c s (hp c s).2⟩

theorem always_tryCatch {p : Proc σ χ ε α} {h : ε → Proc σ χ ε α} (hp : p.Always R P)
    (hh : ∀ e, (h e).Always R P) : (p.tryCatch h).Always R P := by
  induction p with
  | done a => exact hp
  | fail e => exact hh e
  | atomic write next ih => exact fun c s => ⟨(hp c s).1, ih c s (hp c s).2⟩

theorem always_step {op : χ → σ → Except ε α × σ} (hR : ∀ c s, R s (op c s).2)
    (hP : ∀ c s a, (op c s).1 = .ok a → P a) : (step op).Always R P := by
  intro c s
  refine ⟨hR c s, ?_⟩
  cases hr : (op c s).1 with
  | ok a => simp only [hr]; exact hP c s a hr
  | error e => simp only [hr]; exact trivial

theorem always_ofExcept {x : Except ε α} (h : ∀ a, x = .ok a → P a) :
    (Proc.ofExcept x : Proc σ χ ε α).Always R P := by
  cases x with
  | ok a => exact h a rfl
  | error e => exact trivial

theorem always_forEach {xs : List β} {body : β → Proc σ χ ε Unit}
    (h : ∀ x ∈ xs, (body x).Always R fun _ => True) :
    (forEach xs body).Always R fun _ => True := by
  induction xs with
  | nil => exact trivial
  | cons x xs ih =>
      exact always_bind (h x (by simp)) fun _ _ => ih fun y hy => h y (by simp [hy])

theorem always_mapAll {xs : List β} {body : β → Proc σ χ ε α}
    (h : ∀ x ∈ xs, (body x).Always R P) :
    (mapAll xs body).Always R fun as => ∀ a ∈ as, P a := by
  induction xs with
  | nil => exact fun a ha => by cases ha
  | cons x xs ih =>
      refine always_bind (h x (by simp)) fun a ha => ?_
      refine always_bind (ih fun y hy => h y (by simp [hy])) fun as has => ?_
      intro b hb
      rcases List.mem_cons.mp hb with rfl | hb
      · exact ha
      · exact has b hb

theorem always_mono {R' : σ → σ → Prop} {P₀ : α → Prop} {p : Proc σ χ ε α}
    (hp : p.Always R P) (hR : ∀ s t, R s t → R' s t) (hP : ∀ a, P a → P₀ a) :
    p.Always R' P₀ := by
  induction p with
  | done a => exact hP a hp
  | fail e => exact trivial
  | atomic write next ih => exact fun c s => ⟨hR _ _ (hp c s).1, ih c s (hp c s).2⟩

/-- Alone, such a program ends where `R` leads, if `R` is a preorder. -/
theorem wp_of_always {A : χ → Prop} (hrefl : ∀ s, R s s)
    (htrans : ∀ {s t u}, R s t → R t u → R s u) {p : Proc σ χ ε α} (hp : p.Always R P) (s : σ) :
    p.wp A (fun a t => R s t ∧ P a) (fun _ t => R s t) s := by
  have hfrom : ∀ t, R s t → p.wp A (fun a t => R s t ∧ P a) (fun _ t => R s t) t := by
    induction p with
    | done a => exact fun t ht => ⟨ht, hp⟩
    | fail e => exact fun t ht => ht
    | atomic write next ih =>
        intro t ht c _
        obtain ⟨hw, hn⟩ := hp c t
        exact ih c t hn _ (htrans ht hw)
  exact hfrom s (hrefl s)

/-- Somewhere along the program there is a step that takes `s` to `t`. -/
def CanStep : Proc σ χ ε α → σ → σ → Prop
  | done _, _, _ => False
  | fail _, _, _ => False
  | atomic write next, s, t => (∃ c, t = write c s) ∨ ∃ c u, (next c u).CanStep s t

theorem Always.of_canStep {p : Proc σ χ ε α} (hp : p.Always R P) {s t : σ}
    (h : p.CanStep s t) : R s t := by
  induction p with
  | done a => exact h.elim
  | fail e => exact h.elim
  | atomic write next ih =>
      rcases h with ⟨c, rfl⟩ | ⟨c, u, h⟩
      · exact (hp c s).1
      · exact ih c u (hp c u).2 h

/-- What holds after a run and did not before, some step of it brought about. -/
theorem canStep_of_exec {I : σ → Prop} {p : Proc σ χ ε α} {o : Nat → χ} {s : σ} (hs : ¬ I s)
    (ht : I (p.exec o s).2) : ∃ u v, p.CanStep u v ∧ ¬ I u ∧ I v := by
  induction p generalizing o s with
  | done a => exact absurd ht hs
  | fail e => exact absurd ht hs
  | atomic write next ih =>
      by_cases hw : I (write (o 0) s)
      · exact ⟨s, _, .inl ⟨o 0, rfl⟩, hs, hw⟩
      · obtain ⟨u, v, hstep, hu, hv⟩ := ih (o 0) s hw ht
        exact ⟨u, v, .inr ⟨o 0, s, hstep⟩, hu, hv⟩

end Always

/-- Wherever a step of the program leads, `P` holds of what is left of it and of
the state after the step. -/
def Leads (P : Proc σ χ ε α → σ → Prop) : Proc σ χ ε α → Prop
  | done _ => True
  | fail _ => True
  | atomic write next => ∀ c s, P (next c s) (write c s) ∧ (next c s).Leads P

theorem leads_step_bind {P : Proc σ χ ε β → σ → Prop} {op : χ → σ → Except ε α × σ}
    {f : α → Proc σ χ ε β} (hfail : ∀ e s, P (fail e) s)
    (hok : ∀ c s a, (op c s).1 = .ok a → P (f a) (op c s).2 ∧ (f a).Leads P) :
    ((step op).bind f).Leads P := by
  intro c s
  cases hr : (op c s).1 with
  | ok a =>
      simp only [hr]
      exact hok c s a hr
  | error e =>
      simp only [hr]
      exact ⟨hfail e _, trivial⟩

/-- No step of the program changes what `view` shows. -/
def Keeps {β : Type} (view : σ → β) (p : Proc σ χ ε α) : Prop :=
  p.Always (fun s t => view t = view s) fun _ => True

section Keeps

variable {δ : Type} {view : σ → δ}

theorem keeps_bind {p : Proc σ χ ε α} {f : α → Proc σ χ ε β} (hp : p.Keeps view)
    (hf : ∀ a, (f a).Keeps view) : (p.bind f).Keeps view :=
  always_bind hp fun a _ => hf a

theorem keeps_tryCatch {p : Proc σ χ ε α} {h : ε → Proc σ χ ε α} (hp : p.Keeps view)
    (hh : ∀ e, (h e).Keeps view) : (p.tryCatch h).Keeps view :=
  always_tryCatch hp hh

theorem keeps_step {op : χ → σ → Except ε α × σ}
    (h : ∀ c s, view (op c s).2 = view s) : (step op).Keeps view :=
  always_step h fun _ _ _ _ => trivial

theorem keeps_query {read : χ → σ → Except ε α} : (query read).Keeps view :=
  keeps_step fun _ _ => rfl

theorem keeps_ofExcept (x : Except ε α) :
    (Proc.ofExcept x : Proc σ χ ε α).Keeps view :=
  always_ofExcept fun _ _ => trivial

theorem keeps_forEach {xs : List β} {body : β → Proc σ χ ε Unit}
    (h : ∀ x ∈ xs, (body x).Keeps view) : (forEach xs body).Keeps view :=
  always_forEach h

theorem keeps_mapAll {xs : List β} {body : β → Proc σ χ ε α}
    (h : ∀ x ∈ xs, (body x).Keeps view) : (mapAll xs body).Keeps view := by
  induction xs with
  | nil => exact trivial
  | cons x xs ih =>
      refine keeps_bind (h x (by simp)) fun _ => ?_
      exact keeps_bind (ih fun y hy => h y (by simp [hy])) fun _ => trivial

/-- A program over a part of the state leaves the rest alone. -/
theorem keeps_within {τ : Type} {get : τ → σ} {put : σ → τ → τ} {view : τ → δ}
    (h : ∀ s t, view (put s t) = view t) (p : Proc σ χ ε α) :
    (p.within get put).Keeps view := by
  induction p with
  | done a => exact trivial
  | fail e => exact trivial
  | atomic write next ih => exact fun c t => ⟨h _ _, ih c (get t)⟩

/-- Alone, such a program ends with the view it started with. -/
theorem wp_of_keeps {A : χ → Prop} {Q : α → σ → Prop} {E : ε → σ → Prop}
    {p : Proc σ χ ε α} (hp : p.Keeps view) {s : σ}
    (hok : ∀ a t, view t = view s → Q a t) (herr : ∀ e t, view t = view s → E e t) :
    p.wp A Q E s := by
  induction p generalizing s with
  | done a => exact hok a s rfl
  | fail e => exact herr e s rfl
  | atomic write next ih =>
      intro c _
      obtain ⟨hw, hn⟩ := hp c s
      exact ih c s hn (fun a t ht => hok a t (ht.trans hw)) fun e t ht => herr e t (ht.trans hw)

end Keeps

/-- Alone, with answers `A` accepts, the program keeps `I`, whether it ends or throws. -/
def Preserves (A : χ → Prop) (I : σ → Prop) (p : Proc σ χ ε α) : Prop :=
  ∀ s, I s → p.wp A (fun _ => I) (fun _ => I) s

section Preserves

variable {A : χ → Prop} {I : σ → Prop}

theorem preserves_bind {p : Proc σ χ ε α} {f : α → Proc σ χ ε β} (hp : p.Preserves A I)
    (hf : ∀ a, (f a).Preserves A I) : (p.bind f).Preserves A I := by
  intro s hs
  rw [wp_bind]
  exact wp_mono (fun a t ht => hf a t ht) (fun _ _ h => h) (hp s hs)

theorem preserves_tryCatch {p : Proc σ χ ε α} {h : ε → Proc σ χ ε α}
    (hp : p.Preserves A I) (hh : ∀ e, (h e).Preserves A I) :
    (p.tryCatch h).Preserves A I := by
  intro s hs
  rw [wp_tryCatch]
  exact wp_mono (fun _ _ h => h) (fun e t ht => hh e t ht) (hp s hs)

theorem preserves_done (a : α) : (done a : Proc σ χ ε α).Preserves A I := fun _ hs => hs

theorem preserves_fail (e : ε) : (fail e : Proc σ χ ε α).Preserves A I := fun _ hs => hs

/-- What is already at hand may say something of the rest. -/
theorem preserves_ofExcept_bind {x : Except ε α} {f : α → Proc σ χ ε β}
    (h : ∀ a, x = .ok a → (f a).Preserves A I) :
    ((Proc.ofExcept x).bind f).Preserves A I := by
  cases x with
  | ok a => exact h a rfl
  | error e => exact preserves_fail e

theorem preserves_mapAll {xs : List β} {body : β → Proc σ χ ε α}
    (h : ∀ x ∈ xs, (body x).Preserves A I) : (mapAll xs body).Preserves A I := by
  induction xs with
  | nil => exact preserves_done []
  | cons x xs ih =>
      refine preserves_bind (h x (by simp)) fun a => ?_
      exact preserves_bind (ih fun y hy => h y (by simp [hy])) fun _ => preserves_done _

/-- A program that leaves alone all that `I` is about. -/
theorem Keeps.preserves {δ : Type} {view : σ → δ} {p : Proc σ χ ε α} (hp : p.Keeps view)
    (hI : ∀ s t, view t = view s → I s → I t) : p.Preserves A I := fun s hs =>
  wp_of_keeps hp (fun _ t ht => hI s t ht hs) fun _ t ht => hI s t ht hs

theorem preserves_query {read : χ → σ → Except ε α} : (query read).Preserves A I := by
  intro s hs
  exact wp_query (fun _ _ _ _ => hs) fun _ _ _ => hs

end Preserves

/-- The program cannot tell apart states that `R` relates: at each step it does
the same in both, and they stay related. -/
def Blind (R : σ → σ → Prop) : Proc σ χ ε α → Prop
  | done _ => True
  | fail _ => True
  | atomic write next => ∀ c s t, R s t →
      R (write c s) (write c t) ∧ next c s = next c t ∧ (next c s).Blind R

section Blind

variable {R : σ → σ → Prop}

theorem blind_bind {p : Proc σ χ ε α} {f : α → Proc σ χ ε β} (hp : p.Blind R)
    (hf : ∀ a, (f a).Blind R) : (p.bind f).Blind R := by
  induction p with
  | done a => exact hf a
  | fail e => exact trivial
  | atomic write next ih =>
      intro c s t hst
      obtain ⟨hw, hnext, hblind⟩ := hp c s t hst
      exact ⟨hw, congrArg (fun p => p.bind f) hnext, ih c s hblind⟩

/-- The rest need only be blind for what the first part may return. -/
theorem blind_bind_of_always {T : σ → σ → Prop} {P : α → Prop} {p : Proc σ χ ε α}
    {f : α → Proc σ χ ε β} (hp : p.Blind R) (hP : p.Always T P)
    (hf : ∀ a, P a → (f a).Blind R) : (p.bind f).Blind R := by
  induction p with
  | done a => exact hf a hP
  | fail e => exact trivial
  | atomic write next ih =>
      intro c s t hst
      obtain ⟨hw, hnext, hblind⟩ := hp c s t hst
      exact ⟨hw, congrArg (fun p => p.bind f) hnext, ih c s hblind (hP c s).2⟩

theorem blind_query {read : χ → σ → Except ε α}
    (h : ∀ c s t, R s t → read c s = read c t) : (query read : Proc σ χ ε α).Blind R := by
  intro c s t hst
  refine ⟨hst, ?_, ?_⟩
  · simp only [h c s t hst]
  · cases hread : read c s with
    | ok a => simp only [hread]; exact trivial
    | error e => simp only [hread]; exact trivial

theorem blind_step {op : χ → σ → Except ε α × σ}
    (h : ∀ c s t, R s t → (op c s).1 = (op c t).1 ∧ R (op c s).2 (op c t).2) :
    (step op).Blind R := by
  intro c s t hst
  obtain ⟨hsame, hrel⟩ := h c s t hst
  refine ⟨hrel, ?_, ?_⟩
  · simp only [hsame]
  · cases hr : (op c s).1 with
    | ok a => simp only [hr]; exact trivial
    | error e => simp only [hr]; exact trivial

theorem blind_ofExcept (x : Except ε α) : (Proc.ofExcept x : Proc σ χ ε α).Blind R := by
  cases x <;> exact trivial

theorem blind_tryCatch {p : Proc σ χ ε α} {h : ε → Proc σ χ ε α} (hp : p.Blind R)
    (hh : ∀ e, (h e).Blind R) : (p.tryCatch h).Blind R := by
  induction p with
  | done a => exact trivial
  | fail e => exact hh e
  | atomic write next ih =>
      intro c s t hst
      obtain ⟨hw, hnext, hblind⟩ := hp c s t hst
      exact ⟨hw, congrArg (fun p => p.tryCatch h) hnext, ih c s hblind⟩

theorem blind_mapAll {xs : List β} {body : β → Proc σ χ ε α}
    (h : ∀ x ∈ xs, (body x).Blind R) : (mapAll xs body).Blind R := by
  induction xs with
  | nil => exact trivial
  | cons x xs ih =>
      refine blind_bind (h x (by simp)) fun _ => ?_
      exact blind_bind (ih fun y hy => h y (by simp [hy])) fun _ => trivial

/-- With the same answers it returns the same in both. -/
theorem Blind.exec_eq {p : Proc σ χ ε α} (hp : p.Blind R) {s t : σ} (hst : R s t)
    (o : Nat → χ) : (p.exec o s).1 = (p.exec o t).1 := by
  induction p generalizing s t o with
  | done a => rfl
  | fail e => rfl
  | atomic write next ih =>
      obtain ⟨hw, hnext, hblind⟩ := hp (o 0) s t hst
      simp only [exec]
      rw [← hnext]
      exact ih (o 0) s hblind hw _

end Blind

/-! ## Two runs -/

/-- Run from `s` and from `t` with the same answers the two programs go through the
same number of steps; where the first returns the second does, and `V` relates the
values and the states they end in. -/
def Together (V : α → β → σ → σ → Prop) : Proc σ χ ε α → Proc σ χ ε β → σ → σ → Prop
  | done a, q, s, t => ∃ b, q = done b ∧ V a b s t
  | fail _, _, _, _ => True
  | atomic write next, q, s, t => ∃ write' next', q = atomic write' next' ∧
      ∀ c, (next c s).Together V (next' c t) (write c s) (write' c t)

section Together

variable {V : α → β → σ → σ → Prop} {p : Proc σ χ ε α} {q : Proc σ χ ε β} {s t : σ}

theorem together_bind {γ δ : Type} {f : γ → Proc σ χ ε α} {g : δ → Proc σ χ ε β}
    {p : Proc σ χ ε γ} {q : Proc σ χ ε δ}
    (h : p.Together (fun a b s t => (f a).Together V (g b) s t) q s t) :
    (p.bind f).Together V (q.bind g) s t := by
  induction p generalizing q s t with
  | done a =>
      obtain ⟨b, rfl, hfg⟩ := h
      exact hfg
  | fail e => exact trivial
  | atomic write next ih =>
      obtain ⟨write', next', rfl, hnext⟩ := h
      exact ⟨_, _, rfl, fun c => ih c s (hnext c)⟩

theorem together_mono {V' : α → β → σ → σ → Prop} (hV : ∀ a b s t, V a b s t → V' a b s t)
    (h : p.Together V q s t) : p.Together V' q s t := by
  induction p generalizing q s t with
  | done a =>
      obtain ⟨b, hq, hab⟩ := h
      exact ⟨b, hq, hV a b s t hab⟩
  | fail e => exact trivial
  | atomic write next ih =>
      obtain ⟨write', next', hq, hnext⟩ := h
      exact ⟨write', next', hq, fun c => ih c s (hnext c)⟩

/-- Two single steps. -/
theorem together_step {op : χ → σ → Except ε α × σ} {op' : χ → σ → Except ε β × σ}
    (h : ∀ c a, (op c s).1 = .ok a → ∃ b, (op' c t).1 = .ok b ∧ V a b (op c s).2 (op' c t).2) :
    (step op).Together V (step op') s t := by
  refine ⟨_, _, rfl, fun c => ?_⟩
  cases hr : (op c s).1 with
  | error e =>
      simp only [hr]
      exact trivial
  | ok a =>
      obtain ⟨b, hb, hV⟩ := h c a hr
      simp only [hr]
      exact ⟨b, by simp only [hb], hV⟩

/-- A blind program together with itself. -/
theorem Blind.together {R : σ → σ → Prop} (hp : p.Blind R) (hst : R s t) :
    p.Together (fun a b s t => a = b ∧ R s t) p s t := by
  induction p generalizing s t with
  | done a => exact ⟨a, rfl, rfl, hst⟩
  | fail e => exact trivial
  | atomic write next ih =>
      refine ⟨write, next, rfl, fun c => ?_⟩
      obtain ⟨hw, hnext, hblind⟩ := hp c s t hst
      rw [← hnext]
      exact ih c s hblind hw

theorem Together.exec {a : α} {s' : σ} (h : p.Together V q s t) {o : Nat → χ}
    (hp : p.exec o s = (.ok a, s')) : ∃ b t', q.exec o t = (.ok b, t') ∧ V a b s' t' := by
  induction p generalizing q s t o with
  | done x =>
      obtain ⟨b, rfl, hV⟩ := h
      obtain ⟨hx, rfl⟩ := Prod.mk.inj hp
      obtain rfl := Except.ok.inj hx
      exact ⟨b, t, rfl, hV⟩
  | fail e => cases (Prod.mk.inj hp).1
  | atomic write next ih =>
      obtain ⟨write', next', rfl, hnext⟩ := h
      exact ih (o 0) s (hnext (o 0)) hp

end Together

end Proc

/-! ## Among others -/

/-- What a program promises the others and expects of them, by the ghost value
it holds. A step may do nothing, so `guar` is reflexive; expectations must
survive any number of foreign steps, so `rely` is a preorder. -/
structure Contract (σ χ γ : Type) where
  /-- Holding `g`, the answers the outside world may give. -/
  answers : γ → σ → χ → Prop
  /-- Holding `g`, the others may have taken the state from `s` to `t`. -/
  rely : γ → σ → σ → Prop
  /-- Holding `g`, a step may take `s` to `t` and leave the program with `g'`. -/
  guar : γ → σ → σ → γ → Prop
  guar_refl : ∀ g s, guar g s s g
  rely_refl : ∀ g s, rely g s s
  rely_trans : ∀ {g s t u}, rely g s t → rely g t u → rely g s u

namespace Proc

/-- From `s`, holding `g`, the program keeps the contract to its end: others may
interfere before each step and after the last. -/
def Meets (C : Contract σ χ γ) (Q : α → γ → σ → Prop) (E : ε → γ → σ → Prop) :
    Proc σ χ ε α → γ → σ → Prop
  | done a, g, s => ∀ t, C.rely g s t → Q a g t
  | fail e, g, s => ∀ t, C.rely g s t → E e g t
  | atomic write next, g, s =>
      ∀ t, C.rely g s t → ∀ c, C.answers g t c →
        ∃ g', C.guar g t (write c t) g' ∧ (next c t).Meets C Q E g' (write c t)

variable {C : Contract σ χ γ} {Q Q' : α → γ → σ → Prop} {E E' : ε → γ → σ → Prop}

/-- Interference the program puts up with does not spoil its future. -/
theorem meets_mono_rely {p : Proc σ χ ε α} {g : γ} {s t : σ}
    (h : p.Meets C Q E g s) (hst : C.rely g s t) : p.Meets C Q E g t := by
  cases p with
  | done a => exact fun u htu => h u (C.rely_trans hst htu)
  | fail e => exact fun u htu => h u (C.rely_trans hst htu)
  | atomic write next => exact fun u htu => h u (C.rely_trans hst htu)

theorem meets_mono (hQ : ∀ a g s, Q a g s → Q' a g s) (hE : ∀ e g s, E e g s → E' e g s)
    {p : Proc σ χ ε α} {g : γ} {s : σ} (h : p.Meets C Q E g s) :
    p.Meets C Q' E' g s := by
  induction p generalizing g s with
  | done a => exact fun t hst => hQ a g t (h t hst)
  | fail e => exact fun t hst => hE e g t (h t hst)
  | atomic write next ih =>
      intro t hst c hc
      obtain ⟨g', hg, hm⟩ := h t hst c hc
      exact ⟨g', hg, ih c t hm⟩

theorem meets_bind {R : β → γ → σ → Prop} {p : Proc σ χ ε α} {f : α → Proc σ χ ε β}
    {g : γ} {s : σ}
    (h : p.Meets C (fun a g' t => (f a).Meets C R E g' t) E g s) :
    (p.bind f).Meets C R E g s := by
  induction p generalizing g s with
  | done a => exact h s (C.rely_refl g s)
  | fail e => exact h
  | atomic write next ih =>
      intro t hst c hc
      obtain ⟨g', hg, hm⟩ := h t hst c hc
      exact ⟨g', hg, ih c t hm⟩

theorem meets_tryCatch {p : Proc σ χ ε α} {h : ε → Proc σ χ ε α} {g : γ} {s : σ}
    (hp : p.Meets C Q (fun e g' t => (h e).Meets C Q E g' t) g s) :
    (p.tryCatch h).Meets C Q E g s := by
  induction p generalizing g s with
  | done a => exact hp
  | fail e => exact hp s (C.rely_refl g s)
  | atomic write next ih =>
      intro t hst c hc
      obtain ⟨g', hg, hm⟩ := hp t hst c hc
      exact ⟨g', hg, ih c t hm⟩

/-- A call whose result nobody uses. -/
theorem meets_discard {p : Proc σ χ ε α} {g : γ} {s : σ} (h : p.Meets C Q E g s) :
    (discard p : Proc σ χ ε Unit).Meets C (fun _ _ _ => True) E g s :=
  meets_bind (meets_mono (fun _ _ _ _ _ _ => trivial) (fun _ _ _ h => h) h)

/-- A call whose result nobody uses leaves what it left. -/
theorem meets_discard_of_stable {I : γ → σ → Prop} {p : Proc σ χ ε α} {g : γ} {s : σ}
    (hstable : ∀ g s t, I g s → C.rely g s t → I g t)
    (h : p.Meets C (fun _ => I) E g s) :
    (discard p : Proc σ χ ε Unit).Meets C (fun _ => I) E g s :=
  meets_bind (meets_mono (fun _ g s hs t hst => hstable g s t hs hst) (fun _ _ _ h => h) h)

/-- One step: keep the guarantee, then whatever value or error it computed
must be acceptable once the others have moved again. -/
theorem meets_step {op : χ → σ → Except ε α × σ} {g : γ} {s : σ}
    (h : ∀ t, C.rely g s t → ∀ c, C.answers g t c → ∃ g', C.guar g t (op c t).2 g' ∧
      (∀ a, (op c t).1 = .ok a → ∀ u, C.rely g' (op c t).2 u → Q a g' u) ∧
      (∀ e, (op c t).1 = .error e → ∀ u, C.rely g' (op c t).2 u → E e g' u)) :
    (step op).Meets C Q E g s := by
  intro t hst c hc
  obtain ⟨g', hg, hok, herr⟩ := h t hst c hc
  refine ⟨g', hg, ?_⟩
  cases hr : (op c t).1 with
  | ok a => simp only [hr]; exact hok a hr
  | error e => simp only [hr]; exact herr e hr

/-- A step that only reads, then the rest: the rest runs in a state the others
may have reached, with what the read found there. -/
theorem meets_query_bind {R : β → γ → σ → Prop} {read : χ → σ → Except ε α}
    {f : α → Proc σ χ ε β} {g : γ} {s : σ}
    (hok : ∀ t, C.rely g s t → ∀ c, C.answers g t c → ∀ a, read c t = .ok a →
      (f a).Meets C R E g t)
    (herr : ∀ t, C.rely g s t → ∀ c e, read c t = .error e →
      ∀ u, C.rely g t u → E e g u) :
    ((query read).bind f).Meets C R E g s := by
  refine meets_bind (meets_step fun t hst c hc => ⟨g, C.guar_refl g t, ?_, ?_⟩)
  · intro a ha u htu
    exact meets_mono_rely (hok t hst c hc a ha) htu
  · exact fun e he => herr t hst c e he

/-- A program that changes nothing anyone relies on or guarantees, then the
rest. -/
theorem meets_keeps_bind {δ : Type} {view : σ → δ} {R : β → γ → σ → Prop}
    {p : Proc σ χ ε α} {f : α → Proc σ χ ε β} {g : γ} {s : σ} (hp : p.Keeps view)
    (hview : ∀ s t, view t = view s → C.guar g s t g ∧ C.rely g s t)
    (hok : ∀ t, C.rely g s t → ∀ a, (f a).Meets C R E g t)
    (herr : ∀ t, C.rely g s t → ∀ e, E e g t) :
    (p.bind f).Meets C R E g s := by
  induction p generalizing s with
  | done a => exact hok s (C.rely_refl g s) a
  | fail e => exact fun t hst => herr t hst e
  | atomic write next ih =>
      intro t hst c _
      obtain ⟨hw, hn⟩ := hp c t
      obtain ⟨hguar, hrely⟩ := hview t _ hw
      have hsw : C.rely g s (write c t) := C.rely_trans hst hrely
      exact ⟨g, hguar, ih c t hn (fun u hu a => hok u (C.rely_trans hsw hu) a)
        (fun u hu e => herr u (C.rely_trans hsw hu) e)⟩

/-- What no step may spoil, own or foreign, holds at the end too. -/
theorem meets_frame {F : σ → Prop} (hrely : ∀ {g s t}, F s → C.rely g s t → F t)
    (hguar : ∀ {g s t g'}, F s → C.guar g s t g' → F t) {p : Proc σ χ ε α} {g : γ} {s : σ}
    (hF : F s) (h : p.Meets C Q E g s) :
    p.Meets C (fun a g t => Q a g t ∧ F t) (fun e g t => E e g t ∧ F t) g s := by
  induction p generalizing g s with
  | done a => exact fun t hst => ⟨h t hst, hrely hF hst⟩
  | fail e => exact fun t hst => ⟨h t hst, hrely hF hst⟩
  | atomic write next ih =>
      intro t hst c hc
      obtain ⟨g', hg, hm⟩ := h t hst c hc
      exact ⟨g', hg, ih c t (hguar (hrely hF hst) hg) hm⟩

/-- A ghost value no step changes is the one the program began with, however it ends. -/
theorem meets_same (hguar : ∀ {g s t g'}, C.guar g s t g' → g' = g) {p : Proc σ χ ε α}
    {g : γ} {s : σ} (h : p.Meets C Q E g s) :
    p.Meets C (fun a g' t => Q a g' t ∧ g' = g) (fun e g' t => E e g' t ∧ g' = g) g s := by
  induction p generalizing s with
  | done a => exact fun t hst => ⟨h t hst, rfl⟩
  | fail e => exact fun t hst => ⟨h t hst, rfl⟩
  | atomic write next ih =>
      intro t hst c hc
      obtain ⟨g', hg, hm⟩ := h t hst c hc
      obtain rfl := hguar hg
      exact ⟨g', hg, ih c t hm⟩

theorem meets_fixed (hguar : ∀ {g s t g'}, C.guar g s t g' → g' = g) {p : Proc σ χ ε α}
    {g : γ} {s : σ} (h : p.Meets C Q E g s) :
    p.Meets C (fun a g' t => Q a g' t ∧ g' = g) E g s :=
  meets_mono (fun _ _ _ h => h) (fun _ _ _ h => h.1) (meets_same hguar h)

/-- A program with no step left keeps any contract. -/
theorem meets_of_ended {p : Proc σ χ ε α} (h : p.running = false) (g : γ) (s : σ) :
    p.Meets C (fun _ _ _ => True) (fun _ _ _ => True) g s := by
  cases p with
  | done a => exact fun _ _ => trivial
  | fail e => exact fun _ _ => trivial
  | atomic write next => cases h

/-- A loop keeps what its body keeps, if that survives interference. -/
theorem meets_forEach {I : γ → σ → Prop} {xs : List β} {body : β → Proc σ χ ε Unit}
    {g : γ} {s : σ} (hstable : ∀ g s t, I g s → C.rely g s t → I g t)
    (hbody : ∀ x ∈ xs, ∀ g s, I g s → (body x).Meets C (fun _ => I) E g s)
    (hs : I g s) : (forEach xs body).Meets C (fun _ => I) E g s := by
  induction xs generalizing g s with
  | nil => exact fun t hst => hstable g s t hs hst
  | cons x xs ih =>
      refine meets_bind (meets_mono (fun _ g' t ht => ?_) (fun _ _ _ h => h)
        (hbody x (by simp) g s hs))
      exact ih (fun y hy => hbody y (by simp [hy])) ht

end Proc

end Anypay.Async
