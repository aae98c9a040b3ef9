/-
Anypay.Async.Repeat — calls that all do the same writes.

`p.Performs J does ws r`: in `J` states, whatever the answers, `p` does the writes `ws`
one after the other and ends as `r`; before, between and after them it only reads.
Calls that all perform one list of writes, none of which undoes another, may interleave
as they like: once one of them has ended every write is done, and what the others still
do changes nothing of it (`repeated`).

`Steady` programs read the same in every `J` state, so what they come to is what they
come to alone (`Steady.reads`).
-/
import Anypay.Async.Pool
import Anypay.Async.Together

namespace Anypay.Async

namespace Proc

variable {σ χ ε α β κ : Type} {J : σ → Prop}

theorem ofExcept_inj {x y : Except ε α}
    (h : (Proc.ofExcept x : Proc σ χ ε α) = Proc.ofExcept y) : x = y := by
  cases x <;> cases y <;> cases h <;> rfl

/-! ## Steady programs -/

/-- In `J` states the program only reads, and always the same. -/
def Steady (J : σ → Prop) : Proc σ χ ε α → Prop
  | done _ => True
  | fail _ => True
  | atomic write next => ∀ c c' s s', J s → J s' →
      write c s = s ∧ next c s = next c' s' ∧ (next c s).Steady J

theorem steady_query {read : χ → σ → Except ε α}
    (h : ∀ c c' s s', J s → J s' → read c s = read c' s') : (query read).Steady J := by
  intro c c' s s' hs hs'
  refine ⟨rfl, ?_, ?_⟩
  · dsimp only
    rw [h c c' s s' hs hs']
  · dsimp only
    cases read c s <;> trivial

theorem steady_bind {p : Proc σ χ ε β} {f : β → Proc σ χ ε α} (hp : p.Steady J)
    (hf : ∀ b, (f b).Steady J) : (p.bind f).Steady J := by
  induction p with
  | done b => exact hf b
  | fail e => exact trivial
  | atomic write next ih =>
      intro c c' s s' hs hs'
      obtain ⟨hw, hn, hrest⟩ := hp c c' s s' hs hs'
      refine ⟨hw, ?_, ih c s hrest⟩
      show (next c s).bind f = (next c' s').bind f
      rw [hn]

theorem steady_ofExcept (x : Except ε α) : (Proc.ofExcept x : Proc σ χ ε α).Steady J := by
  cases x <;> trivial

theorem steady_mapAll {xs : List β} {body : β → Proc σ χ ε α}
    (h : ∀ x ∈ xs, (body x).Steady J) : (mapAll xs body).Steady J := by
  induction xs with
  | nil => exact trivial
  | cons x xs ih =>
      apply steady_bind (h x (by simp))
      intro a
      apply steady_bind (ih fun y hy => h y (by simp [hy]))
      intro as
      exact trivial

/-- What it comes to alone it comes to in every `J` state. -/
theorem Steady.reads {p : Proc σ χ ε α} (h : p.Steady J) {s : σ} (hs : J s) (o : Nat → χ) :
    p.Reads J (fun a => (p.exec o s).1 = .ok a) (fun e => (p.exec o s).1 = .error e) := by
  induction p generalizing o with
  | done a => exact rfl
  | fail e => exact rfl
  | atomic write next ih =>
      intro c t ht
      obtain ⟨hw, hsame, -⟩ := h c (o 0) t s ht hs
      obtain ⟨hw', -, hrest⟩ := h (o 0) (o 0) s s hs hs
      have halone := ih (o 0) s hrest (tail o)
      refine ⟨hw, ?_⟩
      show (next c t).Reads J
        (fun a => ((next (o 0) s).exec (tail o) (write (o 0) s)).1 = .ok a)
        (fun e => ((next (o 0) s).exec (tail o) (write (o 0) s)).1 = .error e)
      rw [hsame, hw']
      exact halone

/-- The answers and the `J` state do not matter to what it comes to. -/
theorem Steady.exec_eq {p : Proc σ χ ε α} (h : p.Steady J) {s s' : σ} (hs : J s) (hs' : J s')
    (o o' : Nat → χ) : (p.exec o s).1 = (p.exec o' s').1 := by
  induction p generalizing s s' o o' with
  | done a => rfl
  | fail e => rfl
  | atomic write next ih =>
      obtain ⟨hw, hsame, hrest⟩ := h (o 0) (o' 0) s s' hs hs'
      have hw' : write (o' 0) s' = s' := (h (o' 0) (o 0) s' s hs' hs).1
      have hnext := ih (o 0) s hrest hs hs' (tail o) (tail o')
      show ((next (o 0) s).exec (tail o) (write (o 0) s)).1 =
        ((next (o' 0) s').exec (tail o') (write (o' 0) s')).1
      rw [hw, hw', ← hsame]
      exact hnext

/-! ## Programs that do given writes -/

/-- In `J` states the program does these writes, in this order, and ends as `r`. -/
def Performs (J : σ → Prop) (does : κ → σ → σ → Prop) :
    Proc σ χ ε α → List κ → Except ε Unit → Prop
  | done _, ws, r => ws = [] ∧ r = .ok ()
  | fail e, ws, r => ws = [] ∧ r = .error e
  | atomic write next, ws, r => ∀ c s, J s →
      (write c s = s ∧ (next c s).Performs J does ws r) ∨
        ∃ k ws', ws = k :: ws' ∧ does k s (write c s) ∧ (next c s).Performs J does ws' r

section Rules

variable {does : κ → σ → σ → Prop} {ws ws' : List κ} {r : Except ε Unit}

/-- What is read first. -/
theorem performs_reads_bind {Q : β → Prop} {p : Proc σ χ ε β} {f : β → Proc σ χ ε α}
    (hp : p.Reads J Q fun _ => False) (hf : ∀ b, Q b → Performs J does (f b) ws r) :
    Performs J does (p.bind f) ws r := by
  induction p with
  | done b => exact hf b hp
  | fail e => exact hp.elim
  | atomic write next ih =>
      intro c s hs
      obtain ⟨hw, hn⟩ := hp c s hs
      exact .inl ⟨hw, ih c s hn⟩

/-- A read that fails, always alike. -/
theorem performs_reads_fail {p : Proc σ χ ε β} {f : β → Proc σ χ ε α} {e : ε}
    (hp : p.Reads J (fun _ => False) fun x => x = e) :
    Performs J does (p.bind f) [] (.error e) := by
  induction p with
  | done b => exact hp.elim
  | fail x => exact ⟨rfl, by rw [show x = e from hp]⟩
  | atomic write next ih =>
      intro c s hs
      obtain ⟨hw, hn⟩ := hp c s hs
      exact .inl ⟨hw, ih c s hn⟩

/-- A write, then the rest. -/
theorem performs_step_bind {k : κ} {op : χ → σ → Except ε β × σ} {f : β → Proc σ χ ε α}
    (h : ∀ c s, J s → does k s (op c s).2 ∧ ∃ b, (op c s).1 = .ok b ∧
      Performs J does (f b) ws r) : Performs J does ((step op).bind f) (k :: ws) r := by
  intro c s hs
  obtain ⟨hdoes, b, hb, hf⟩ := h c s hs
  refine .inr ⟨k, ws, rfl, hdoes, ?_⟩
  simp only [hb]
  exact hf

/-- One list of writes after the other. -/
theorem performs_bind {p : Proc σ χ ε β} {f : β → Proc σ χ ε α}
    (hp : Performs J does p ws (.ok ())) (hf : ∀ b, Performs J does (f b) ws' r) :
    Performs J does (p.bind f) (ws ++ ws') r := by
  induction p generalizing ws with
  | done b =>
      obtain ⟨rfl, -⟩ := hp
      exact hf b
  | fail e => cases hp.2
  | atomic write next ih =>
      intro c s hs
      rcases hp c s hs with ⟨hw, hn⟩ | ⟨k, ws'', rfl, hdoes, hn⟩
      · exact .inl ⟨hw, ih c s hn⟩
      · exact .inr ⟨k, ws'' ++ ws', rfl, hdoes, ih c s hn⟩

/-- What throws leaves the rest out. -/
theorem performs_bind_error {p : Proc σ χ ε β} {f : β → Proc σ χ ε α} {e : ε}
    (hp : Performs J does p ws (.error e)) : Performs J does (p.bind f) ws (.error e) := by
  induction p generalizing ws with
  | done b => cases hp.2
  | fail x => exact hp
  | atomic write next ih =>
      intro c s hs
      rcases hp c s hs with ⟨hw, hn⟩ | ⟨k, ws', rfl, hdoes, hn⟩
      · exact .inl ⟨hw, ih c s hn⟩
      · exact .inr ⟨k, ws', rfl, hdoes, ih c s hn⟩

end Rules

end Proc

/-! ## Any number of calls -/

namespace Pool

open Proc

variable {σ χ ε τ κ : Type} {J : σ → Prop} {does : κ → σ → σ → Prop} {P : κ → σ → Prop}
  {ws : List κ} {r : Except ε Unit} {prog : τ → Proc σ χ ε Unit}
  {admits : Pool σ χ ε τ → Move χ τ → Prop}

/-- A call has done the first of the writes, and what is left of it does the others. -/
def Under (J : σ → Prop) (does : κ → σ → σ → Prop) (P : κ → σ → Prop) (ws : List κ)
    (r : Except ε Unit) (s : σ) (p : Proc σ χ ε Unit) : Prop :=
  ∃ finished left, ws = finished ++ left ∧ (∀ k ∈ finished, P k s) ∧
    Performs J does p left r

/-- None of the writes undoes another. -/
structure Lasting (J : σ → Prop) (does : κ → σ → σ → Prop) (P : κ → σ → Prop)
    (ws : List κ) : Prop where
  inside : ∀ k ∈ ws, ∀ s t, J s → does k s t → J t
  sets : ∀ k ∈ ws, ∀ s t, J s → does k s t → P k t
  keeps : ∀ k ∈ ws, ∀ k' ∈ ws, ∀ s t, J s → does k' s t → P k s → P k t

/-- One step of one call keeps the state inside, and what was done by all. -/
theorem under_step (h : Lasting J does P ws) {s : σ} (hs : J s)
    {p : Proc σ χ ε Unit} {write : χ → σ → σ} {next : χ → σ → Proc σ χ ε Unit}
    (hp : Under J does P ws r s p) (heq : p = .atomic write next) (c : χ) :
    J (write c s) ∧ Under J does P ws r (write c s) (next c s) ∧
      ∀ k ∈ ws, P k s → P k (write c s) := by
  subst heq
  obtain ⟨finished, left, rfl, hdone, hleft⟩ := hp
  rcases hleft c s hs with ⟨hw, hn⟩ | ⟨k, left', rfl, hdoes, hn⟩
  · rw [hw]
    exact ⟨hs, ⟨finished, left, rfl, hdone, hn⟩, fun _ _ hk => hk⟩
  · have hk : k ∈ finished ++ k :: left' := by simp
    have hkeep : ∀ k' ∈ finished ++ k :: left', P k' s → P k' (write c s) :=
      fun k' hk' => h.keeps k' hk' k hk s _ hs hdoes
    refine ⟨h.inside k hk s _ hs hdoes, ⟨finished ++ [k], left', by simp, ?_, hn⟩, hkeep⟩
    intro k' hk'
    rcases List.mem_append.mp hk' with hold | hnew
    · exact hkeep k' (by simp [hold]) (hdone k' hold)
    · rw [List.mem_singleton.mp hnew]
      exact h.sets k hk s _ hs hdoes

/-- **Repeated calls**: the state stays inside, and once one call has ended every write is
done. A call that has ended has ended as `r`. -/
theorem repeated (h : Lasting J does P ws) (hprog : ∀ t, Performs J does (prog t) ws r)
    {s : σ} (hs : J s) {q : Pool σ χ ε τ} (hreach : Reaches prog admits (init s) q) :
    J q.state ∧ ∀ th ∈ q.threads, th.2.running = false →
      th.2 = Proc.ofExcept r ∧ ∀ k ∈ ws, P k q.state := by
  have hinv : J q.state ∧ ∀ th ∈ q.threads, Under J does P ws r q.state th.2 := by
    refine reaches_inv (I := fun p => J p.state ∧ ∀ th ∈ p.threads,
      Under J does P ws r p.state th.2) (fun p m q hp _ hmv => ?_)
      ⟨hs, fun _ hth => (List.not_mem_nil hth).elim⟩ hreach
    cases m with
    | start t =>
        obtain rfl := move_start hmv
        refine ⟨hp.1, fun th hth => ?_⟩
        rcases List.mem_append.mp hth with hth | hth
        · exact hp.2 th hth
        · rw [List.mem_singleton.mp hth]
          exact ⟨[], ws, rfl, nofun, hprog t⟩
    | run i c =>
        obtain ⟨t, write, next, hi, rfl⟩ := move_run hmv
        obtain ⟨hJ, hnext, hkeep⟩ := under_step h hp.1 (hp.2 _ (List.mem_of_getElem? hi)) rfl c
        refine ⟨hJ, fun th hth => ?_⟩
        rcases List.mem_or_eq_of_mem_set hth with hth | rfl
        · obtain ⟨finished, left, heq, hdone, hleft⟩ := hp.2 th hth
          refine ⟨finished, left, heq, fun k hk => hkeep k ?_ (hdone k hk), hleft⟩
          rw [heq]
          simp [hk]
        · exact hnext
  refine ⟨hinv.1, fun th hth hended => ?_⟩
  obtain ⟨finished, left, heq, hdone, hleft⟩ := hinv.2 th hth
  cases hprogram : th.2 with
  | done a =>
      rw [hprogram] at hleft
      obtain ⟨rfl, rfl⟩ := hleft
      rw [List.append_nil] at heq
      exact ⟨rfl, heq ▸ hdone⟩
  | fail e =>
      rw [hprogram] at hleft
      obtain ⟨rfl, rfl⟩ := hleft
      rw [List.append_nil] at heq
      exact ⟨rfl, heq ▸ hdone⟩
  | atomic write next =>
      rw [hprogram] at hended
      cases hended

end Pool

end Anypay.Async
