/-
Anypay.Async.Relay — work that is handed from one call to the next.

The work goes through STAGES, and each stage says whose TURN it is to take the
work on. The ghost value a call holds is the part it plays, which what was called
decides, so it never changes. A call leaves the stage alone unless it is its turn,
and may rely on the others for that while it is (`Relay.contract`).

`Relay.Running` says that the calls of a pool keep to this: parts that ever have a
turn are played by one call each, and until the first of them is called the work is
at its first stage. `relay_reaches` is the rule in one piece. What a part promises
to have done once it has ended is read off by `Running.ended`.
-/
import Anypay.Async.Pool

namespace Anypay.Async

open Proc

variable {σ χ ε τ ρ S : Type}

/-- What the state is like at a stage, whose turn it is there, and what no step
undoes. -/
structure Relay (σ S ρ : Type) where
  At : S → σ → Prop
  turn : S → ρ
  Frame : σ → σ → Prop
  unique : ∀ {a b s}, At a s → At b s → a = b
  refl : ∀ s, Frame s s
  trans : ∀ {s t u}, Frame s t → Frame t u → Frame s u

namespace Relay

variable (R : Relay σ S ρ) (answers : ρ → χ → Prop)

/-- Who has the turn may move the work on, nobody else does. -/
def contract : Contract σ χ ρ where
  answers g _ c := answers g c
  rely g s t := R.Frame s t ∧ ∀ a, R.At a s → ∃ b, R.At b t ∧ (R.turn a = g → b = a)
  guar g s t g' := g' = g ∧ R.Frame s t ∧
    ∀ a, R.At a s → ∃ b, R.At b t ∧ (b = a ∨ R.turn a = g)
  guar_refl _ s := ⟨rfl, R.refl s, fun a ha => ⟨a, ha, .inl rfl⟩⟩
  rely_refl _ s := ⟨R.refl s, fun a ha => ⟨a, ha, fun _ => rfl⟩⟩
  rely_trans h h' := by
    refine ⟨R.trans h.1 h'.1, fun a ha => ?_⟩
    obtain ⟨b, hb, hab⟩ := h.2 a ha
    obtain ⟨c, hc, hbc⟩ := h'.2 b hb
    refine ⟨c, hc, fun hturn => ?_⟩
    obtain rfl := hab hturn
    exact hbc hturn

variable {R answers} {g : ρ} {a b : S} {s t : σ}

theorem rely_frame (h : (R.contract answers).rely g s t) : R.Frame s t := h.1

/-- Nobody takes the work on in one's own turn. -/
theorem at_of_rely (ha : R.At a s) (hturn : R.turn a = g)
    (h : (R.contract answers).rely g s t) : R.At a t := by
  obtain ⟨b, hb, hab⟩ := h.2 a ha
  exact hab hturn ▸ hb

/-- A step that leaves the stage alone is anyone's. -/
theorem stays (hframe : R.Frame s t) (h : ∀ a, R.At a s → R.At a t) :
    (R.contract answers).guar g s t g ∧ (R.contract answers).rely g s t :=
  ⟨⟨rfl, hframe, fun a ha => ⟨a, h a ha, .inl rfl⟩⟩, hframe, fun a ha => ⟨a, h a ha, fun _ => rfl⟩⟩

/-- A step in one's own turn. -/
theorem moves (hframe : R.Frame s t) (ha : R.At a s) (hb : R.At b t) (hturn : R.turn a = g) :
    (R.contract answers).guar g s t g := by
  refine ⟨rfl, hframe, fun a' ha' => ⟨b, hb, .inr ?_⟩⟩
  rw [R.unique ha' ha, hturn]

/-! ## Pools -/

open Pool

/-- The parts of the calls made so far. -/
def parts (part : τ → ρ) (p : Pool σ χ ε τ) : List ρ := p.threads.map fun th => part th.1

/-- The calls play their parts. -/
structure Running (R : Relay σ S ρ) (answers : ρ → χ → Prop) (part : τ → ρ) (first : S)
    (Q E : ρ → σ → Prop) (p : Pool σ χ ε τ) : Prop where
  kept : Kept (R.contract answers) Q E p (parts part p)
  stage : ∃ a, R.At a p.state ∧ (R.turn first ∉ parts part p → a = first)
  alone : ∀ (i j : Nat) a, i ≠ j → (parts part p)[i]? = some (R.turn a) →
    (parts part p)[j]? ≠ some (R.turn a)

variable {prog : τ → Proc σ χ ε Unit} {part : τ → ρ} {first : S} {Q E : ρ → σ → Prop}
  {p q : Pool σ χ ε τ}

theorem parts_start {x : τ} (hmv : p.move prog (.start x) = some q) :
    parts part q = parts part p ++ [part x] := by
  obtain rfl := move_start hmv
  simp [parts]

theorem parts_run {i : Nat} {c : χ} (hmv : p.move prog (.run i c) = some q) :
    parts part q = parts part p := by
  obtain ⟨x, write, next, hi, rfl⟩ := move_run hmv
  rw [parts, List.map_set]
  apply set_same
  rw [List.getElem?_map, hi]
  rfl

theorem getElem?_parts {i : Nat} {g : ρ} (h : (parts part p)[i]? = some g) :
    ∃ th, p.threads[i]? = some th ∧ part th.1 = g := by
  rw [parts, List.getElem?_map] at h
  exact Option.map_eq_some_iff.mp h

theorem Running.init (hs : R.At first s) :
    Running R answers part first Q E (Pool.init s : Pool σ χ ε τ) where
  kept := kept_init s
  stage := ⟨first, hs, fun _ => rfl⟩
  alone i j a _ hi := by simp [parts, Pool.init] at hi

/-- A call may start in a part that never has a turn, or that nobody else plays. -/
theorem Running.start {x : τ} (h : Running R answers part first Q E p)
    (hmv : p.move prog (.start x) = some q)
    (hx : Meets (R.contract answers) (fun _ => Q) (fun _ => E) (prog x) (part x) p.state)
    (halone : ∀ a, R.turn a = part x → part x ∉ parts part p) :
    Running R answers part first Q E q := by
  have hkept := kept_start h.kept hmv hx
  have hparts : parts part q = parts part p ++ [part x] := parts_start hmv
  rw [← hparts] at hkept
  refine ⟨hkept, ?_, ?_⟩
  · obtain ⟨a, ha, hfirst⟩ := h.stage
    obtain rfl := move_start hmv
    refine ⟨a, ha, fun hno => hfirst fun hmem => hno ?_⟩
    rw [hparts]
    exact List.mem_append_left _ hmem
  · rw [hparts]
    intro i j a hij hi hj
    rcases getElem?_concat hi with hi | ⟨hi, he⟩
    · rcases getElem?_concat hj with hj | ⟨-, he⟩
      · exact h.alone i j a hij hi hj
      · exact halone a he (he ▸ List.mem_of_getElem? hi)
    · rcases getElem?_concat hj with hj | ⟨hj, -⟩
      · exact halone a he (he ▸ List.mem_of_getElem? hj)
      · omega

theorem Running.run {i : Nat} {c : χ} (h : Running R answers part first Q E p)
    (hmv : p.move prog (.run i c) = some q)
    (hc : ∀ th, p.threads[i]? = some th → answers (part th.1) c) :
    Running R answers part first Q E q := by
  obtain ⟨x, pr, g, g', -, -, hgi, ⟨rfl, hframe, hguar⟩, hnext⟩ :=
    kept_run h.kept hmv fun g hg => by
      obtain ⟨th, hth, rfl⟩ := getElem?_parts hg
      exact hc th hth
  have hparts : parts part q = parts part p := parts_run hmv
  have hself : (parts part p).set i g' = parts part p := set_same hgi
  refine ⟨?_, ?_, fun j k a => ?_⟩
  · -- the others play another part, or one that never has a turn
    have hkept := hnext fun j k hj hk => by
      refine ⟨hframe, fun a ha => ?_⟩
      obtain ⟨b, hb, hab⟩ := hguar a ha
      refine ⟨b, hb, fun hturn => hab.resolve_right fun hturn' => ?_⟩
      exact h.alone j i a hj (hk.trans (congrArg some hturn.symm))
        (hgi.trans (congrArg some hturn'.symm))
    rwa [hself, ← hparts] at hkept
  · obtain ⟨a, ha, hfirst⟩ := h.stage
    obtain ⟨b, hb, hab⟩ := hguar a ha
    refine ⟨b, hb, fun hno => ?_⟩
    rw [hparts] at hno
    obtain rfl := hfirst hno
    exact hab.resolve_right fun hturn => hno (hturn ▸ List.mem_of_getElem? hgi)
  · rw [hparts]
    exact h.alone j k a

/-- The rule in one piece. -/
theorem relay_reaches {admits : Pool σ χ ε τ → Move χ τ → Prop}
    (hstart : ∀ p x, Running R answers part first Q E p → admits p (.start x) →
      Meets (R.contract answers) (fun _ => Q) (fun _ => E) (prog x) (part x) p.state ∧
        ∀ a, R.turn a = part x → part x ∉ parts part p)
    (hanswer : ∀ p i c, admits p (.run i c) → ∀ th, p.threads[i]? = some th →
      answers (part th.1) c)
    (hp : Running R answers part first Q E p) (h : Reaches prog admits p q) :
    Running R answers part first Q E q := by
  refine reaches_inv (I := Running R answers part first Q E) (fun p m q hp hm hmv => ?_) hp h
  cases m with
  | start x =>
      obtain ⟨hx, halone⟩ := hstart p x hp hm
      exact hp.start hmv hx halone
  | run i c => exact hp.run hmv (hanswer p i c hm)

/-- A call that has ended has done what its part promises. -/
theorem Running.ended {th : τ × Proc σ χ ε Unit} (h : Running R answers part first Q E p)
    (hth : th ∈ p.threads) (hend : th.2.running = false) :
    Q (part th.1) p.state ∨ E (part th.1) p.state := by
  obtain ⟨i, hi⟩ := List.getElem?_of_mem hth
  obtain ⟨g, hg, hmeets⟩ := h.kept.getElem hi
  rw [parts, List.getElem?_map, hi] at hg
  obtain rfl := Option.some.inj hg
  obtain ⟨x, pr⟩ := th
  cases pr with
  | done _ => exact .inl (hmeets p.state ((R.contract answers).rely_refl _ _))
  | fail _ => exact .inr (hmeets p.state ((R.contract answers).rely_refl _ _))
  | atomic write next => cases hend

end Relay

end Anypay.Async
