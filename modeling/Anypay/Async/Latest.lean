/-
Anypay.Async.Latest — calls that take turns by key, and what the last one leaves.

Every call has a KEY, and starts only while no call of its key is under way; calls of
other keys may interleave with it as they like. Its steps leave alone what belongs to
other keys. Then what a call has to leave behind stands until the next call of its key
starts (`latest_reaches`).

The ghost value is the call itself, held by the last call of each key whether it has
ended or not, and given up when the next one of the key starts.
-/
import Anypay.Async.Pool

namespace Anypay.Async.Pool

open Proc

variable {σ χ ε τ κ : Type} {prog : τ → Proc σ χ ε Unit}

/-- What a call has to leave, as long as it is the last of its key. -/
def LeftBy (Q : τ → σ → Prop) (g : Option τ) (s : σ) : Prop := ∀ t, g = some t → Q t s

/-- It has to end well. -/
def Never (g : Option τ) (_ : σ) : Prop := g = none

/-- What a contract over keys must satisfy. -/
structure ByKey (C : Contract σ χ (Option τ)) (J : σ → Prop) (key : τ → κ) : Prop where
  same : ∀ {g s s' g'}, C.guar g s s' g' → g' = g
  keep : ∀ {g s s'}, C.guar g s s' g → J s → J s'
  /-- A step suits the calls of the other keys. -/
  apart : ∀ {t t' s s'}, C.guar (some t) s s' (some t) → key t' ≠ key t → C.rely (some t') s s'
  /-- A call that was followed by another asks nothing. -/
  free : ∀ {s s'}, C.rely none s s'

/-- No later call of the pool has the key of this one. -/
def LastOfKey (key : τ → κ) (p : Pool σ χ ε τ) (i : Nat) (t : τ) : Prop :=
  ∀ j th, i < j → p.threads[j]? = some th → key th.1 ≠ key t

/-- The last call of each key keeps the contract; the others have ended. -/
structure Held (C : Contract σ χ (Option τ)) (J : σ → Prop) (Q : τ → σ → Prop) (key : τ → κ)
    (p : Pool σ χ ε τ) (gs : List (Option τ)) : Prop where
  kept : Kept C (LeftBy Q) Never p gs
  state : J p.state
  own : ∀ (i : Nat) t, gs[i]? = some (some t) → ∃ pr, p.threads[i]? = some (t, pr)
  left : ∀ (i : Nat) th, p.threads[i]? = some th → gs[i]? = some none →
    th.2.running = false ∧ ∃ j th', i < j ∧ p.threads[j]? = some th' ∧ key th'.1 = key th.1
  alone : ∀ (i j : Nat) t t', gs[i]? = some (some t) → gs[j]? = some (some t') →
    key t = key t' → i = j

variable {C : Contract σ χ (Option τ)} {J : σ → Prop} {Q : τ → σ → Prop} {key : τ → κ}
  {p q : Pool σ χ ε τ} {gs : List (Option τ)}

theorem Held.init {s : σ} (hs : J s) : Held C J Q key (Pool.init s : Pool σ χ ε τ) [] where
  kept := kept_init s
  state := hs
  own := by simp
  left := by simp
  alone := by simp

/-- A call under way holds its ghost. -/
theorem Held.of_running (h : Held C J Q key p gs) {i : Nat} {th : τ × Proc σ χ ε Unit}
    (hi : p.threads[i]? = some th) (hrun : th.2.running = true) : gs[i]? = some (some th.1) := by
  obtain ⟨g, hg, -⟩ := h.kept.getElem hi
  cases g with
  | none =>
      rw [(h.left i th hi hg).1] at hrun
      cases hrun
  | some t =>
      obtain ⟨pr, hpr⟩ := h.own i t hg
      obtain rfl := Option.some.inj (hi.symm.trans hpr)
      exact hg

theorem Held.run (hC : ByKey C J key) (h : Held C J Q key p gs) {i : Nat} {c : χ}
    (hmv : p.move prog (.run i c) = some q) (hc : ∀ g, C.answers g p.state c) :
    Held C J Q key q gs := by
  obtain ⟨t, pr, g, g', hi, hrun, hgi, hguar, hnext⟩ := kept_run h.kept hmv fun g _ => hc g
  obtain rfl := hC.same hguar
  obtain rfl : g' = some t := Option.some.inj (hgi.symm.trans (h.of_running hi hrun))
  have hself : gs.set i (some t) = gs := set_same hgi
  have hkept : Kept C (LeftBy Q) Never q gs := by
    rw [← hself]
    apply hnext
    intro j k hj hk
    cases k with
    | none => exact hC.free
    | some t' =>
        refine hC.apart hguar fun hkey => hj ?_
        exact h.alone j i t' t hk hgi hkey
  obtain ⟨t', write, next, hi', rfl⟩ := move_run hmv
  obtain ⟨rfl, -⟩ := Prod.mk.inj (Option.some.inj (hi.symm.trans hi'))
  have hplace : ∀ (j : Nat) th, p.threads[j]? = some th →
      ∃ pr', (p.threads.set i (t, next c p.state))[j]? = some (th.1, pr') := by
    intro j th hj
    by_cases hij : j = i
    · subst hij
      obtain ⟨hlt, -⟩ := List.getElem?_eq_some_iff.mp hi
      obtain rfl := Option.some.inj (hi.symm.trans hj)
      exact ⟨_, List.getElem?_set_self hlt⟩
    · exact ⟨th.2, by rw [List.getElem?_set_ne (Ne.symm hij)]; exact hj⟩
  refine ⟨hkept, hC.keep hguar h.state, fun j t' hj => ?_, fun j th hth hj => ?_, h.alone⟩
  · obtain ⟨pr', hpr'⟩ := h.own j t' hj
    exact hplace j _ hpr'
  · rcases getElem?_set_cases hth with ⟨rfl, -⟩ | ⟨-, hold⟩
    · cases hj.symm.trans hgi
    · obtain ⟨hended, l, th', hjl, hl, hkey⟩ := h.left j th hold hj
      obtain ⟨pr', hpr'⟩ := hplace l th' hl
      exact ⟨hended, l, _, hjl, hpr', hkey⟩

variable [DecidableEq κ]

/-- The ghost of an earlier call of the key is given up. -/
def giveUp (key : τ → κ) (k : κ) : Option τ → Option τ
  | none => none
  | some t => if key t = k then none else some t

theorem giveUp_eq_some {k : κ} {g : Option τ} {t : τ} (h : giveUp key k g = some t) :
    g = some t ∧ key t ≠ k := by
  cases g with
  | none => cases h
  | some t' =>
      by_cases hk : key t' = k
      · simp [giveUp, hk] at h
      · simp only [giveUp, if_neg hk] at h
        exact ⟨h, Option.some.inj h ▸ hk⟩

theorem giveUp_eq_none {k : κ} {g : Option τ} (h : giveUp key k g = none) :
    g = none ∨ ∃ t, g = some t ∧ key t = k := by
  cases g with
  | none => exact .inl rfl
  | some t =>
      by_cases hk : key t = k
      · exact .inr ⟨t, rfl, hk⟩
      · simp [giveUp, hk] at h

/-- A call starts while none of its key is under way. -/
theorem Held.start (h : Held C J Q key p gs) {t : τ}
    (hmv : p.move prog (.start t) = some q) (hidle : p.Idle fun t' => key t' = key t)
    (hg : Meets C (fun _ => LeftBy Q) (fun _ => Never) (prog t) (some t) p.state) :
    Held C J Q key q (gs.map (giveUp key (key t)) ++ [some t]) := by
  have hlen := h.kept.length_eq
  have hended : ∀ (i : Nat) th t', p.threads[i]? = some th → gs[i]? = some (some t') →
      key t' = key t → th.2.running = false := by
    intro i th t' hth hi hkey
    obtain ⟨pr, hpr⟩ := h.own i t' hi
    obtain rfl := Option.some.inj (hth.symm.trans hpr)
    by_contra hrun
    exact hidle _ (List.mem_of_getElem? hth) (by simpa using hrun) hkey
  have hkept : Kept C (LeftBy Q) Never p (gs.map (giveUp key (key t))) := by
    refine List.forall₂_iff_get.mpr ⟨by simp [hlen], fun i h₁ h₂ => ?_⟩
    have h₂' : i < gs.length := by simpa using h₂
    have hthread : p.threads[i]? = some p.threads[i] := List.getElem?_eq_getElem h₁
    have hghost : gs[i]? = some gs[i] := List.getElem?_eq_getElem h₂'
    have hmeets := List.Forall₂.get h.kept h₁ h₂'
    simp only [List.get_eq_getElem, List.getElem_map] at hmeets ⊢
    cases hgive : giveUp key (key t) gs[i] with
    | some t' => rwa [(giveUp_eq_some hgive).1] at hmeets
    | none =>
        rcases giveUp_eq_none hgive with hnone | ⟨t', hsome, hkey⟩
        · rwa [hnone] at hmeets
        · have hend := hended i _ t' hthread (hghost.trans (congrArg some hsome)) hkey
          cases hpr : (p.threads[i]).2 with
          | done a => exact fun _ _ => nofun
          | fail e => exact fun _ _ => rfl
          | atomic write next => simp [hpr] at hend
  have hold : ∀ (i : Nat) t', (gs.map (giveUp key (key t)))[i]? = some (some t') →
      gs[i]? = some (some t') ∧ key t' ≠ key t := by
    intro i t' hi
    rw [List.getElem?_map, Option.map_eq_some_iff] at hi
    obtain ⟨g, hgi, hgive⟩ := hi
    obtain ⟨rfl, hne⟩ := giveUp_eq_some hgive
    exact ⟨hgi, hne⟩
  have hkept' := kept_start hkept hmv hg
  obtain rfl := move_start hmv
  refine ⟨hkept', h.state, fun i t' hi => ?_, fun i th hth hi => ?_, fun i j t₁ t₂ hi hj hkey => ?_⟩
  · rcases getElem?_concat hi with hi | ⟨hi, heq⟩
    · obtain ⟨pr, hpr⟩ := h.own i t' (hold i t' hi).1
      have hlt : i < p.threads.length := (List.getElem?_eq_some_iff.mp hpr).1
      exact ⟨pr, by rw [List.getElem?_append_left hlt]; exact hpr⟩
    · obtain rfl := Option.some.inj heq
      rw [hi, List.length_map, ← hlen]
      exact ⟨_, List.getElem?_concat_length⟩
  · rcases getElem?_concat hi with hi | ⟨-, hno⟩
    · have hlt : i < p.threads.length := by
        have hlt : i < (gs.map (giveUp key (key t))).length := (List.getElem?_eq_some_iff.mp hi).1
        rwa [List.length_map, ← hlen] at hlt
      rw [List.getElem?_append_left hlt] at hth
      rw [List.getElem?_map, Option.map_eq_some_iff] at hi
      obtain ⟨g, hgi, hgive⟩ := hi
      rcases giveUp_eq_none hgive with rfl | ⟨t', rfl, hkey⟩
      · obtain ⟨hend, j, th', hij, hj, hkey⟩ := h.left i th hth hgi
        have hltj : j < p.threads.length := (List.getElem?_eq_some_iff.mp hj).1
        exact ⟨hend, j, th', hij, by rw [List.getElem?_append_left hltj]; exact hj, hkey⟩
      · refine ⟨hended i th t' hth hgi hkey, p.threads.length, _, hlt,
          List.getElem?_concat_length, ?_⟩
        obtain ⟨pr, hpr⟩ := h.own i t' hgi
        obtain rfl := Option.some.inj (hth.symm.trans hpr)
        exact hkey.symm
    · cases hno
  · rcases getElem?_concat hi with hi | ⟨hi, heq⟩
    · rcases getElem?_concat hj with hj | ⟨hj, heq'⟩
      · exact h.alone i j t₁ t₂ (hold i t₁ hi).1 (hold j t₂ hj).1 hkey
      · obtain rfl := Option.some.inj heq'
        exact absurd hkey (hold i t₁ hi).2
    · obtain rfl := Option.some.inj heq
      rcases getElem?_concat hj with hj | ⟨hj, -⟩
      · exact absurd hkey.symm (hold j t₂ hj).2
      · exact hi.trans hj.symm

/-- **The last call of a key**: where calls start only while none of their key is under
way, and what they do to other keys is nothing, the last call of each key has left what it
has to once it has ended, and the state is kept. -/
theorem latest_reaches {admits : Pool σ χ ε τ → Move χ τ → Prop} {s : σ} (hC : ByKey C J key)
    (hstart : ∀ p t, J p.state → admits p (.start t) → (p.Idle fun t' => key t' = key t) ∧
      Meets C (fun _ => LeftBy Q) (fun _ => Never) (prog t) (some t) p.state)
    (hanswer : ∀ p i c, admits p (.run i c) → ∀ g, C.answers g p.state c)
    (hs : J s) (h : Reaches prog admits (Pool.init s) q) :
    J q.state ∧ ∀ (i : Nat) th, q.threads[i]? = some th → th.2.running = false →
      LastOfKey key q i th.1 → th.2 = .done () ∧ Q th.1 q.state := by
  have hheld : ∃ gs, Held C J Q key q gs := by
    refine reaches_inv (I := fun p => ∃ gs, Held C J Q key p gs) (fun p m q hp hm hmv => ?_)
      ⟨[], Held.init hs⟩ h
    obtain ⟨gs, hgs⟩ := hp
    cases m with
    | start t =>
        obtain ⟨hidle, hmeets⟩ := hstart p t hgs.state hm
        exact ⟨_, hgs.start hmv hidle hmeets⟩
    | run i c => exact ⟨gs, hgs.run hC hmv (hanswer p i c hm)⟩
  obtain ⟨gs, hgs⟩ := hheld
  refine ⟨hgs.state, fun i th hi hended hlast => ?_⟩
  obtain ⟨g, hg, hmeets⟩ := hgs.kept.getElem hi
  cases g with
  | none =>
      obtain ⟨-, j, th', hij, hj, hkey⟩ := hgs.left i th hi hg
      exact absurd hkey (hlast j th' hij hj)
  | some t =>
      obtain ⟨pr, hpr⟩ := hgs.own i t hg
      obtain rfl := Option.some.inj (hi.symm.trans hpr)
      cases pr with
      | done a => exact ⟨rfl, hmeets _ (C.rely_refl _ _) t rfl⟩
      | fail e => cases hmeets _ (C.rely_refl _ _)
      | atomic write next => cases hended

end Anypay.Async.Pool
