/-
Anypay.Json.Rounding — what rounding keeps and how far it goes.

`halfUp` is to the nearest whole number, halves away from zero, `dp n` to `n`
digits after the point. Both keep the order and what needs no rounding, and are at
most half a unit off. `le_halfUp_iff` says from where on a number is rounded to a
given one: it is what the exact conditions are made of.
-/
import Mathlib.Tactic.Linarith
import Mathlib.Tactic.Ring
import Mathlib.Tactic.FieldSimp
import Mathlib.Algebra.Order.Floor.Ring
import Anypay.Json.Number

namespace Anypay

/-! ## To whole numbers -/

theorem lt_floor_succ (x : Rat) : x < (x.floor : Rat) + 1 := by
  have h := Rat.lt_floor_add_one x
  push_cast at h
  exact h

theorem abs_halfUp_sub_le (q : Rat) : |(halfUp q : Rat) - q| ≤ 1 / 2 := by
  unfold halfUp
  split
  · have h₁ : ((-q + 1 / 2).floor : Rat) ≤ -q + 1 / 2 := Rat.floor_le _
    have h₂ : -q + 1 / 2 < ((-q + 1 / 2).floor : Rat) + 1 := lt_floor_succ _
    rw [abs_le, Int.cast_neg]
    constructor <;> linarith
  · have h₁ : ((q + 1 / 2).floor : Rat) ≤ q + 1 / 2 := Rat.floor_le _
    have h₂ : q + 1 / 2 < ((q + 1 / 2).floor : Rat) + 1 := lt_floor_succ _
    rw [abs_le]
    constructor <;> linarith

theorem halfUp_mono {p q : Rat} (h : p ≤ q) : halfUp p ≤ halfUp q := by
  unfold halfUp
  split
  · split
    · exact neg_le_neg (Rat.floor_monotone (by linarith))
    · have hp : 0 ≤ (-p + 1 / 2).floor := Rat.le_floor_iff.mpr (by push_cast; linarith)
      have hq : 0 ≤ (q + 1 / 2).floor := Rat.le_floor_iff.mpr (by push_cast; linarith)
      omega
  · split
    · linarith
    · exact Rat.floor_monotone (by linarith)

/-- From half a unit below a positive number on, it or more comes out. -/
theorem le_halfUp_iff {k : Int} (hk : 0 < k) {q : Rat} :
    k ≤ halfUp q ↔ (k : Rat) - 1 / 2 ≤ q := by
  have hk1 : (1 : Rat) ≤ k := by exact_mod_cast hk
  unfold halfUp
  split
  · have hfloor : 0 ≤ (-q + 1 / 2).floor := Rat.le_floor_iff.mpr (by push_cast; linarith)
    constructor
    · intro h
      omega
    · intro h
      linarith
  · rw [Rat.le_floor_iff]
    constructor
    · intro h
      linarith
    · intro h
      linarith

theorem halfUp_eq_iff {k : Int} (hk : 0 < k) {q : Rat} :
    halfUp q = k ↔ (k : Rat) - 1 / 2 ≤ q ∧ q < (k : Rat) + 1 / 2 := by
  have hlow : k ≤ halfUp q ↔ (k : Rat) - 1 / 2 ≤ q := le_halfUp_iff hk
  have hhigh : k + 1 ≤ halfUp q ↔ ((k + 1 : Int) : Rat) - 1 / 2 ≤ q := le_halfUp_iff (by omega)
  push_cast at hhigh
  constructor
  · intro h
    have hnot : ¬ k + 1 ≤ halfUp q := by omega
    rw [hhigh] at hnot
    exact ⟨hlow.mp h.ge, by linarith⟩
  · rintro ⟨hle, hlt⟩
    have hnot : ¬ k + 1 ≤ halfUp q := by
      rw [hhigh]
      linarith
    have hge := hlow.mpr hle
    omega

/-- A whole number keeps its value. -/
theorem halfUp_natCast (k : Nat) : halfUp (k : Rat) = k := by
  rcases Nat.eq_zero_or_pos k with rfl | hk
  · decide +kernel
  · have hpos : (0 : Int) < k := by exact_mod_cast hk
    have heq : ((k : Nat) : Rat) = ((k : Int) : Rat) := by push_cast; rfl
    rw [heq]
    exact (halfUp_eq_iff hpos).mpr ⟨by linarith, by linarith⟩

/-- Both signs are rounded alike. -/
theorem halfUp_neg (q : Rat) : halfUp (-q) = -halfUp q := by
  unfold halfUp
  rcases lt_trichotomy q 0 with hq | rfl | hq
  · rw [if_neg (by linarith), if_pos hq, neg_neg]
  · decide +kernel
  · rw [if_pos (by linarith), if_neg (by linarith), neg_neg]

/-! ## To digits after the point -/

theorem abs_dp_sub_le (n : Nat) (q : Rat) : |dp n q - q| ≤ 1 / 2 / 10 ^ n := by
  have hpos : (0 : Rat) < 10 ^ n := by positivity
  have hsub : dp n q - q = ((halfUp (q * 10 ^ n) : Rat) - q * 10 ^ n) / 10 ^ n := by
    unfold dp
    field_simp
  rw [hsub, abs_div, abs_of_pos hpos]
  exact div_le_div_of_nonneg_right (abs_halfUp_sub_le _) hpos.le

theorem dp_mono {n : Nat} {p q : Rat} (h : p ≤ q) : dp n p ≤ dp n q := by
  have hpos : (0 : Rat) < 10 ^ n := by positivity
  have hscaled : p * 10 ^ n ≤ q * 10 ^ n := mul_le_mul_of_nonneg_right h hpos.le
  have hint : (halfUp (p * 10 ^ n) : Rat) ≤ halfUp (q * 10 ^ n) := by
    exact_mod_cast halfUp_mono hscaled
  exact div_le_div_of_nonneg_right hint hpos.le

/-- What has no more digits keeps its value. -/
theorem dp_natCast_div (n k : Nat) : dp n ((k : Rat) / 10 ^ n) = (k : Rat) / 10 ^ n := by
  have hpos : (0 : Rat) < 10 ^ n := by positivity
  rw [dp, div_mul_cancel₀ _ hpos.ne', halfUp_natCast, Int.cast_natCast]

theorem dp_neg (n : Nat) (q : Rat) : dp n (-q) = -dp n q := by
  rw [dp, dp, neg_mul, halfUp_neg, Int.cast_neg, neg_div]

theorem dp_one (n : Nat) : dp n 1 = 1 := by
  have hpos : (0 : Rat) < 10 ^ n := by positivity
  have hkept := dp_natCast_div n (10 ^ n)
  push_cast at hkept
  rwa [div_self hpos.ne'] at hkept

theorem dp_zero (n : Nat) : dp n 0 = 0 := by
  have hkept := dp_natCast_div n 0
  rwa [Nat.cast_zero, zero_div] at hkept

theorem one_le_dp {n : Nat} {p : Rat} (h : 1 ≤ p) : 1 ≤ dp n p := by
  have hmono : dp n 1 ≤ dp n p := dp_mono h
  rwa [dp_one] at hmono

theorem dp_le_one {n : Nat} {p : Rat} (h : p ≤ 1) : dp n p ≤ 1 := by
  have hmono : dp n p ≤ dp n 1 := dp_mono h
  rwa [dp_one] at hmono

theorem dp_nonneg {n : Nat} {p : Rat} (h : 0 ≤ p) : 0 ≤ dp n p := by
  have hmono : dp n 0 ≤ dp n p := dp_mono h
  rwa [dp_zero] at hmono

/-- A positive number comes to a number of units or more from half of one below. -/
theorem le_dp_iff {n : Nat} {k : Int} (hk : 0 < k) {q : Rat} :
    (k : Rat) / 10 ^ n ≤ dp n q ↔ ((k : Rat) - 1 / 2) / 10 ^ n ≤ q := by
  have hpos : (0 : Rat) < 10 ^ n := by positivity
  rw [dp, div_le_div_iff_of_pos_right hpos, Int.cast_le, le_halfUp_iff hk, div_le_iff₀ hpos]

/-- From where on rounding comes to a positive number. -/
theorem le_dp_iff_ceil {n : Nat} {p q : Rat} (hp : 0 < p) :
    p ≤ dp n q ↔ (((p * 10 ^ n).ceil : Rat) - 1 / 2) / 10 ^ n ≤ q := by
  have hpos : (0 : Rat) < 10 ^ n := by positivity
  have hceil : 0 < (p * 10 ^ n).ceil := by
    have hscaled : 0 < p * 10 ^ n := mul_pos hp hpos
    have hle : p * 10 ^ n ≤ ((p * 10 ^ n).ceil : Rat) := Rat.le_ceil
    exact_mod_cast hscaled.trans_le hle
  rw [← le_dp_iff hceil, dp, div_le_div_iff_of_pos_right hpos, Int.cast_le, le_div_iff₀ hpos,
    Rat.ceil_le_iff]

/-- A number is rounded to zero below half a unit. -/
theorem dp_pos_iff {n : Nat} {q : Rat} : 0 < dp n q ↔ 1 / 2 / 10 ^ n ≤ q := by
  have hpos : (0 : Rat) < 10 ^ n := by positivity
  have hle : ((1 : Int) : Rat) / 10 ^ n ≤ dp n q ↔ _ := le_dp_iff one_pos
  norm_num at hle ⊢
  rw [← hle, dp]
  constructor
  · intro h
    have hint : (0 : Rat) < halfUp (q * 10 ^ n) := by
      rwa [lt_div_iff₀ hpos, zero_mul] at h
    have hone : (1 : Int) ≤ halfUp (q * 10 ^ n) := by exact_mod_cast hint
    rw [le_div_iff₀ hpos, inv_mul_cancel₀ hpos.ne']
    exact_mod_cast hone
  · intro h
    exact lt_of_lt_of_le (inv_pos.mpr hpos) h

/-- A number keeps a digit from half a unit on. -/
theorem dp_ne_zero_iff {n : Nat} {q : Rat} : dp n q ≠ 0 ↔ 1 / 2 / 10 ^ n ≤ |q| := by
  rcases le_total 0 q with hq | hq
  · rw [abs_of_nonneg hq, ← dp_pos_iff]
    exact ⟨fun h => lt_of_le_of_ne (dp_nonneg hq) h.symm, fun h => h.ne'⟩
  · have hneg : dp n q = -dp n (-q) := by rw [dp_neg, neg_neg]
    rw [abs_of_nonpos hq, ← dp_pos_iff, hneg, neg_ne_zero]
    exact ⟨fun h => lt_of_le_of_ne (dp_nonneg (neg_nonneg.mpr hq)) h.symm, fun h => h.ne'⟩

/-- Numbers a whole unit apart are apart after rounding. -/
theorem dp_ne_of_far {p q : Rat} (h : 1 ≤ |p - q|) : dp 8 p ≠ dp 8 q := by
  intro heq
  have hp := abs_dp_sub_le 8 p
  have hq := abs_dp_sub_le 8 q
  rw [heq] at hp
  have htriangle : |p - q| ≤ |dp 8 q - p| + |dp 8 q - q| := by
    calc |p - q| = |(dp 8 q - q) - (dp 8 q - p)| := by ring_nf
      _ ≤ |dp 8 q - q| + |dp 8 q - p| := abs_sub _ _
      _ = |dp 8 q - p| + |dp 8 q - q| := add_comm _ _
  norm_num at hp hq
  linarith

end Anypay
