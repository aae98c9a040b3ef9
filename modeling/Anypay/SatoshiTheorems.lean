/-
Anypay.SatoshiTheorems — from base units to coins and back.

Dividing by a power of ten moves the point, so an amount of at most fifteen significant
digits keeps them, and a number has room for fifteen (`Survives`). `satoshis_back_iff`
follows them there and back: nothing is lost at any scale of the registry, except that
XRP reads its drops with `parseInt` from the text of a number, which from 10^21 on has
an exponent.
-/
import Mathlib.Tactic.Positivity
import Anypay.Chains.Registry
import Anypay.Json.Rounding
import Anypay.Satoshis

namespace Anypay.Numbers

open Double

/-! ## Fifteen digits -/

/-- A decimal of at most fifteen significant digits. -/
def Fifteen (q : Rat) : Prop := ∃ m a b : Nat, m < 10 ^ 15 ∧ q = m * 10 ^ a / 10 ^ b

/-- The largest number. -/
def largest : Rat := (2 ^ 53 - 1) * 2 ^ 971

theorem le_largest {q : Rat} (h : q ≤ 2 ^ 100) : q ≤ largest := by
  have hsmall : (2 : Rat) ^ 100 ≤ 2 ^ 971 := pow_le_pow_right₀ (by norm_num) (by norm_num)
  have hpos : (0 : Rat) ≤ 2 ^ 971 := by positivity
  have hmul : (2 : Rat) ^ 971 ≤ largest := le_mul_of_one_le_left hpos (by norm_num)
  exact h.trans (hsmall.trans hmul)

/-- A decimal of at most fifteen significant digits survives the conversion to a number
and back, where it is neither too large nor too close to zero for one. -/
def Survives (number : Rat → Rat) : Prop :=
  ∀ q, Fifteen q → q = 0 ∨ (1 / 10 ^ 307 ≤ q ∧ q ≤ largest) → number q = q

theorem Fifteen.div {q : Rat} (h : Fifteen q) (d : Nat) : Fifteen (q / 10 ^ d) := by
  obtain ⟨m, a, b, hm, rfl⟩ := h
  refine ⟨m, a, b + d, hm, ?_⟩
  rw [pow_add, div_div]

variable {number : Rat → Rat} {n d : Nat}

/-- The point is moved. -/
theorem Survives.shift (h : Survives number) (hn : Fifteen n) (hlargest : (n : Rat) ≤ largest)
    (hd : d ≤ 18) : number ((n : Rat) / 10 ^ d) = (n : Rat) / 10 ^ d := by
  have hpow : (1 : Rat) ≤ 10 ^ d := one_le_pow₀ (by norm_num)
  have hpos : (0 : Rat) < 10 ^ d := by positivity
  refine h _ (hn.div d) ?_
  rcases Nat.eq_zero_or_pos n with rfl | hone
  · left
    simp
  · have hn1 : (1 : Rat) ≤ n := by exact_mod_cast hone
    refine .inr ⟨?_, ?_⟩
    · calc (1 : Rat) / 10 ^ 307 ≤ 1 / 10 ^ d :=
            one_div_le_one_div_of_le hpos (pow_le_pow_right₀ (by norm_num) (by omega))
        _ ≤ n / 10 ^ d := div_le_div_of_nonneg_right hn1 hpos.le
    · exact (div_le_self (by positivity) hpow).trans hlargest

/-- Twenty digits are enough for the quotient. -/
theorem dp_shift (hd : d ≤ 18) : dp 20 ((n : Rat) / 10 ^ d) = (n : Rat) / 10 ^ d := by
  have hquotient : (n : Rat) / 10 ^ d = ((n * 10 ^ (20 - d) : Nat) : Rat) / 10 ^ 20 := by
    have hsplit : (10 : Rat) ^ 20 = 10 ^ (20 - d) * 10 ^ d := by
      rw [← pow_add]
      congr 1
      omega
    push_cast
    rw [hsplit, mul_comm (n : Rat), mul_div_mul_left _ _ (by positivity)]
  rw [hquotient, dp_natCast_div]

/-! ## Reading a number -/

theorem trunc_natCast (n : Nat) : trunc n = n := by
  have hnonneg : ¬ (n : Rat) < 0 := not_lt.mpr (by positivity)
  rw [trunc, if_neg hnonneg]
  exact_mod_cast Rat.floor_intCast n

/-- `parseInt` gives a whole number back where its text has no exponent. -/
theorem parseFixed_natCast_iff (n : Nat) : parseFixed n = n ↔ n < 10 ^ 21 := by
  have hcast : (n : Rat) < (exponential : Nat) ↔ n < 10 ^ 21 := by
    rw [Nat.cast_lt]
    rfl
  unfold parseFixed
  by_cases hn : n < 10 ^ 21
  · rw [if_pos (hcast.mpr hn)]
    exact iff_of_true (halfUp_natCast n) hn
  · rw [if_neg (fun h => hn (hcast.mp h))]
    have hfloor : (n : Rat).floor.toNat = n := by
      have hint : (n : Rat).floor = (n : Int) := by exact_mod_cast Rat.floor_intCast n
      rw [hint, Int.toNat_natCast]
    have hdigit := leadingDigit_lt n
    rw [hfloor]
    constructor
    · intro h
      omega
    · intro h
      exact absurd h hn

/-- Where the product is a number, and XRP's text has no exponent, the count is the exact
one. -/
theorem toSatoshis_eq {plugin : Plugin} {decimal : Rat}
    (hexact : number (decimal * 10 ^ plugin.decimals) = decimal * 10 ^ plugin.decimals)
    (htext : plugin.roundSatoshis = true → |decimal * 10 ^ plugin.decimals| < 10 ^ 21) :
    toSatoshis number plugin decimal = plugin.toSatoshis decimal := by
  have hexponential : ((exponential : Nat) : Rat) = 10 ^ 21 := by norm_num [exponential]
  simp only [toSatoshis, Plugin.toSatoshis, hexact]
  cases hround : plugin.roundSatoshis with
  | false => rfl
  | true =>
      obtain ⟨hlow, hhigh⟩ := abs_lt.mp (htext hround)
      rw [if_pos rfl, if_pos rfl]
      split
      · rw [parseFixed, if_pos (by rw [hexponential]; linarith), halfUp_neg, neg_neg]
      · rw [parseFixed, if_pos (by rw [hexponential]; exact hhigh)]

/-! ## The registry -/

/-- Key, decimals, and whether `toSatoshis` is overridden. -/
def scales : List (String × Nat × Bool) := [
  ("BTC", 8, false), ("BSV", 8, false), ("BCH", 8, false), ("DASH", 8, false),
  ("LTC", 8, false), ("DOGE", 8, false), ("AVAX", 18, false), ("ETH", 18, false),
  ("SOL", 0, false), ("XRP", 6, true), ("XLM", 0, false), ("XMR", 12, false),
  ("MATIC", 18, false), ("USDC.AVAX", 6, false), ("USDC.MATIC", 6, false),
  ("USDC.ETH", 6, false), ("USDC.SOL", 6, false), ("USDT.AVAX", 6, false),
  ("USDT.MATIC", 6, false), ("USDT.ETH", 6, false), ("USDT.SOL", 6, false),
  ("FB", 8, false)]

theorem scales_eq (libraries : ChainLibraries) : (plugins libraries).map (fun entry =>
    (entry.1, entry.2.decimals, entry.2.roundSatoshis)) = scales := rfl

/-- At most eighteen decimals, and XRP alone reads a text. -/
theorem scale_of_mem {libraries : ChainLibraries} {key : String} {plugin : Plugin}
    (h : (key, plugin) ∈ plugins libraries) :
    plugin.decimals ≤ 18 ∧ (plugin.roundSatoshis = true ↔ key = "XRP") := by
  have hall : ∀ scale ∈ scales, scale.2.1 ≤ 18 ∧ (scale.2.2 = true ↔ scale.1 = "XRP") := by
    decide +kernel
  refine hall (key, plugin.decimals, plugin.roundSatoshis) ?_
  rw [← scales_eq libraries]
  exact List.mem_map.mpr ⟨(key, plugin), h, rfl⟩

/-! ## The main result -/

/-- **There and back.** A whole number of base units of at most fifteen significant digits
comes back from coins, for every plugin of the registry; XRP needs it below 10^21. -/
theorem satoshis_back_iff (libraries : ChainLibraries) (hnumber : Survives number)
    {key : String} {plugin : Plugin} (h : (key, plugin) ∈ plugins libraries) {n : Nat}
    (hn : Fifteen n) (hlargest : (n : Rat) ≤ largest) :
    toSatoshis number plugin (fromSatoshis number plugin n) = n ↔
      (key = "XRP" → n < 10 ^ 21) := by
  obtain ⟨hdecimals, hrounds⟩ := scale_of_mem h
  have hcoins : fromSatoshis number plugin n = (n : Rat) / 10 ^ plugin.decimals := by
    rw [fromSatoshis, dp_shift hdecimals, hnumber.shift hn hlargest hdecimals]
  have hunits : number ((n : Rat) / 10 ^ plugin.decimals * 10 ^ plugin.decimals) = n := by
    have hwhole := hnumber.shift hn hlargest (Nat.zero_le 18)
    rw [pow_zero, div_one] at hwhole
    rw [div_mul_cancel₀ _ (by positivity), hwhole]
  have hnonneg : ¬ (n : Rat) < 0 := not_lt.mpr (by positivity)
  simp only [toSatoshis, hcoins, hunits, if_neg hnonneg]
  by_cases hkey : key = "XRP"
  · rw [if_pos (hrounds.mpr hkey), parseFixed_natCast_iff]
    simp [hkey]
  · rw [if_neg (fun hround => hkey (hrounds.mp hround))]
    simp [hkey, trunc_natCast]

/-- Half an ether, and a number format that keeps every decimal. -/
theorem satoshis_back_ether :
    toSatoshis id (ETH.plugin {}) (fromSatoshis id (ETH.plugin {}) (5 * 10 ^ 17 : Nat)) =
      (5 * 10 ^ 17 : Nat) := by
  have hmem : ("ETH", ETH.plugin {}) ∈ plugins {} := by simp [plugins]
  have hfifteen : Fifteen ((5 * 10 ^ 17 : Nat) : Rat) := ⟨5, 17, 0, by norm_num, by norm_num⟩
  have hlargest : ((5 * 10 ^ 17 : Nat) : Rat) ≤ largest := le_largest (by norm_num)
  exact (satoshis_back_iff {} (fun _ _ _ => rfl) hmem hfifteen hlargest).mpr
    fun hkey => absurd hkey (by decide)

/-- Of 10^21 drops one comes back. -/
theorem drops_lost : ¬ ∀ (libraries : ChainLibraries) (number : Rat → Rat), Survives number →
    ∀ (key : String) (plugin : Plugin), (key, plugin) ∈ plugins libraries → ∀ n : Nat,
      Fifteen n → (n : Rat) ≤ largest →
        toSatoshis number plugin (fromSatoshis number plugin n) = n := by
  intro h
  have hmem : ("XRP", XRP.plugin {}) ∈ plugins {} := by simp [plugins]
  have hfifteen : Fifteen ((10 ^ 21 : Nat) : Rat) := ⟨1, 21, 0, by norm_num, by norm_num⟩
  have hlargest : ((10 ^ 21 : Nat) : Rat) ≤ largest := le_largest (by norm_num)
  have hback := h {} id (fun _ _ _ => rfl) _ _ hmem (10 ^ 21) hfifteen hlargest
  have hone : toSatoshis id (XRP.plugin {}) (fromSatoshis id (XRP.plugin {}) (10 ^ 21 : Nat)) =
      1 := by decide +kernel
  rw [hone] at hback
  exact absurd hback (by decide)

end Anypay.Numbers
