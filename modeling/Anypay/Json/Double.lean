/-
Anypay.Json.Double — whole numbers as double-precision numbers.

A whole number read into a double becomes the NEAREST double (`nearest`), exact
up to 2^53. Written out again (`render`, the `Number::toString` of ECMAScript) it
is the shortest decimal that is read back as the same double, and from 10^21 on
that decimal is in exponential notation. `parseInt` reads the digits in front and
stops: below 10^21 it gives the double back (`parseInt_render_of_lt`), from there
on its LEADING DIGIT (`parseInt_render_of_ge`).
-/
import Mathlib.Data.List.TakeWhile
import Mathlib.Data.Nat.Log
import Mathlib.Tactic.Ring
import Mathlib.Tactic.Linarith

namespace Anypay.Double

/-! ## The nearest double -/

/-- The distance of two neighbouring doubles around `n`. -/
def ulp (n : Nat) : Nat := 2 ^ (n.log2 - 52)

/-- The double nearest to a whole number; a tie goes to the even one. -/
def nearest (n : Nat) : Nat :=
  let below := n / ulp n * ulp n
  let rest := n % ulp n
  if 2 * rest < ulp n ∨ (2 * rest = ulp n ∧ n / ulp n % 2 = 0) then below else below + ulp n

theorem ulp_pos (n : Nat) : 0 < ulp n := Nat.two_pow_pos _

theorem nearest_of_dvd {n : Nat} (h : ulp n ∣ n) : nearest n = n := by
  have hrest : n % ulp n = 0 := Nat.mod_eq_zero_of_dvd h
  have hpos : 0 < ulp n := ulp_pos n
  unfold nearest
  simp only [hrest, Nat.mul_zero, hpos, true_or, if_true]
  exact Nat.div_mul_cancel h

/-- A significand of 53 bits, times a power of two. -/
theorem nearest_mul_pow {m e : Nat} (hm : m ≤ 2 ^ 53) : nearest (m * 2 ^ e) = m * 2 ^ e := by
  by_cases hzero : m = 0
  · subst hzero
    rw [Nat.zero_mul]
    exact nearest_of_dvd (Nat.dvd_zero _)
  refine nearest_of_dvd ?_
  rcases Nat.lt_or_eq_of_le hm with hlt | rfl
  · have hne : m * 2 ^ e ≠ 0 := Nat.mul_ne_zero hzero (Nat.two_pow_pos e).ne'
    have hbound : m * 2 ^ e < 2 ^ (53 + e) := by
      rw [Nat.pow_add]
      exact Nat.mul_lt_mul_of_pos_right hlt (Nat.two_pow_pos e)
    have hlog : (m * 2 ^ e).log2 < 53 + e := (Nat.log2_lt hne).mpr hbound
    exact Dvd.dvd.mul_left (Nat.pow_dvd_pow 2 (by omega)) m
  · rw [ulp, ← Nat.pow_add, Nat.log2_two_pow]
    exact Nat.pow_dvd_pow 2 (by omega)

theorem nearest_of_lt {n : Nat} (h : n < 2 ^ 53) : nearest n = n := by
  have hmul := nearest_mul_pow (e := 0) (Nat.le_of_lt h)
  rwa [Nat.pow_zero, Nat.mul_one] at hmul

/-- The nearest double is one. -/
theorem nearest_nearest (n : Nat) : nearest (nearest n) = nearest n := by
  have hbelow : n / ulp n < 2 ^ 53 := by
    by_cases hzero : n = 0
    · simp [hzero]
    rw [Nat.div_lt_iff_lt_mul (ulp_pos n), ulp, ← Nat.pow_add]
    refine (Nat.lt_log2_self (n := n)).trans_le ?_
    exact Nat.pow_le_pow_right (by decide) (by omega)
  have hform : nearest n = n / ulp n * 2 ^ (n.log2 - 52) ∨
      nearest n = (n / ulp n + 1) * 2 ^ (n.log2 - 52) := by
    unfold nearest
    simp only
    split
    · exact .inl rfl
    · right
      rw [Nat.add_mul, Nat.one_mul]
      rfl
  rcases hform with h | h
  · rw [h]
    exact nearest_mul_pow hbelow.le
  · rw [h]
    exact nearest_mul_pow hbelow

/-! ## Written out -/

/-- The multiple of `unit` next to `d` that is read back as `d`, if one is. -/
def roundTrip (d unit : Nat) : Option Nat :=
  let below := d / unit * unit
  let above := below + unit
  let rest := d % unit
  if 2 * rest < unit ∨ (2 * rest = unit ∧ d / unit % 2 = 0) then
    if nearest below = d then some below else if nearest above = d then some above else none
  else
    if nearest above = d then some above else if nearest below = d then some below else none

/-- The first round trip, from `10 ^ places` down to single units. -/
def shortestFrom (d : Nat) : Nat → Nat
  | 0 => d
  | places + 1 =>
      match roundTrip d (10 ^ (places + 1)) with
      | some decimal => decimal
      | none => shortestFrom d places

/-- The decimal of the fewest digits that is read back as the double `d`. -/
def shortest (d : Nat) : Nat := shortestFrom d (Nat.log 10 d)

/-- From here on numbers are written in exponential notation. -/
def exponential : Nat := 10 ^ 21

/-- `String(d)`. -/
def render (d : Nat) : List Char :=
  if d < exponential then Nat.toDigits 10 (shortest d)
  else
    match Nat.toDigits 10 (shortest d) with
    | [] => []
    | lead :: rest =>
        let fraction := (rest.reverse.dropWhile (· == '0')).reverse
        lead :: (if fraction = [] then [] else '.' :: fraction) ++
          ('e' :: '+' :: Nat.toDigits 10 rest.length)

/-- `parseInt(text)` of a text without sign or blanks: its leading digits, none
for NaN. -/
def parseInt (text : List Char) : Option Nat :=
  match text.takeWhile Char.isDigit with
  | [] => none
  | digits => some (nearest (Nat.ofDigitChars 10 digits 0))

theorem roundTrip_some {d unit decimal : Nat} (h : roundTrip d unit = some decimal) :
    nearest decimal = d := by
  unfold roundTrip at h
  simp only at h
  split at h <;> split at h
  · rename_i hbelow
    cases h
    exact hbelow
  · split at h
    · rename_i habove
      cases h
      exact habove
    · cases h
  · rename_i habove
    cases h
    exact habove
  · split at h
    · rename_i hbelow
      cases h
      exact hbelow
    · cases h

/-- What is written is read back. -/
theorem nearest_shortest {d : Nat} (hd : nearest d = d) : nearest (shortest d) = d := by
  have hfrom : ∀ places, nearest (shortestFrom d places) = d := by
    intro places
    induction places with
    | zero => exact hd
    | succ places ih =>
        rw [shortestFrom]
        split
        · rename_i decimal hdecimal
          exact roundTrip_some hdecimal
        · exact ih
  exact hfrom _

theorem isDigit_toDigits {n : Nat} {c : Char} (h : c ∈ Nat.toDigits 10 n) : c.isDigit = true :=
  Nat.isDigit_of_mem_toDigits (by decide) (by decide) h

theorem parseInt_toDigits (n : Nat) : parseInt (Nat.toDigits 10 n) = some (nearest n) := by
  have hall : (Nat.toDigits 10 n).takeWhile Char.isDigit = Nat.toDigits 10 n :=
    List.takeWhile_eq_self_iff.mpr fun c hc => isDigit_toDigits hc
  unfold parseInt
  rw [hall]
  split
  · rename_i hnil
    exact absurd hnil Nat.toDigits_ne_nil
  · rw [Nat.ofDigitChars_ten_toDigits]

/-- Below 10^21 a double survives being written out and read by `parseInt`. -/
theorem parseInt_render_of_lt {d : Nat} (hd : nearest d = d) (h : d < exponential) :
    parseInt (render d) = some d := by
  rw [render, if_pos h, parseInt_toDigits, nearest_shortest hd]

/-! ## The leading digit -/

def leadingDigit (n : Nat) : Nat := if n < 10 then n else leadingDigit (n / 10)

theorem leadingDigit_lt (n : Nat) : leadingDigit n < 10 := by
  induction n using leadingDigit.induct with
  | case1 n h =>
      rw [leadingDigit, if_pos h]
      exact h
  | case2 n h ih =>
      rw [leadingDigit, if_neg h]
      exact ih

theorem toDigits_leadingDigit (n : Nat) :
    ∃ rest, Nat.toDigits 10 n = Nat.digitChar (leadingDigit n) :: rest := by
  induction n using leadingDigit.induct with
  | case1 n h =>
      rw [leadingDigit, if_pos h, Nat.toDigits_of_lt_base h]
      exact ⟨[], rfl⟩
  | case2 n h ih =>
      obtain ⟨rest, hrest⟩ := ih
      rw [leadingDigit, if_neg h, Nat.toDigits_of_base_le (by decide) (by omega), hrest]
      exact ⟨rest ++ [Nat.digitChar (n % 10)], rfl⟩

/-- From 10^21 on `parseInt` reads one digit: the point or the `e` ends it. -/
theorem parseInt_render_of_ge {d : Nat} (h : exponential ≤ d) :
    parseInt (render d) = some (leadingDigit (shortest d)) := by
  obtain ⟨rest, hrest⟩ := toDigits_leadingDigit (shortest d)
  have hlt := leadingDigit_lt (shortest d)
  have hdigit : (Nat.digitChar (leadingDigit (shortest d))).isDigit = true :=
    isDigit_toDigits (hrest ▸ List.mem_cons_self)
  have htext : ∃ c tail, c.isDigit = false ∧
      render d = Nat.digitChar (leadingDigit (shortest d)) :: c :: tail := by
    rw [render, if_neg (Nat.not_lt.mpr h), hrest]
    simp only
    split
    · exact ⟨'e', _, by decide, rfl⟩
    · exact ⟨'.', _, by decide, rfl⟩
  obtain ⟨c, tail, hc, htext⟩ := htext
  have hone : Nat.ofDigitChars 10 [Nat.digitChar (leadingDigit (shortest d))] 0 =
      leadingDigit (shortest d) := by
    rw [Nat.ofDigitChars_cons_digitChar_of_lt_ten hlt, Nat.ofDigitChars_nil]
    omega
  unfold parseInt
  rw [htext]
  simp only [List.takeWhile_cons, hdigit, hc, if_true, Bool.false_eq_true, if_false]
  rw [hone, nearest_of_lt (by omega)]

example : String.ofList (render (nearest 12345678901234567890123)) = "1.2345678901234568e+22" := by
  decide +kernel

end Anypay.Double
