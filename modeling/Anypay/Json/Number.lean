/-
Anypay.Json.Number — `Number(text)`, the conversion of a string to a number,
and `numberText`, the way back.

Surrounding white space is dropped; the empty text is 0; `0x`, `0o` and `0b`
introduce an unsigned integer in that base; everything else is a decimal
literal with an optional sign, fraction and exponent. `none` is NaN (and the
infinities, which no caller can store either). The value is exact: the nearest
double is the same for every number of at most fifteen digits.
-/
import Mathlib.Algebra.Ring.Int.Defs
import Anypay.Json.Value

namespace Anypay

/-- What `Number` trims. -/
def numberSpace (c : Char) : Bool :=
  c == ' ' || c == '\t' || c == '\n' || c == '\r' || c.toNat == 0xa0

/-- The value of a digit in the given base. -/
def digitIn (base : Nat) (c : Char) : Option Nat :=
  let d :=
    if '0' ≤ c ∧ c ≤ '9' then c.toNat - '0'.toNat
    else if 'a' ≤ c ∧ c ≤ 'f' then c.toNat - 'a'.toNat + 10
    else if 'A' ≤ c ∧ c ≤ 'F' then c.toNat - 'A'.toNat + 10
    else base
  if d < base then some d else none

/-- A run of digits, at least one, and nothing else. -/
def digits (base : Nat) (cs : List Char) : Option Nat :=
  match cs with
  | [] => none
  | _ => cs.foldl (fun acc c => acc.bind fun n => (digitIn base c).map (n * base + ·))
      (some 0)

/-- `+`, `-` or no sign before a value. -/
def signed (f : List Char → Option Rat) : List Char → Option Rat
  | '-' :: cs => (f cs).map fun q => -q
  | '+' :: cs => f cs
  | cs => f cs

/-- Digits with at most one point among or around them. -/
def mantissa (cs : List Char) : Option Rat :=
  let whole := cs.takeWhile (· ≠ '.')
  match cs.dropWhile (· ≠ '.') with
  | [] => (digits 10 whole).map fun n => (n : Rat)
  | _ :: fraction =>
      (digits 10 (whole ++ fraction)).map fun n => (n : Rat) / 10 ^ fraction.length

/-- A decimal literal, exponent included. -/
def decimal (cs : List Char) : Option Rat :=
  let isE := fun c => c == 'e' || c == 'E'
  match cs.dropWhile (!isE ·) with
  | [] => mantissa cs
  | _ :: '-' :: exponent => do
      let m ← mantissa (cs.takeWhile (!isE ·))
      let e ← digits 10 exponent
      pure (m / 10 ^ e)
  | _ :: '+' :: exponent => do
      let m ← mantissa (cs.takeWhile (!isE ·))
      let e ← digits 10 exponent
      pure (m * 10 ^ e)
  | _ :: exponent => do
      let m ← mantissa (cs.takeWhile (!isE ·))
      let e ← digits 10 exponent
      pure (m * 10 ^ e)

/-- A text without the white space around it. -/
def trimmed (text : String) : List Char :=
  ((text.toList.dropWhile numberSpace).reverse.dropWhile numberSpace).reverse

/-- `Number(text)`. -/
def number (text : String) : Option Rat :=
  match trimmed text with
  | [] => some 0
  | '0' :: 'x' :: cs | '0' :: 'X' :: cs => (digits 16 cs).map fun n => (n : Rat)
  | '0' :: 'o' :: cs | '0' :: 'O' :: cs => (digits 8 cs).map fun n => (n : Rat)
  | '0' :: 'b' :: cs | '0' :: 'B' :: cs => (digits 2 cs).map fun n => (n : Rat)
  | cs => signed decimal cs

/-- An `Int` column holds 32-bit integers. -/
def asInt (q : Rat) : Option Int :=
  if q.den = 1 ∧ -2 ^ 31 ≤ q.num ∧ q.num < 2 ^ 31 then some q.num else none

/-- The digits after the point, at most `n` of them. -/
def fractionDigits : Nat → Rat → List Char
  | 0, _ => []
  | n + 1, q =>
      if q = 0 then []
      else
        let d := (q * 10).floor
        Nat.digitChar d.toNat :: fractionDigits n (q * 10 - d)

/-- `String(x)` of a number with at most twenty decimals. -/
def numberText (q : Rat) : String :=
  let magnitude := if q < 0 then -q else q
  let whole := magnitude.floor
  let fraction := fractionDigits 20 (magnitude - whole)
  (if q < 0 then "-" else "") ++ toString whole ++
    (if fraction = [] then "" else "." ++ String.ofList fraction)

/-- To the nearest integer, halves away from zero. -/
def halfUp (q : Rat) : Int :=
  if q < 0 then -(-q + 1 / 2).floor else (q + 1 / 2).floor

/-- `new BigNumber(q).dp(n)`. -/
def dp (n : Nat) (q : Rat) : Rat := (halfUp (q * 10 ^ n) : Rat) / 10 ^ n

example : number " -12.5e1 " = some (-125) := by decide +kernel

end Anypay
