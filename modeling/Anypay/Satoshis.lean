/-
Anypay.Satoshis — base units and back, number by number: `toSatoshis` and `fromSatoshis`
of `lib/plugin.ts`, and the override of `plugins/xrp`.

`Plugin.toSatoshis` counts exactly. Here every number that comes out of `toNumber()` is
one: a JavaScript number is given by the decimal it is written as, which is what
`new BigNumber(x)` reads of it, and `number q` is the number nearest to the decimal `q`.
It is a parameter. From 10^21 on `toFixed` writes a number like `String` does, with an
exponent, and `parseInt` reads its leading digit.
-/
import Anypay.Json.Double
import Anypay.Plugins

namespace Anypay.Numbers

open Double

/-- `Math.trunc(x)`. -/
def trunc (x : Rat) : Int := if x < 0 then x.ceil else x.floor

/-- `parseInt(x.toFixed(0))` of a number that is not negative. -/
def parseFixed (x : Rat) : Int :=
  if x < exponential then halfUp x else leadingDigit x.floor.toNat

section

variable (number : Rat → Rat)

/-- `plugin.fromSatoshis(integer)`; a quotient is rounded to twenty digits. -/
def fromSatoshis (plugin : Plugin) (integer : Rat) : Rat :=
  number (dp 20 (integer / 10 ^ plugin.decimals))

/-- `plugin.toSatoshis(decimal)`. -/
def toSatoshis (plugin : Plugin) (decimal : Rat) : Int :=
  let x := number (decimal * 10 ^ plugin.decimals)
  if plugin.roundSatoshis then if x < 0 then -parseFixed (-x) else parseFixed x
  else trunc x

end

end Anypay.Numbers
