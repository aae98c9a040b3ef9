/-
Anypay.Fees — the fee the server asks for (`lib/pay/fees.ts`).

The process keeps in memory what a fixed sum in USD comes to in the units of some
currencies. `getFee` fills these in where its currency has none, and takes the larger
of that and a thousandth of the amount; an update that it does not wait for runs on
as a call of its own, and so do those of other calls.

A number in memory may be missing (`undefined`) or infinite, the quotient by a price
of zero; `⊤` stands for the latter. The finite ones are exact.
-/
import Anypay.Prices
import Mathlib.Algebra.Order.Ring.Rat
import Mathlib.Order.WithBot

namespace Anypay

open Async Proc

namespace Fees

/-- `feesFiat`. -/
def feesFiat : List (String × Amount) := [
  ("BCH", { currency := "USD", value := some (1 / 100) }),
  ("DASH", { currency := "USD", value := some (1 / 100) }),
  ("BSV", { currency := "USD", value := some (1 / 100) }),
  ("LTC", { currency := "USD", value := some (1 / 100) }),
  ("DOGE", { currency := "USD", value := some (1 / 100) }),
  ("BTC", { currency := "USD", value := some (1 / 10) }),
  ("XMR", { currency := "USD", value := some (1 / 100) }),
  ("USDC_MATIC", { currency := "USD", value := some (1 / 100) }),
  ("USDT_MATIC", { currency := "USD", value := some (1 / 100) }),
  ("MATIC", { currency := "USD", value := some (1 / 100) })]

/-- `feeAddresses`. -/
def feeAddresses : List (String × String) := [
  ("BTC", "3PSFeZrEj1eSeFKs6cwYiU9Y4frfKati8L"),
  ("ETH", "0x8a3fe74311084e6f71ef9fc04bc6481e257a7325"),
  ("LTC", "MGzgGYeni8WZ6Hc2iqd3vWwQRKa7wkf4GG"),
  ("BCH", "qravv0seavret7g3mpfpx9yupuzff0nhjvc506v2z2"),
  ("DASH", "XjPLAKYmLtHNmWiKhy3vSHFn3Yh9NaRnvu"),
  ("BSV", "12XdPcmqkJCLFhEZccTw2xP33vqYh8mhfu"),
  ("DOGE", "DSrL49Fo6qD3GwAHeBDvmZMa4g27YpMyz8"),
  ("XMR", "42DxjbzjtQtFo59BwvjSjbA3FXAwV9ESn3zbkuU8fJYoPzQW7dGdZ3sAzyvz8Zcc1p9MZkLyMUU8" ++
    "EiU7xWJyYcURUaswNrQ"),
  ("XRP", "rasrvYBgXKEopSrkhmiZ97zk2DkTKo1pgK"),
  ("SOL", "CN8Hchkypid7g55B3fTBZMxyN73Z656RGQQt9YJmcUiA"),
  ("AVAX", "0x8881c5306fec0a4f6b829e39f0ffbb6c4a9faa05")]

/-- The database, and the fees the process keeps. -/
structure FeeWorld where
  db : World := {}
  /-- `fees`, in the units of each currency. -/
  fees : String → Option (WithTop Int) := fun _ => none

/-- An async function of the process. -/
abbrev FeeTask (α : Type) := Proc FeeWorld Answer Failure α

/-- A call of a function that only works on the database. -/
def query {α : Type} (p : Task α) : FeeTask α :=
  p.within FeeWorld.db fun w s => { s with db := w }

/-- `fees[key]`. -/
def feeAt (key : String) : FeeTask (Option (WithTop Int)) :=
  Proc.query fun _ s => .ok (s.fees key)

/-- `fees[key] = fee`. -/
def setFee (key : String) (fee : WithTop Int) : FeeTask Unit :=
  Proc.step fun _ s => (.ok (), { s with fees := Function.update s.fees key (some fee) })

/-! ## updateFees -/

/-- `key.split('_')`, the chain being the currency where there is none. -/
def currencyAndChain (key : String) : String × String :=
  let parts := key.toList.splitOn '_'
  let currency := String.ofList (parts.headD [])
  (currency, (nonEmpty (parts[1]?.map String.ofList)).getD currency)

/-- The body of the loop of `updateFees`; an error is logged. -/
def updateFee (env : Env) (key : String) (fiat : Amount) : FeeTask Unit :=
  let (currency, chain) := currencyAndChain key
  Proc.tryCatch (do
    let fee ← query (convert fiat currency)
    let units ← Proc.ofExcept (toSatoshis env fee.value currency chain)
    -- The sum in USD is a number, so what is none here is infinite.
    setFee key units) fun _ => pure ()

/-- `updateFees()`. -/
def updateFees (env : Env) : FeeTask Unit :=
  forEach feesFiat fun entry => updateFee env entry.1 entry.2

/-! ## getFee -/

/-- `Fee`. -/
structure Fee where
  address : Option String
  amount : WithTop Int

/-- A number of a currency's units; none is `undefined`. -/
abbrev Units := Option (WithTop Rat)

/-- `x > y`, which is false where either is undefined. -/
def greater (x y : Units) : Bool :=
  match x, y with
  | some x, some y => decide (y < x)
  | _, _ => false

/-- `Math.trunc(fee) || 0`. -/
def truncOrZero : Units → WithTop Int
  | none => (0 : Int)
  | some ⊤ => ⊤
  | some (some q) => ((if q < 0 then q.ceil else q.floor : Int) : WithTop Int)

/-- The larger of the fee and a thousandth of the amount, for BTC 546 at least, which is
the dust limit. -/
def raised (currency : String) (amount : Rat) (fee : Units) : Units :=
  let feeAmount : Units := some ((amount * (1 / 1000) : Rat) : WithTop Rat)
  let fee := if greater feeAmount fee then feeAmount else fee
  let dust : Units := some ((546 : Rat) : WithTop Rat)
  if currency = "BTC" ∧ greater dust fee then dust else fee

/-- What `getFee` makes of the fee it finds. -/
def feeFor (currency : String) (amount : Option Rat) (cached : Option (WithTop Int)) : Fee :=
  let fee : Units := cached.map (WithTop.map fun n : Int => (n : Rat))
  let fee :=
    match amount.filter (· ≠ 0) with
    | none => fee
    | some amount => raised currency amount fee
  { address := feeAddresses.lookup currency, amount := truncOrZero fee }

/-- A fee that is there and not zero. -/
def present (cached : Option (WithTop Int)) : Bool :=
  cached.any fun n : WithTop Int => n ≠ ((0 : Int) : WithTop Int)

/-- `getFee(currency, amount)`. -/
def getFee (env : Env) (currency : String) (amount : Option Rat) : FeeTask Fee := do
  let cached ← feeAt currency
  if present cached then pure (feeFor currency amount cached)
  else do
    updateFees env
    let fee ← feeAt currency
    pure (feeFor currency amount fee)

example : currencyAndChain "USDC_MATIC" = ("USDC", "MATIC") := by decide

end Fees

end Anypay
