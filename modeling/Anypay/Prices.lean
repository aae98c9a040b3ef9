/-
Anypay.Prices — conversion between currencies and price changes
(`lib/prices/index.ts`).

A price row says what one unit of `currency` is worth in `base_currency`. Where
neither side of a conversion is USD it goes through USD; where there is no
price the inverse one is used, divided to twenty digits; every result has eight
digits after the point. A value that is no number (`NaN`, or the quotient by a
price of zero) stays none.

The table of past prices is left out: nothing here reads it.
-/
import Anypay.Webhooks

namespace Anypay

open Async Proc

/-- A currency and a number of its units. -/
structure Amount where
  currency : String
  value : Option Rat

/-- `new BigNumber(1).dividedBy(q)`. -/
def reciprocal (q : Rat) : Option Rat := if q = 0 then none else some (dp 20 (1 / q))

/-- A row that says what `currency` is worth in `base_currency`. -/
def findPrice (base_currency currency : String) : Task (Option Price) :=
  prisma.prices.findFirst fun r =>
    r.base_currency == some base_currency && r.currency == currency

/-- `convert`, from where one side is USD or the input is the USD value. -/
def convertAt (inputAmount : Amount) (outputCurrency : String) : Task Amount := do
  match ← findPrice outputCurrency inputAmount.currency with
  | some price =>
      pure { currency := outputCurrency,
             value := inputAmount.value.map fun v => dp 8 (v * price.value) }
  | none => do
      match ← findPrice inputAmount.currency outputCurrency with
      | none => reject ("no price for " ++ inputAmount.currency ++ " to " ++ outputCurrency)
      | some inverse =>
          pure { currency := outputCurrency,
                 value := do
                   let price ← reciprocal inverse.value
                   let v ← inputAmount.value
                   pure (dp 8 (price * v)) }

/-- `convert(inputAmount, outputCurrency)`. -/
def convert (inputAmount : Amount) (outputCurrency : String) : Task Amount :=
  if inputAmount.currency ≠ "USD" ∧ outputCurrency ≠ "USD" then do
    let usd ← convertAt inputAmount "USD"
    convertAt usd outputCurrency
  else convertAt inputAmount outputCurrency

/-- `SetPrice`. -/
structure SetPrice where
  currency : String
  base_currency : String
  value : Rat

/-- The event of a changed price: the row, `null` where there is none. -/
def priceUpdated (record : Price) : Event :=
  { topic := "price.updated",
    body := [
      ("id", .ofNat record.id), ("currency", .str record.currency),
      ("value", .ofDecimal record.value),
      ("base_currency", .orNull .str record.base_currency)] }

/-- The price row to change: the one there is, given the new value, or a new
one. -/
def writePrice (price : SetPrice) (value : Rat) : Task Price := do
  match ← findPrice price.base_currency price.currency with
  | none => prisma.prices.create fun _ id =>
      { id, currency := price.currency, base_currency := some price.base_currency, value }
  | some record => do
      let _ ← prisma.prices.update record.id fun _ r => { r with value }
      pure record

/-- `setPrice(price)`. -/
def setPrice (price : SetPrice) : Task Price := do
  let record ← writePrice price (dp 8 price.value)
  match ← findPrice price.base_currency price.currency with
  | none => pure record
  | some updatedRecord => do
      detached (publishEvent "price.updated" (priceUpdated updatedRecord))
      pure record

end Anypay
