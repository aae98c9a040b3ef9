/-
Anypay.FiatPrices — the prices of the world's currencies (`lib/prices/fixer.ts`,
`updateUSDPrices` and `setAllFiatPrices` of `lib/prices/index.ts`).

Fixer says how many units of each currency one US dollar buys. `fetchCurrencies`
turns the rates into prices, and two functions store them: one after the other
as they are, or all at once with base and currency exchanged, followed by as many
calls nobody waits for.

A JavaScript number is taken for the decimal it was made from. The calls made at
once are programs side by side: a pool.
-/
import Anypay.Prices

namespace Anypay

open Async Proc

namespace FiatPrices

/-- The rates fixer answers with for a base: an object's keys and their numbers. -/
structure Rates where
  entries : List (String × Rat)
  distinct : (entries.map Prod.fst).Nodup
  positive : ∀ entry ∈ entries, 0 < entry.2

/-- `fetchCurrencies(base)`; `base` in capitals. -/
def fetchCurrencies (base : String) (rates : Rates) : List SetPrice :=
  rates.entries.map fun entry =>
    { base_currency := base, currency := entry.1, value := dp 20 (1 / entry.2) }

/-- The first prices `updateUSDPrices` sets. -/
def exchanged (rates : Rates) : List SetPrice :=
  (fetchCurrencies "USD" rates).map fun price =>
    { base_currency := price.currency, currency := "USD", value := price.value }

/-- The prices its second, un-awaited calls set. A value of `1 / 0` is refused by the
database before anything is written. -/
def inverted (rates : Rates) : List SetPrice :=
  (((fetchCurrencies "USD" rates).filter fun price => price.value ≠ 0).map fun price =>
    { base_currency := price.currency, currency := price.base_currency,
      value := 1 / price.value : SetPrice }).map fun price =>
    { base_currency := price.currency, currency := "USD", value := price.value }

/-- `setAllFiatPrices()`. -/
def setAllFiatPrices (rates : Rates) : Task Unit :=
  forEach (fetchCurrencies "USD" rates) fun price => discard (setPrice price)

/-- The calls that work on the prices. -/
inductive PriceCall where
  | setPrice (price : SetPrice)
  | setAllFiatPrices (rates : Rates)

def handle : PriceCall → Task Unit
  | .setPrice price => discard (setPrice price)
  | .setAllFiatPrices rates => setAllFiatPrices rates

/-- Calls and what is left of them. -/
abbrev Calls := Pool World Answer Failure PriceCall

/-- Calls made at once. -/
def started (w : World) (calls : List PriceCall) : Calls :=
  ⟨w, calls.map fun call => (call, handle call)⟩

/-- Calls under way take steps; no other is made. -/
def runs (_ : Calls) : Move Answer PriceCall → Prop
  | .start _ => False
  | .run _ _ => True

/-- Every call has returned. -/
def Returned (p : Calls) : Prop := ∀ th ∈ p.threads, th.2 = .done ()

/-- `setAllFiatPrices` has returned. -/
def AfterSetAllFiatPrices (rates : Rates) (w w' : World) : Prop :=
  ∃ p, Pool.Reaches handle runs (started w [.setAllFiatPrices rates]) p ∧ Returned p ∧
    w' = p.state

/-- `updateUSDPrices` has returned: the calls it waits for have, the others have come
however far. -/
def AfterUpdateUSDPrices (rates : Rates) (w w' : World) : Prop :=
  ∃ p q, Pool.Reaches handle runs (started w ((exchanged rates).map .setPrice)) p ∧
    Returned p ∧
    Pool.Reaches handle runs (started p.state ((inverted rates).map .setPrice)) q ∧
    w' = q.state

end FiatPrices

end Anypay
