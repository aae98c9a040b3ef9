/-
Anypay.PriceUpdates — where prices come from (`setAllCryptoPrices` and
`setAllFiatPrices` of `lib/prices/index.ts`, `lib/prices/kraken.ts`,
`lib/prices/fixer.ts`, `getPrice` of the plugins).

Every source asks a web service and makes a number of the answer, which is a
parameter here: the body, or the error of the request. `setPrice` stores the number,
rounded to eight digits; what is no finite number is refused by the column. The
prices are updated by timers that do not wait for each other, so the updates are
programs side by side: a pool.

A JavaScript number is taken for the decimal it was made from; NaN and the
infinities are none.
-/
import Anypay.PaymentRequests

namespace Anypay

open Async Proc

namespace PriceUpdates

/-! ## Reading answers -/

/-- The body of the answer to a request, or the request's error. -/
abbrev Response := Except Failure Json

/-- A number at the start of a text: the longest one there is. -/
def numberPrefix (cs : List Char) : Option Rat :=
  cs.inits.reverse.findSome? (signed decimal)

/-- `parseFloat(x)`. -/
def parseFloat : Option Json → Except Failure (Option Rat)
  | none => .ok none
  | some x => x.text.map fun text => numberPrefix (text.toList.dropWhile numberSpace)

/-- `x[k]`. -/
def member (k : String) : Option Json → Except Failure (Option Json)
  | none => .error .typeError
  | some x => property k x

/-- `x[0]`. -/
def firstOf : Option Json → Except Failure (Option Json)
  | none => .error .typeError
  | some .null => .error .typeError
  | some (.arr xs) => .ok xs.head?
  | some (.str s) => .ok (s.toList.head?.map fun c => .str c.toString)
  | some (.obj fields) => .ok (Json.field "0" fields)
  | some _ => .ok none

/-- `SetPrice`, as far as a row has it; the base is USD. -/
structure Quote where
  currency : String
  value : Option Rat

/-! ## The sources -/

namespace Kraken

/-- Kraken's name of a currency, and back. -/
def codeOf (currency : String) : String :=
  if currency = "DOGE" then "XDG" else if currency = "BTC" then "XBT" else currency

def currencyOf (code : String) : String :=
  if code = "XDG" then "DOGE" else if code = "XBT" then "BTC" else code

/-- The first of these pairs the answer has. -/
def firstPair (result : Option Json) (unsupported : Failure) :
    List String → Except Failure (Option Json)
  | [] => .error unsupported
  | pair :: pairs => do
      let found ← member pair result
      if Json.truthy found then pure found else firstPair result unsupported pairs

/-- `getPrice(currency)`. -/
def getPrice (currency : String) (response : Response) : Except Failure Quote := do
  let code := codeOf currency
  let data ← response
  let result ← member "result" (some data)
  let pair ← firstPair result (.error ("kraken pair " ++ code ++ "USD not supported"))
    [code ++ "USD", "X" ++ code ++ "ZUSD", "X" ++ code ++ "USD"]
  let asks ← member "a" pair
  let ask ← firstOf asks
  let value ← parseFloat ask
  pure { currency := currencyOf code, value }

end Kraken

/-- `BSV.getPrice` and its copy in XRP. -/
def gateioPrice (currency : String) (response : Response) : Except Failure Quote := do
  let data ← response
  let last ← member "last" (some data)
  let value ← parseFloat last
  pure { currency, value }

namespace FB

/-- The price of the latest trade. -/
def latestPrice (response : Response) : Except Failure Rat := do
  match ← response with
  | .arr (latestTrade :: _) => do
      let price ← property "price" latestTrade
      match ← parseFloat price with
      | some price => pure price
      | none => .error (.error "Invalid price value from MEXC API")
  | _ => .error (.error "Invalid response from MEXC API")

/-- `FB.getPrice()`: zero where anything fails. -/
def getPrice (response : Response) : Except Failure Quote :=
  match latestPrice response with
  | .ok price => .ok { currency := "FB", value := some price }
  | .error _ => .ok { currency := "FB", value := some 0 }

end FB

/-- The sources `setAllCryptoPrices` asks, each with its currency. -/
def sources : List (String × (Response → Except Failure Quote)) :=
  [("BSV", gateioPrice "BSV"), ("XRP", gateioPrice "XRP"), ("FB", FB.getPrice)] ++
    ["XMR", "DASH", "BTC", "BCH", "ETH", "SOL", "AVAX", "DOGE", "LTC", "ZEC", "XLM"].map
      fun currency => (currency, Kraken.getPrice currency)

/-! ## The updates -/

/-- `setPrice` of what may be no number: the first row that is to hold it is
refused. -/
def setNumber (base_currency currency : String) (value : Option Rat) : Task Unit :=
  match value with
  | some value => discard (setPrice { base_currency, currency, value })
  | none => do
      match ← findPrice base_currency currency with
      | none => throw (.invalidValue "prices")
      | some _ => throw (.invalidValue "PriceRecords")

/-- The price of one source is set; its error is logged. -/
def setQuoted : Except Failure Quote → Task Unit
  | .ok quote => setNumber "USD" quote.currency quote.value
  | .error _ => pure ()

/-- `setAllCryptoPrices()`: the sources side by side, the stablecoins after them. -/
def setAllCryptoPrices (responses : String → Response) : Task Unit := do
  let outcomes ← mapAll sources fun source =>
    outcomeOf (setQuoted (source.2 (responses source.1)))
  let _ ← Proc.ofExcept (outcomes.mapM id)
  setNumber "USD" "USDC" (some 1)
  setNumber "USD" "USDT" (some 1)

/-- `fetchCurrencies('USD')`: the currencies of `data.rates || {}` and one over their
rates. -/
def fetchCurrencies (response : Response) : Except Failure (List Quote) := do
  let data ← response
  let rates ← property "rates" data
  (Json.ownProps rates).mapM fun entry => do
    let rate ← bigNumber (some entry.2)
    pure { currency := entry.1, value := rate.bind reciprocal }

/-- `setAllFiatPrices()`. -/
def setAllFiatPrices (response : Response) : Task Unit := do
  let newPrices ← Proc.ofExcept (fetchCurrencies response)
  forEach newPrices fun price => setNumber "USD" price.currency price.value

/-- The updates, with what the services answer. -/
inductive Update where
  | setAllCryptoPrices (responses : String → Response)
  | setAllFiatPrices (response : Response)

def handle : Update → Task Unit
  | .setAllCryptoPrices responses => PriceUpdates.setAllCryptoPrices responses
  | .setAllFiatPrices response => PriceUpdates.setAllFiatPrices response

/-- Updates and what is left of them. -/
abbrev Updates := Pool World Answer Failure Update

end PriceUpdates

end Anypay
