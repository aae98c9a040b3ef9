/-
Anypay.Coins — the coins a server offers (`lib/coins.ts`, `initializers/coins.ts`).

The coins are rows of a table that every server reads; each server asks a variable of its
own. `coins` is filled when the server starts and when it turns a coin on or off, and
`getCoin`, and with it every new invoice, looks nowhere else. Between the reply of the
database and the assignment other calls go on, so the two are steps of their own here.

None of the queries has an order: `findMany` returns the rows in any, and of two rows with
one code `find` takes the first it was given.
-/
import Anypay.Async.Pool
import Anypay.Invoices

namespace Anypay

open Store Async Proc

namespace Coins

/-! ## The table and the variables -/

/-- A row of `model coins`. A null `unavailable` or `supported` is false. -/
structure CoinRow extends Coin where
  id : Nat
  supported : Bool := false
  color : Option String := none
  createdAt : Time := 0
  updatedAt : Time := 0

instance : Record CoinRow where
  id := CoinRow.id

/-- The table, and `var coins` of each server; before it starts that is empty. -/
structure Memory where
  table : Table CoinRow := .empty
  coins : Nat → List CoinRow := fun _ => []

/-- What a step is answered: which matching row, the moment, and the order of the rows. -/
structure Reply where
  row : Nat := 0
  now : Time := 0
  order : List Nat := []

abbrev CoinTask (α : Type) := Proc Memory Reply Failure α

/-- The rows in some order: each is put at its place among those after it. -/
def arrange {α : Type} : List Nat → List α → List α
  | _, [] => []
  | [], rows => rows
  | n :: ns, r :: rows => (arrange ns rows).insertIdx (min n rows.length) r

/-- The outcome of a write, and the memory after it. -/
def commit (m : Memory) : Except TableError (CoinRow × Table CoinRow) →
    Except Failure CoinRow × Memory
  | .ok (r, t) => (.ok r, { m with table := t })
  | .error .notFound => (.error (.notFound "coins"), m)
  | .error .unique => (.error (.uniqueConstraint "coins"), m)

/-- `prisma.coins.findMany()`. -/
def findMany : CoinTask (List CoinRow) :=
  query fun c m => .ok (arrange c.order m.table.rows)

/-- `prisma.coins.findFirst({ where: { code } })`. -/
def findFirst (code : String) : CoinTask (Option CoinRow) :=
  query fun c m => .ok (m.table.pick (fun r => r.code == code) c.row)

/-- `prisma.coins.create({ data })`. -/
def create (mk : Time → Nat → CoinRow) (hid : ∀ t n, (mk t n).id = n := by intros; rfl) :
    CoinTask CoinRow :=
  step fun c m => commit m (m.table.insert? (mk c.now) (hid c.now))

/-- `prisma.coins.update({ where: { id }, data: { unavailable } })`. -/
def update (id : Nat) (unavailable : Bool) : CoinTask CoinRow :=
  step fun _ m => commit m (m.table.update? id (fun r => { r with unavailable }) fun _ => rfl)

/-- `coins = rows`, in the server's process. -/
def assign (server : Nat) (rows : List CoinRow) : CoinTask Unit :=
  step fun _ m => (.ok (), { m with coins := fun i => if i = server then rows else m.coins i })

/-! ## lib/coins.ts -/

/-- `refreshCoins()`. -/
def refreshCoins (server : Nat) : CoinTask (List CoinRow) := do
  let rows ← findMany
  assign server rows
  pure rows

/-- What `initFromConfig` reads of a `CoinConfig`. -/
structure CoinConfig where
  code : String
  currency : String
  chain : String
  name : String
  supported : Bool := true
  icon : String := ""
  unavailable : Bool := false

/-- The body of `initFromConfig` for one coin. -/
def ensureCoin (coin : CoinConfig) : CoinTask Unit := do
  match ← findFirst coin.code with
  | some _ => pure ()
  | none => discard (create fun now id =>
      { id, code := coin.code, chain := some coin.chain, currency := some coin.currency,
        name := coin.name, supported := coin.supported, logo_url := some coin.icon,
        unavailable := coin.unavailable, createdAt := now, updatedAt := now })

/-- `initFromConfig(coinsConfig)`. -/
def initFromConfig (server : Nat) (coinsConfig : List CoinConfig) :
    CoinTask (List CoinRow) := do
  forEach coinsConfig ensureCoin
  refreshCoins server

/-- What `deactivateCoin` and `activateCoin` differ in is what they write. -/
def setUnavailable (server : Nat) (code : String) (unavailable : Bool) :
    CoinTask (List CoinRow) := do
  match ← findFirst code with
  | none => throw (.error ("Coin not found: " ++ code))
  | some coin => do
      let _ ← update coin.id unavailable
      refreshCoins server

/-- `deactivateCoin(code)`. -/
def deactivateCoin (server : Nat) (code : String) : CoinTask (List CoinRow) :=
  setUnavailable server code true

/-- `activateCoin(code)`. -/
def activateCoin (server : Nat) (code : String) : CoinTask (List CoinRow) :=
  setUnavailable server code false

/-- The server that has this variable: `getCoin` and `getCoins` read it. -/
def serving (env : Env) (m : Memory) (server : Nat) : Env :=
  { env with coins := (m.coins server).map CoinRow.toCoin }

/-! ## initializers/coins.ts -/

/-- `config/coins.json`. -/
def coinsConfig : List CoinConfig := [
  { code := "DASH", chain := "DASH", currency := "DASH", name := "DASH" },
  { code := "USDC_ETH", chain := "ETH", currency := "USDC", name := "USD Coin on Ethereum" },
  { code := "USDT_ETH", chain := "ETH", currency := "USDT", name := "Tether USD on Ethereum" },
  { code := "USDC_ETH", chain := "ETH", currency := "USDC", name := "USD Coin on Polygon" },
  { code := "USDT_ETH", chain := "ETH", currency := "USDT", name := "Tether USD on Polygon" },
  { code := "USDC_ETH", chain := "ETH", currency := "USDC", name := "USD Coin on Avalanche" },
  { code := "USDT_ETH", chain := "ETH", currency := "USDT", name := "Tether USD on Avalanche" },
  { code := "XMR", chain := "XMR", currency := "XMR", name := "Monero" },
  { code := "LTC", chain := "LTC", currency := "LTC", name := "Litecoin" },
  { code := "BCH", chain := "BCH", currency := "BCH", name := "Bitcoin Cash" },
  { code := "BTC", chain := "BTC", currency := "BTC", name := "Bitcoin" },
  { code := "DOGE", chain := "DOGE", currency := "DOGE", name := "Dogecoin" },
  { code := "BSV", chain := "BSV", currency := "BSV", name := "BitCoin SV" }]

/-- `initialize()`. -/
def initializeCoins (server : Nat) : CoinTask Unit := discard (initFromConfig server coinsConfig)

/-! ## The calls -/

inductive Call where
  | initializeCoins (server : Nat)
  | refresh (server : Nat)
  | activate (server : Nat) (code : String)
  | deactivate (server : Nat) (code : String)

/-- The server a call is made on. -/
def Call.server : Call → Nat
  | .initializeCoins server => server
  | .refresh server => server
  | .activate server _ => server
  | .deactivate server _ => server

def program : Call → CoinTask Unit
  | .initializeCoins server => Coins.initializeCoins server
  | .refresh server => discard (refreshCoins server)
  | .activate server code => discard (activateCoin server code)
  | .deactivate server code => discard (deactivateCoin server code)

/-- The calls under way. -/
abbrev Calls := Pool Memory Reply Failure Call

end Coins

end Anypay
