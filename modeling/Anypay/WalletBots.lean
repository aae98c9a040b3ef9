/-
Anypay.WalletBots — the queries a wallet bot asks (`apps/wallet-bot/index.ts`).

A wallet bot is an app of an account that holds a wallet. It reads its app's
invoices and the balances it has reported for its addresses. Every query is
given the bot's row.

`setAddressBalance` compares the balance it is told with that of a row of the same
address, found without an order.
-/
import Anypay.Webhooks

namespace Anypay

open Async Proc

namespace WalletBot

/-- The name of an app that is a wallet bot's. -/
def appName : String := "@wallet-bot"

/-- `loadFromApp({ app })`. -/
def loadFromApp (app : App) : Task WalletBot :=
  if app.name ≠ appName then reject "Invalid Access Token"
  else prisma.walletBots.findFirstOrThrow fun r => r.app_id == some (app.id : Int)

/-- `getWalletBot({ token })`; a `where` with an undefined token asks for nothing. -/
def getWalletBot (token : Option String) : Task WalletBot := do
  let accessToken ← prisma.access_tokens.findFirstOrThrow fun r =>
    token.isNone || r.uid == token
  match orUndefined accessToken.app_id with
  | none => reject "Invalid Access Token"
  | some app_id => do
      let app ← prisma.apps.findFirstOrThrow fun r => (r.id : Int) == app_id
      loadFromApp app

/-- `getInvoice(walletBot, uid)`. -/
def getInvoice (walletBot : WalletBot) (uid : String) : Task Invoice := do
  let invoice ← prisma.invoices.findFirstOrThrow fun r => r.uid == uid
  if invoice.app_id ≠ walletBot.app_id then reject "WalletBotNotAuthorized"
  else pure invoice

/-- The chain and currency of a balance update. -/
def group (r : AddressBalanceUpdate) : Option String × Option String := (r.chain, r.currency)

/-- `groupBy({ by: ['chain', 'currency'] })`, over all rows of the table. -/
def groups : Task (List (Option String × Option String)) :=
  Proc.query fun _ w => .ok (w.addressBalanceUpdates.rows.map group).dedup

/-- A balance update of the bot in this chain and currency. -/
def reportedIn (walletBot : WalletBot) (update : Option String × Option String)
    (r : AddressBalanceUpdate) : Bool :=
  r.wallet_bot_id == some (walletBot.id : Int) && group r == update

/-- `listLatestBalances(walletBot)`. -/
def listLatestBalances (walletBot : WalletBot) : Task (List AddressBalanceUpdate) := do
  let updates ← groups
  mapAll updates fun update =>
    prisma.addressBalanceUpdates.findLatestOrThrow AddressBalanceUpdate.createdAt
      (walletBot.reportedIn update)

/-- `ListInvoices`. -/
structure ListInvoices where
  status : Option String := none
  currency : Option String := none
  offset : Option Int := none
  limit : Option Int := none

/-- The `where` of `listInvoices`: an empty text asks for nothing. -/
def ListInvoices.matches (options : ListInvoices) (r : Invoice) : Bool :=
  (match nonEmpty options.status with
    | none => true
    | some status => r.status.toString == status) &&
  (match nonEmpty options.currency with
    | none => true
    | some currency => r.currency == some currency)

/-- `limit || 100`. -/
def ListInvoices.take (options : ListInvoices) : Int :=
  (options.limit.filter (· ≠ 0)).getD 100

/-- `listInvoices(walletBot, options)`. The bot is not read. -/
def listInvoices (_ : WalletBot) (options : ListInvoices) : Task (List Invoice) :=
  prisma.invoices.findPage options.matches options.take (options.offset.getD 0)

/-- `getAddressHistory(walletBot, { address, currency, chain })`. -/
def getAddressHistory (walletBot : WalletBot) (address currency chain : String) :
    Task (List AddressBalanceUpdate) :=
  prisma.addressBalanceUpdates.findMany fun r =>
    r.address == some address && r.currency == some currency && r.chain == some chain &&
      r.wallet_bot_id == some (walletBot.id : Int)

/-! ## Reporting a balance -/

/-- `SetAddressBalance`; the route asks for none of them. -/
structure SetAddressBalance where
  chain : Option String := none
  currency : Option String := none
  address : Option String := none
  balance : Option Rat := none

/-- The `where` of `setAddressBalance`: what is undefined asks for nothing. -/
def SetAddressBalance.matches (params : SetAddressBalance) (walletBot : WalletBot)
    (r : AddressBalanceUpdate) : Bool :=
  (params.chain.isNone || r.chain == params.chain) &&
  (params.currency.isNone || r.currency == params.currency) &&
  (params.address.isNone || r.address == params.address) &&
    r.wallet_bot_id == some (walletBot.id : Int)

/-- `new BigNumber(balance).minus(Number(latest.balance)).toNumber()`: `NaN` for an
undefined balance, and a null one counts as zero. -/
def difference (balance : Option Rat) (latest : AddressBalanceUpdate) : Option Rat :=
  balance.map fun n => n - latest.balance.getD 0

/-- The row `setAddressBalance` creates. -/
def balanceUpdate (walletBot : WalletBot) (params : SetAddressBalance) (now : Time) (id : Nat) :
    AddressBalanceUpdate :=
  { id, chain := params.chain, currency := params.currency, address := params.address,
    balance := params.balance, wallet_bot_id := some walletBot.id, createdAt := now,
    updatedAt := now }

/-- `setAddressBalance(walletBot, params)`. -/
def setAddressBalance (walletBot : WalletBot) (params : SetAddressBalance) :
    Task (AddressBalanceUpdate × Bool) := do
  let latest ← prisma.addressBalanceUpdates.findFirst (params.matches walletBot)
  match latest.filter fun r => difference params.balance r = some 0 with
  | some latest => pure (latest, false)
  | none => do
      let update ← prisma.addressBalanceUpdates.create (walletBot.balanceUpdate params)
      pure (update, true)

/-! ## Asking -/

/-- The four queries. -/
inductive Query where
  | getInvoice (uid : String)
  | listInvoices (options : ListInvoices)
  | getAddressHistory (address currency chain : String)
  | listLatestBalances

/-- The rows a query answers with. -/
inductive Rows where
  | invoices (rows : List Invoice)
  | balances (rows : List AddressBalanceUpdate)

/-- Ask a query. -/
def ask (walletBot : WalletBot) : Query → Task Rows
  | .getInvoice uid => do
      let invoice ← walletBot.getInvoice uid
      pure (.invoices [invoice])
  | .listInvoices options => do
      let rows ← walletBot.listInvoices options
      pure (.invoices rows)
  | .getAddressHistory address currency chain => do
      let rows ← walletBot.getAddressHistory address currency chain
      pure (.balances rows)
  | .listLatestBalances => do
      let rows ← walletBot.listLatestBalances
      pure (.balances rows)

end WalletBot

end Anypay
