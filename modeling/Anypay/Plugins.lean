/-
Anypay.Plugins — the chain plugins as the payment code sees them, and the
configuration of a server (`Env`).

A plugin answers from its chain library or its provider: its functions compute
from the arguments and the `Answer` of that step, and nothing is assumed of
them here. `broadcastTx` may also leave background calls behind (the EVM
plugins do). `find` is the registry lookup of `lib/plugins.ts`: the key is the
currency alone where it is the chain's own coin, else `currency.chain`.
-/
import Anypay.Json.Number
import Anypay.Db.World

namespace Anypay

open Async

/-- What a transaction pays to an address. -/
structure TransactionOutput where
  address : String
  amount : Int

/-- A transaction as bitcore decodes it: its hash, and its outputs, `none`
where a script has no address. -/
structure BitcoreTransaction where
  hash : String
  outputs : List (Option TransactionOutput)

structure Plugin where
  currency : String
  chain : String
  decimals : Nat
  token : Option String := none
  /-- `new bitcore.Transaction(txhex)` of the plugin's bitcore library, where it
  has one; the inner `none` is a throw. -/
  bitcore : Option (String → Option BitcoreTransaction) := none
  /-- `new bitcore.Address(script).toString()`; none is a throw. -/
  addressOf : String → Option String := fun _ => none
  verifyPayment : PaymentOption → Transaction → Answer → Except Failure Bool :=
    fun _ _ c => c.verified
  broadcastTx : Transaction → Answer → Except Failure (BroadcastTxResult × List Job) :=
    fun _ c => c.broadcast.map fun r => (r, [])
  /-- The ids of the payments found in a transaction. -/
  parsePayments : Transaction → Answer → Except Failure (List String) :=
    fun _ c => c.parsed
  getConfirmation : String → Answer → Except Failure (Option Confirmation) :=
    fun _ c => c.confirmation
  /-- What a merchant's address is turned into before it is stored, and whether
  the chain's library accepts it. -/
  transformAddress : String → Answer → Except Failure String := fun address _ => .ok address
  validateAddress : String → Answer → Except Failure Bool := fun _ c => c.verified
  /-- XRP rounds where the other plugins truncate. -/
  roundSatoshis : Bool := false

/-- One server: its plugin registry, the coins it loaded, its settings. -/
structure Env where
  plugins : List (String × Plugin) := []
  coins : List Coin := []
  /-- `config.get('REQUIRE_BTC_CONFIRMATIONS')`. -/
  requireBtcConfirmations : Bool := false
  /-- `config.get('API_BASE')`. -/
  apiBase : String := ""
  /-- `config.get('REQUIRED_FEE_RATE_…')`. -/
  requiredFeeRates : List (String × Nat) := []
  /-- `config.get('MEMPOOL_SPACE_FEES_ENABLED')`. -/
  mempoolSpaceFeesEnabled : Bool := false
  /-- `schema.PaymentRequestTemplate` of the `anypay` package: what a template it
  accepts says, none for one it rejects. -/
  paymentRequestTemplate : List Json → Option (List TemplateOption) := fun _ => none

/-- `if (!x)` of a string or an absent one. -/
def orElse (x : Option String) (y : String) : String :=
  match x with
  | some s => if s = "" then y else s
  | none => y

/-- A string an `if` accepts. -/
def nonEmpty (x : Option String) : Option String := x.filter (· ≠ "")

/-- `plugins[currency]` or `plugins[currency.chain]`. -/
def pluginKey (currency chain : String) : String :=
  if chain = currency then currency else currency ++ "." ++ chain

def find (env : Env) (currency chain : String) : Except Failure Plugin :=
  match env.plugins.lookup (pluginKey currency chain) with
  | some plugin => .ok plugin
  | none => .error (.error
      ("no plugin found for currency " ++ currency ++ " on chain " ++ chain))

theorem mem_of_find {env : Env} {plugin : Plugin} {currency chain : String}
    (h : find env currency chain = .ok plugin) :
    (pluginKey currency chain, plugin) ∈ env.plugins := by
  unfold find at h
  cases hlookup : env.plugins.lookup (pluginKey currency chain) with
  | none =>
      rw [hlookup] at h
      cases h
  | some found =>
      rw [hlookup] at h
      obtain rfl := Except.ok.inj h
      obtain ⟨before, after, he, -⟩ := List.lookup_eq_some_iff.mp hlookup
      simp [he]

/-- `getBitcore(currency)` and `new bitcore.Transaction(txhex)`: a plugin
without a bitcore library has no such constructor. -/
def decodeTransaction (env : Env) (currency txhex : String) :
    Except Failure BitcoreTransaction :=
  match find env currency currency with
  | .error e => .error e
  | .ok plugin =>
      match plugin.bitcore with
      | none => .error .typeError
      | some decode =>
          match decode txhex with
          | some tx => .ok tx
          | none => .error (.error "invalid transaction")

/-- `plugin.broadcastTx(transaction)`; what it leaves running is spawned. -/
def broadcastTx (plugin : Plugin) (transaction : Transaction) : Task BroadcastTxResult :=
  Proc.step fun c w =>
    match plugin.broadcastTx transaction c with
    | .ok (result, jobs) => (.ok result, { w with jobs := w.jobs ++ jobs })
    | .error e => (.error e, w)

/-- `address.split(':')[1]` where the address has a colon. -/
def stripPrefix (address : String) : String :=
  if address.toList.contains ':' then
    String.ofList (((address.toList.dropWhile (· ≠ ':')).drop 1).takeWhile (· ≠ ':'))
  else address

/-- `plugin.toSatoshis(decimal)`: `Math.trunc`, or rounding where the plugin
overrides it. -/
def Plugin.toSatoshis (plugin : Plugin) (decimal : Rat) : Int :=
  let x := decimal * 10 ^ plugin.decimals
  if plugin.roundSatoshis then halfUp x
  else if x < 0 then x.ceil else x.floor

/-- `toSatoshis({ decimal, currency, chain })`; what is no number stays none. -/
def toSatoshis (env : Env) (decimal : Option Rat) (currency chain : String) :
    Except Failure (Option Int) :=
  (find env currency chain).map fun plugin => decimal.map plugin.toSatoshis

example : stripPrefix "bitcoincash:qq" = "qq" := by decide

end Anypay
