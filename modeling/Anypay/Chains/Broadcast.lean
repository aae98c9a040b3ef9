/-
Anypay.Chains.Broadcast — the broadcast providers and what a plugin makes of
their replies.

One client per provider, under the name of its function: `publish` of
`lib/blockchair.ts` and `lib/blockcypher.ts`, `broadcastTx` of
`lib/chain_so.ts`, `lib/nownodes.ts`, `plugins/btc/bitcoind_rpc.ts`,
`plugins/bsv/lib`, `plugins/dash/lib/insight.ts`, and the calls the plugins make
themselves (FB, XRP, SOL, the EVM chains, XMR). A client turns the reply into a
promise, and `oneSuccess` combines the promises of a plugin's providers.

A reply is what the provider SAYS; whether a client notices a refusal in it is
the client's code.
-/
import Anypay.Plugins

namespace Anypay

/-- A promise, once nothing more happens to it. -/
inductive Promise (α : Type) where
  | fulfilled (a : α)
  | rejected (e : Failure)
  /-- Neither `resolve` nor `reject` was called. -/
  | pending

namespace Promise

def ofExcept {α : Type} : Except Failure α → Promise α
  | .ok a => .fulfilled a
  | .error e => .rejected e

/-- What an `await` gives; one that is left waiting gives nothing, and `pending`
says so where it matters. -/
def toExcept {α : Type} : Promise α → Except Failure α
  | .fulfilled a => .ok a
  | .rejected e => .error e
  | .pending => .error (.error "never settled")

end Promise

/-- `oneSuccess(promises)`, the promises in the order in which they settle: the
first that is fulfilled; rejected where all are. -/
def oneSuccess {α : Type} : List (Promise α) → Promise α
  | [] => .rejected (.error "no promise was fulfilled")
  | .fulfilled a :: _ => .fulfilled a
  | .rejected _ :: promises => oneSuccess promises
  | .pending :: promises =>
      match oneSuccess promises with
      | .fulfilled a => .fulfilled a
      | _ => .pending

/-- `x.k` of a value that may be `undefined`. -/
def readProperty (k : String) : Option Json → Except Failure (Option Json)
  | none | some .null => .error .typeError
  | some v => .ok (v.get k)

/-! ## The clients -/

/-- A client that reads the id out of the body. -/
def fromBody (txid : Json → Except Failure (Option Json)) :
    Reply → Promise BroadcastTxResult
  | .failed => .rejected (.error "request failed")
  | .response _ body =>
      .ofExcept ((txid body).map fun hash => { txid := Json.str? hash })

/-- A client that first wants the status to be 200. -/
def fromBody200 (txid : Json → Except Failure (Option Json)) :
    Reply → Promise BroadcastTxResult
  | .failed => .rejected (.error "request failed")
  | .response status body =>
      if status ≠ 200 then .rejected (.error "unexpected status")
      else fromBody txid (.response status body)

/-- `publish(coin, hex)` of blockchair. -/
def blockchair.publish : Reply → Promise BroadcastTxResult :=
  fromBody fun data => readProperty "transaction_hash" (some data)

/-- `publish(currency, hex)` of blockcypher. -/
def blockcypher.publish : Reply → Promise BroadcastTxResult :=
  fromBody fun data => do
    let tx ← readProperty "tx" (some data)
    readProperty "hash" tx

/-- `broadcastTx(currency, tx_hex)` of chain.so. -/
def chain_so.broadcastTx : Reply → Promise BroadcastTxResult :=
  fromBody200 fun result => do
    let data ← readProperty "data" (some result)
    readProperty "txid" data

/-- `broadcastTx(txhex)` by bitcoind. -/
def bitcoind_rpc.broadcastTx : Reply → Promise BroadcastTxResult :=
  fromBody200 fun data => readProperty "txid" (some data)

/-- `broadcastTx(currency, txhex)` of nownodes: whatever the reply says. -/
def nownodes.broadcastTx : Reply → Promise BroadcastTxResult :=
  fromBody fun result => readProperty "result" (some result)

/-- `broadcastTransaction(rawTx)` of TAAL. -/
def taal.broadcastTransaction : Reply → Promise BroadcastTxResult
  | .failed => .rejected (.error "request failed")
  | .response status data =>
      if status > 300 then .rejected (.error "TaalBroadcastTransactionError")
      else .fulfilled { txid := Json.str? (some data) }

/-- `broadcastTx(txhex)` of whatsonchain: the body is the result. -/
def whatsonchain.broadcastTx : Reply → Promise BroadcastTxResult :=
  fromBody fun data => .ok (data.get "txid")

/-- `broadcastTx(txhex)` of insight. -/
def insight.broadcastTx : Reply → Promise BroadcastTxResult :=
  fromBody200 fun data => readProperty "txid" (some data)

/-- The only provider of FB, a `fetch` whose failure is caught and RETURNED. -/
def FB.post : Reply → Promise BroadcastTxResult
  | .failed => .fulfilled { txid := some "", success := false }
  | .response _ body => .fulfilled { txid := Json.str? (some body) }

/-- `sendAndConfirmRawTransaction`, which throws for an error of the network. -/
def SOL.send : Reply → Promise BroadcastTxResult :=
  fromBody fun signature => .ok (some signature)

/-- `broadcastClient.submit(txhex)` and what XRP checks of it. -/
def XRP.submit : Reply → Promise BroadcastTxResult :=
  fromBody fun broadcastResult => do
    let result ← readProperty "result" (some broadcastResult)
    let engine_result ← readProperty "engine_result" result
    if Json.str? engine_result = some "tesSUCCESS" then do
      let tx_json ← readProperty "tx_json" result
      readProperty "hash" tx_json
    else throw (.error "XRP broadcastTx consensus failed")

/-- `web3.eth.sendSignedTransaction`. The promise is resolved by the event of
the transaction's hash; nothing rejects it where the call fails. A transaction
HASH is not sent at all. -/
def EVM.send (transaction : Transaction) (reply : Reply) : Promise BroadcastTxResult :=
  if transaction.txhex.length = 66 then .fulfilled { txid := some transaction.txhex }
  else
    match reply with
    | .failed => .pending
    | .response _ body => .fulfilled { txid := Json.str? (some body) }

/-- `send_raw_transaction` of the Monero daemon and what XMR checks of it. -/
def XMR.send (transaction : Transaction) : Reply → Promise BroadcastTxResult :=
  fromBody fun result => do
    let sanity_check_failed ← readProperty "sanity_check_failed" (some result)
    let reason := (Json.str? (result.get "reason")).getD ""
    if Json.truthy sanity_check_failed then throw (.error reason)
    else if Json.truthy (result.get "double_spend") then throw (.error "double spend")
    else if Json.truthy (result.get "too_big") then throw (.error "too big")
    else if Json.str? (result.get "status") = some "Failed" then throw (.error reason)
    else pure (some (.str (transaction.txid.getD "undefined")))

/-- The client of a provider. -/
def Provider.client : Provider → Transaction → Reply → Promise BroadcastTxResult
  | .blockchair, _ => blockchair.publish
  | .blockcypher, _ => blockcypher.publish
  | .chainSo, _ => chain_so.broadcastTx
  | .bitcoind, _ => bitcoind_rpc.broadcastTx
  | .nownodes, _ => nownodes.broadcastTx
  | .taal, _ => taal.broadcastTransaction
  | .whatsonchain, _ => whatsonchain.broadcastTx
  | .insight, _ => insight.broadcastTx
  | .mempool, _ => FB.post
  | .solana, _ => SOL.send
  | .xrpl, _ => XRP.submit
  | .web3, transaction => EVM.send transaction
  | .monero, transaction => XMR.send transaction

/-! ## The plugins -/

/-- Which providers of BTC the configuration enables. -/
structure BroadcastSettings where
  blockchairEnabled : Bool := false
  chainSoEnabled : Bool := false
  bitcoindHost : Bool := false
  nownodesEnabled : Bool := false

/-- The providers the plugin of a registry key asks. Stellar's `broadcastTx` is
not implemented and asks none. -/
def broadcastProviders (settings : BroadcastSettings) : String → List Provider
  | "BTC" =>
      (if settings.blockchairEnabled then [.blockchair] else []) ++
      (if settings.chainSoEnabled then [.chainSo] else []) ++
      (if settings.bitcoindHost then [.bitcoind] else []) ++
      (if settings.nownodesEnabled then [.nownodes] else [])
  | "BCH" | "LTC" | "DOGE" => [.blockchair]
  | "BSV" => [.taal, .blockchair, .whatsonchain]
  | "DASH" => [.blockchair, .blockcypher, .insight]
  | "FB" => [.mempool]
  | "XRP" => [.xrpl]
  | "XMR" => [.monero]
  | "SOL" | "USDC.SOL" | "USDT.SOL" => [.solana]
  | "ETH" | "AVAX" | "MATIC" | "USDC.ETH" | "USDC.AVAX" | "USDC.MATIC" | "USDT.ETH"
  | "USDT.AVAX" | "USDT.MATIC" => [.web3]
  | _ => []

/-- `plugin.broadcastTx(transaction)` of the plugin of a registry key. -/
def chainBroadcastTx (settings : BroadcastSettings) (key : String) (transaction : Transaction)
    (reply : Provider → Reply) : Promise BroadcastTxResult :=
  oneSuccess ((broadcastProviders settings key).map fun provider =>
    provider.client transaction (reply provider))

end Anypay
