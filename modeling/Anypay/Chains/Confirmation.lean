/-
Anypay.Chains.Confirmation — `getConfirmation` of the chains that are not EVM
chains.

Every provider describes the same thing in its own way: whether a transaction is
in a block, in which, and whether it went through. Here is, for each family, the
part of the replies that is READ, next to what the replies say
(`….status`, by the fields the provider documents). The functions are those of
`lib/plugins/utxo.ts` (LTC, DOGE; BCH and DASH have copies of it),
`plugins/bsv`, `plugins/btc`, `plugins/fb`, `lib/plugins/solana.ts`,
`plugins/xrp` and `plugins/xmr`.
-/
import Anypay.Plugins

namespace Anypay

/-- A block: its hash, its height, and its time in seconds since 1970, where the
provider knows it. -/
structure Block where
  hash : String
  height : Nat
  time : Option Nat
  deriving DecidableEq

/-- Where a transaction stands on a chain. -/
inductive TxStatus where
  | unknown
  | pending
  /-- In a block that is no longer part of the main chain. -/
  | orphaned
  /-- In a block of the main chain, without effect. -/
  | failed (block : Block)
  | validated (block : Block)
  deriving DecidableEq

/-- What `getConfirmation` returns. A field that is `undefined`, or an invalid
date, is none. -/
structure ReadConfirmation where
  confirmation_hash : Option String
  confirmation_height : Option Nat
  confirmation_date : Option Time
  confirmations : Option Int
  deriving DecidableEq

/-- `new Date(seconds * 1000)`. -/
def dateOf (seconds : Nat) : Time := seconds * 1000

/-- Every field is there, and is the block's. -/
structure ReadConfirmation.IsOf (c : ReadConfirmation) (block : Block) : Prop where
  hash : c.confirmation_hash = some block.hash
  height : c.confirmation_height = some block.height
  date : ∃ time, block.time = some time ∧ c.confirmation_date = some (dateOf time)

/-- What can be stored of it: a date that is invalid is refused by Prisma. -/
def ReadConfirmation.stored (c : ReadConfirmation) : Option Confirmation :=
  match c.confirmation_hash, c.confirmation_height, c.confirmation_date with
  | some hash, some height, some date =>
      some { confirmation_hash := hash, confirmation_height := height,
             confirmation_date := date, confirmations := c.confirmations }
  | _, _, _ => none

/-- A request that failed, or a property of a reply that is not there. -/
def orThrow {α : Type} : Option α → Except Failure α
  | some a => .ok a
  | none => .error .typeError

/-! ## Bitcoin Cash, Dash, Litecoin, Dogecoin -/

/-- `GetRawTransactionResult`: hash and time of the block, where there is one,
and the number of confirmations, which is not positive once that block has been
reorganised out. -/
structure RawTransaction where
  block : Option (String × Nat) := none
  confirmations : Int := 0

def RawTransaction.status (tx : RawTransaction) (height : Nat) : TxStatus :=
  match tx.block with
  | none => .pending
  | some (hash, time) =>
      if 0 < tx.confirmations then .validated { hash, height, time := some time } else .orphaned

/-- `UTXOPlugin.getConfirmation(txid)`; `height` is that of `getBlock(hash)`. -/
def UTXOPlugin.getConfirmation (tx : Option RawTransaction) (height : Option Nat) :
    Except Failure (Option ReadConfirmation) := do
  let transaction ← orThrow tx
  match transaction.block with
  | none => pure none
  | some (hash, blocktime) => do
      let height ← orThrow height
      pure (some
        { confirmation_height := some height,
          confirmation_hash := some hash,
          confirmation_date := some (dateOf blocktime),
          confirmations := some transaction.confirmations })

/-! ## Bitcoin SV -/

/-- The reply of whatsonchain: a transaction in the mempool has no block fields. -/
structure TransactionJSON where
  block : Option (String × Nat × Nat) := none
  confirmations : Option Int := none

def TransactionJSON.status (tx : TransactionJSON) : TxStatus :=
  match tx.block with
  | none => .pending
  | some (hash, height, time) =>
      if 0 < tx.confirmations.getD 0 then .validated { hash, height, time := some time }
      else .orphaned

/-- `BSV.getConfirmation(txid)`: the fields as they come. -/
def BSV.getConfirmation (tx : Option TransactionJSON) :
    Except Failure (Option ReadConfirmation) := do
  let transaction ← orThrow tx
  pure (some
    { confirmation_hash := transaction.block.map fun b => b.1,
      confirmation_height := transaction.block.map fun b => b.2.1,
      confirmations := transaction.confirmations,
      confirmation_date := transaction.block.map fun b => dateOf b.2.2 })

/-! ## Bitcoin, Fractal Bitcoin -/

/-- The status mempool.space has of a transaction of BITCOIN: the block where it
is confirmed. -/
structure MempoolStatus where
  block : Option (String × Nat × Nat) := none

def MempoolStatus.status (reply : MempoolStatus) : TxStatus :=
  match reply.block with
  | none => .pending
  | some (hash, height, time) => .validated { hash, height, time := some time }

/-- `BTC.getConfirmation(txid)`; a failed request is logged. -/
def BTC.getConfirmation (response : Option MempoolStatus) :
    Except Failure (Option ReadConfirmation) :=
  match response with
  | none => .ok none
  | some status =>
      .ok (status.block.map fun (block_hash, block_height, block_time) =>
        { confirmation_hash := some block_hash,
          confirmation_height := some block_height,
          confirmation_date := some (dateOf block_time),
          confirmations := some 1 })

/-- `FB.getConfirmation(txid)`: the code of BTC, and its provider. -/
def FB.getConfirmation (response : Option MempoolStatus) :
    Except Failure (Option ReadConfirmation) :=
  BTC.getConfirmation response

/-! ## Solana -/

/-- `SignatureStatus`: the slot, and whether the transaction failed. -/
structure SignatureStatus where
  slot : Nat
  err : Bool := false

/-- The finalized block of a slot; its time may be null. -/
structure SolanaBlock where
  blockhash : String
  blockTime : Option Nat := none

def SignatureStatus.status (value : SignatureStatus) (block : SolanaBlock) : TxStatus :=
  let b : Block := { hash := block.blockhash, height := value.slot, time := block.blockTime }
  if value.err then .failed b else .validated b

/-- `SolanaPlugin.getConfirmation(txid)`; `response` is the value of the
signature's status and the slot of the context. -/
def SolanaPlugin.getConfirmation (response : Option (Option SignatureStatus × Nat))
    (block : Option SolanaBlock) : Except Failure (Option ReadConfirmation) := do
  let (value, contextSlot) ← orThrow response
  match value with
  | none => pure none
  | some value =>
      if value.slot = 0 then pure none
      else
        match block with
        | none => pure none
        | some block =>
            pure (some
              { confirmation_hash := some block.blockhash,
                confirmation_height := some value.slot,
                -- `null * 1000` is zero
                confirmation_date := some (dateOf (block.blockTime.getD 0)),
                confirmations := some (contextSlot - value.slot + 1) })

/-! ## XRP -/

/-- The reply to `tx`: the ledger, where the transaction is in one, whether that
ledger is validated, and whether the transaction went through. -/
structure XrpTx where
  ledger_index : Option Nat := none
  validated : Bool := false
  succeeded : Bool := false

/-- The reply to `ledger`. The close time counts from the year 2000. -/
structure XrpLedger where
  ledger_hash : String
  ledger_index : Nat
  close_time : Nat

/-- Seconds from 1970 to 2000. -/
def rippleEpoch : Nat := 946684800

def XrpLedger.block (ledger : XrpLedger) : Block where
  hash := ledger.ledger_hash
  height := ledger.ledger_index
  time := some (ledger.close_time + rippleEpoch)

def XrpTx.status (tx : XrpTx) (ledger : XrpLedger) : TxStatus :=
  if tx.ledger_index = none ∨ tx.validated = false then .pending
  else if tx.succeeded then .validated ledger.block else .failed ledger.block

/-- `XRP.getConfirmation(txid)`; `latest` is the index of the validated ledger. -/
def XRP.getConfirmation (tx : Option XrpTx) (ledger : Option XrpLedger) (latest : Option Nat) :
    Except Failure (Option ReadConfirmation) := do
  let _ ← orThrow tx
  let ledgerResult ← orThrow ledger
  let latest ← orThrow latest
  pure (some
    { confirmation_hash := some ledgerResult.ledger_hash,
      confirmation_height := some ledgerResult.ledger_index,
      confirmation_date := some (dateOf ledgerResult.close_time),
      confirmations := some (latest - ledgerResult.ledger_index + 1) })

/-! ## Monero -/

/-- A transaction of `/get_transactions`: height and time of its block; one in
the pool has neither. -/
structure Txn where
  block : Option (Nat × Nat) := none

def Txn.status (tx : Txn) (hash : Option String) : TxStatus :=
  match tx.block, hash with
  | some (height, time), some hash => .validated { hash, height, time := some time }
  | _, _ => .pending

/-- `XMR.getConfirmation(txid)`; `hash` is that of the main chain's block at the
height, `count` the number of blocks. -/
def XMR.getConfirmation (tx : Option Txn) (hash : Option String) (count : Option Nat) :
    Except Failure (Option ReadConfirmation) := do
  let transaction ← orThrow tx
  match transaction.block with
  | none => pure none
  | some (height, timestamp) =>
      if height = 0 then pure none
      else
        match hash with
        | none => pure none
        | some hash => do
            let count ← orThrow count
            pure (some
              { confirmation_hash := some hash,
                confirmation_height := some height,
                confirmation_date := some (dateOf timestamp),
                confirmations := some (count - height + 1) })

end Anypay
