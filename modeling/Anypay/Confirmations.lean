/-
Anypay.Confirmations — what happens to a payment after it was broadcast.

`lib/confirmations.ts`: a payment is confirmed by a block (`confirmPayment` and
its callers: by transaction id, by the cron of `startConfirmingTransactions`, by
the command line over `listUnconfirmedPayments`, by invoice) or reverted
(`revertPayment`).

The EVM part of `lib/plugins/evm.ts` follows: `getConfirmation`, which reads a
receipt and not its status, `broadcastTx`, which resolves before the receipt is
known and leaves the handling of the receipt running, and
`handleTransactionReceipt`.
-/
import Mathlib.Data.List.Sort
import Anypay.Pay

namespace Anypay

open Async Proc

/-! ## Confirming -/

/-- The event of a confirmed payment; `invoice` is the copy read before its
status was updated. -/
def paymentConfirmed (invoice : Invoice) (payment : Payment)
    (confirmation : Confirmation) : Event :=
  { topic := "payment.confirmed",
    account_id := orUndefined invoice.account_id, app_id := orUndefined invoice.app_id,
    body := [
      ("payment", .obj [
        ("chain", .str (nullText payment.chain)), ("currency", .str payment.currency),
        ("txid", .str payment.txid), ("status", .str payment.status.toString)]),
      ("invoice", .obj [
        ("uid", .str invoice.uid), ("status", .str invoice.status.toString)]),
      ("confirmation", .obj [
        ("hash", .str confirmation.confirmation_hash),
        ("height", .ofNat confirmation.confirmation_height)])] }

/-- `confirmPayment({ payment, confirmation })`; the payment is the caller's
copy. -/
def confirmPayment (payment : Payment) (confirmation : Confirmation) : Task Payment :=
  if (nonEmpty payment.confirmation_hash).isSome then pure payment
  else do
    let _ ← prisma.payments.update payment.id fun _ r =>
      { r with confirmation_hash := some confirmation.confirmation_hash,
               confirmation_height := some confirmation.confirmation_height,
               confirmation_date := some confirmation.confirmation_date,
               status := .confirmed }
    let payment ← prisma.payments.findFirstOrThrow fun r => r.id == payment.id
    let invoice ← prisma.invoices.findFirstOrThrow fun r => r.uid == payment.invoice_uid
    let _ ← prisma.invoices.update invoice.id fun _ r => { r with status := .paid }
    publish "payment.confirmed" payment.toJson
    createAndSendWebhook "payment.confirmed"
      (paymentConfirmed invoice payment confirmation).toJson
    pure payment

/-- `getConfirmation({ txid, chain, currency })` of `lib/plugins`. -/
def getConfirmation (env : Env) (txid chain currency : String) :
    Task (Option Confirmation) := do
  let plugin ← Proc.ofExcept (find env currency chain)
  ask (plugin.getConfirmation txid)

/-- `getConfirmationForTxid({ txid })`. -/
def getConfirmationForTxid (env : Env) (txid : String) : Task (Option Payment) := do
  match ← prisma.payments.findFirst fun r => r.txid == txid with
  | none => pure none
  | some payment =>
      match ← getConfirmation env txid (nullText payment.chain) payment.currency with
      | none => pure none
      | some confirmation => do
          let payment ← confirmPayment payment confirmation
          pure (some payment)

/-- `confirmPaymentByTxid({ txid, confirmation })`. -/
def confirmPaymentByTxid (txid : String) (confirmation : Confirmation) :
    Task Payment := do
  let payment ← prisma.payments.findFirstOrThrow fun r => r.txid == txid
  confirmPayment payment confirmation

/-- Look for the block of one payment and confirm the payment where there is
one; an error is logged. -/
def confirmIfFound (payment : Payment) (lookUp : Task (Option Confirmation)) :
    Task Unit :=
  detached do
    match ← lookUp with
    | none => pure ()
    | some confirmation => do
        let _ ← confirmPayment payment confirmation

/-- Seven days, in milliseconds. -/
def sevenDays : Time := 7 * 24 * 60 * 60 * 1000

/-- The payments one tick looks at: confirming, of the last seven days, newest
first. -/
def recentlyConfirming (now : Time) (w : World) : List Payment :=
  (w.payments.select fun r =>
    r.status == .confirming && decide (now ≤ r.createdAt + sevenDays)).insertionSort
    fun a b => b.createdAt ≤ a.createdAt

/-- One tick of `startConfirmingTransactions`: one payment after another; an
error of one does not keep the next from being tried. -/
def confirmTransactionsTick (env : Env) : Task Unit := do
  let unconfirmed ← Proc.query fun c w => .ok (recentlyConfirming c.now w)
  forEach unconfirmed fun payment =>
    confirmIfFound payment
      (getConfirmation env payment.txid (nullText payment.chain) payment.currency)

/-- `listUnconfirmedPayments({ chain, currency })`. -/
def listUnconfirmedPayments (chain currency : String) : Task (List Payment) :=
  prisma.payments.findMany fun r =>
    r.confirmation_hash == none && r.chain == some chain && r.currency == currency

/-- The `confirm-payments` command: every unconfirmed payment of a currency. -/
def confirmPaymentsCommand (env : Env) (chain currency : String) : Task Unit := do
  let plugin ← Proc.ofExcept (find env currency chain)
  let unconfirmed ← listUnconfirmedPayments chain currency
  forEach unconfirmed fun payment =>
    confirmIfFound payment (ask (plugin.getConfirmation payment.txid))

/-- The confirmation a payment already has: `if (confirmation_hash &&
confirmation_height && confirmation_date)`. -/
def storedConfirmation (payment : Payment) : Option Confirmation :=
  match nonEmpty payment.confirmation_hash, payment.confirmation_height,
    payment.confirmation_date with
  | some confirmation_hash, some confirmation_height, some confirmation_date =>
      if confirmation_height = 0 then none
      else some { confirmation_hash, confirmation_height, confirmation_date,
                  confirmations := some 1 }
  | _, _, _ => none

/-- `ConfirmationResult`. -/
structure ConfirmationResult where
  payment : Option Payment := none
  confirmation : Option Confirmation := none

/-- `confirmInvoice(uid)`; an error is logged. The transaction looked up and
confirmed is the one in `invoices.hash`, the payment read only says on which
chain. -/
def confirmInvoice (env : Env) (uid : String) : Task ConfirmationResult :=
  Proc.tryCatch
    (do
      let invoice ← prisma.invoices.findFirstOrThrow fun r => r.uid == uid
      match ← prisma.payments.findFirst fun r => r.invoice_uid == uid with
      | none => pure {}
      | some payment =>
          match storedConfirmation payment with
          | some confirmation =>
              pure { payment := some payment, confirmation := some confirmation }
          | none =>
              match invoice.status, nonEmpty invoice.hash with
              | .confirming, some txid => do
                  match ← getConfirmation env txid (nullText payment.chain)
                      payment.currency with
                  | none => pure { payment := some payment }
                  | some confirmation => do
                      let confirmedPayment ← confirmPaymentByTxid txid confirmation
                      pure { payment := some confirmedPayment,
                             confirmation := some confirmation }
              | _, _ => pure {})
    fun _ => pure {}

/-! ## Reverting -/

/-- `revertPayment({ txid })`. -/
def revertPayment (txid : String) : Task Unit := do
  let invoice ← prisma.invoices.findFirstOrThrow fun r => r.hash == some txid
  let payment ← prisma.payments.findFirstOrThrow fun r => r.txid == txid
  let _ ← prisma.invoices.update invoice.id fun _ r =>
    { r with status := .unpaid, hash := none }
  let _ ← prisma.payments.update payment.id fun _ r => { r with status := .failed }
  let payment ← prisma.payments.findFirstOrThrow fun r => r.id == payment.id
  publish "payment.reverted"
    (.obj [("payment", payment.toJson), ("invoice", invoice.toJson)])

/-! ## EVM receipts -/

/-- `handleTransactionReceipt(web3, receipt)`. A reverted transaction is handed
on un-awaited. -/
def handleTransactionReceipt (receipt : TransactionReceipt) : Task Unit :=
  if receipt.status = false then spawn (.revertPayment receipt.transactionHash)
  else do
    let timestamp ← ask fun c => .ok c.blockTimestamp
    let _ ← confirmPaymentByTxid receipt.transactionHash
      { confirmation_height := receipt.blockNumber,
        confirmation_hash := receipt.blockHash.getD "undefined",
        confirmation_date := timestamp * 1000 }
    match ← prisma.evmTransactionReceipts.findFirst fun r =>
        r.txid == some receipt.transactionHash with
    | some _ => pure ()
    | none => do
        -- `String(receipt)` of a receipt object
        let _ ← prisma.evmTransactionReceipts.create fun now id =>
          { id, txid := some receipt.transactionHash,
            receipt := some (.str "[object Object]"), createdAt := now, updatedAt := now }

/-- The 'receipt' event of a transaction that was sent: the receipt the chain
has now, if any. -/
def onReceipt (txid : String) : Task Unit := do
  match ← ask fun c => .ok (c.receipt txid) with
  | none => pure ()
  | some receipt =>
      if receipt.status = true then spawn (.handleTransactionReceipt receipt)
      else spawn (.revertPayment receipt.transactionHash)

/-- The rest of `broadcastTx` for a submitted transaction hash: look the receipt
up once. -/
def lookUpReceipt (txid : String) : Task Unit := do
  match ← ask fun c => .ok (c.receipt txid) with
  | none => pure ()
  | some receipt => spawn (.handleTransactionReceipt receipt)

namespace EVM

/-- `EVM.getConfirmation(txid)`: the block of the receipt, whatever the
receipt's status. The stored receipt it also reads is used for nothing. -/
def getConfirmation (txid : String) (c : Answer) :
    Except Failure (Option Confirmation) :=
  match c.receipt txid with
  | none => .ok none
  | some receipt =>
      match nonEmpty receipt.blockHash with
      | none => .ok none
      | some confirmation_hash =>
          let confirmation_height := receipt.blockNumber
          .ok (some
            { confirmation_hash, confirmation_height,
              confirmation_date := c.blockTimestamp * 1000,
              confirmations := some ((c.latestBlock : Int) - confirmation_height + 1) })

/-- `EVM.broadcastTx({ txhex })`. A text of the length of a transaction hash is
not broadcast; a raw transaction is, and its receipt is waited for in the
background. -/
def broadcastTx (transaction : Transaction) (c : Answer) :
    Except Failure (BroadcastTxResult × List Job) :=
  if transaction.txhex.length = 66 then
    .ok ({ txid := some transaction.txhex }, [.lookUpReceipt transaction.txhex])
  else
    match c.broadcast with
    | .ok result => .ok (result, (result.txid.map Job.onReceipt).toList)
    | .error e => .error e

end EVM

end Anypay
