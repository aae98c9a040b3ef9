/-
Anypay.Pay — paying an invoice.

`lib/pay/index.ts` (`completePayment`, `handleUnconfirmedPayment`), `submitPayment` of `lib/pay/json_v2/protocol.ts`,
`recordPayment` of `lib/payments.ts`, and the request handlers that reach them:
JSON v2, the JSON payment requests, BIP270 and BIP70.

Each `←` is one await, so one atomic step, and a check made on a row read
earlier is made on that COPY. Log lines are left out: the rows they write are
read by no function here. So are the responses' content types and headers.
-/
import Anypay.Verification
import Anypay.Webhooks

namespace Anypay

open Async Proc

/-! ## Settling an invoice -/

/-- `prisma.invoices.update` by the step that settles the invoice; the history
records which transaction did. -/
def settleInvoice (invoice : Invoice) (option : PaymentOption) (transaction : Transaction)
    (status : InvoiceStatus) (f : Time → Invoice → Invoice)
    (hid : ∀ t r, Store.Record.id (f t r) = Store.Record.id r := by intros; rfl) :
    Task Invoice :=
  Proc.step fun c w =>
    match prisma.invoices.commit w (w.invoices.update? invoice.id (f c.now) (hid c.now)) with
    | (.ok r, w') => (.ok r, { w' with settlements := w'.settlements ++
        [{ invoice := invoice.id, uid := option.invoice_uid, chain := option.chain,
           currency := option.currency, transaction, status }] })
    | (.error e, w') => (.error e, w')

/-- `handleUnconfirmedPayment(paymentOption, transaction)`. -/
def handleUnconfirmedPayment (env : Env) (option : PaymentOption)
    (transaction : Transaction) : Task Payment := do
  let tx ← Proc.ofExcept (decodeTransaction env option.chain transaction.txhex)
  let invoice ← prisma.invoices.findFirstOrThrow fun r => r.uid == option.invoice_uid
  let txid := (nonEmpty transaction.txid).getD tx.hash
  let paymentRecord ← prisma.payments.create fun now id =>
    { id, txid, currency := option.currency,
      chain := some (orElse (some option.chain) option.currency),
      txhex := some transaction.txhex, tx_key := transaction.txkey,
      payment_option_id := some option.id, invoice_uid := option.invoice_uid,
      account_id := invoice.account_id, createdAt := now, updatedAt := now }
  let _ ← settleInvoice invoice option transaction .confirming fun now r =>
    { r with currency := some option.currency, amount := invoice.amount,
             address := option.address, hash := some txid, status := .confirming,
             paidAt := some now, complete := true, completed_at := some now }
  publish "payment.confirming" paymentRecord.toJson
  pure paymentRecord

/-- The id `completePayment` stores: the client's, else a hex text of the length
of an EVM transaction hash, else the id of the first payment parsed out of the
transaction. -/
def paymentTxid (env : Env) (option : PaymentOption) (chain : String)
    (transaction : Transaction) : Task String :=
  match nonEmpty transaction.txid with
  | some txid => pure txid
  | none =>
      if transaction.txhex.length = 66 then pure transaction.txhex
      else do
        let plugin ← Proc.ofExcept (find env option.currency chain)
        match ← ask (plugin.parsePayments transaction) with
        | txid :: _ => pure txid
        | [] => throw .typeError

/-- `completePayment(paymentOption, transaction, confirming)`. -/
def completePayment (env : Env) (option : PaymentOption) (transaction : Transaction)
    (confirming : Bool) : Task Payment := do
  let chain := orElse (some option.chain) option.currency
  let txid ← paymentTxid env option chain transaction
  let invoice ← prisma.invoices.findFirstOrThrow fun r => r.uid == option.invoice_uid
  let paymentRecord ← prisma.payments.create fun now id =>
    { id, txid, currency := option.currency, chain := some chain,
      txhex := some transaction.txhex, tx_key := transaction.txkey,
      payment_option_id := some option.id, invoice_uid := option.invoice_uid,
      account_id := invoice.account_id, createdAt := now, updatedAt := now }
  let status : InvoiceStatus := if confirming then .confirming else .paid
  let _ ← settleInvoice invoice option transaction status fun now r =>
    { r with address := option.address, hash := some txid, status,
             paidAt := some now, complete := true, completed_at := some now }
  let invoice ← prisma.invoices.findFirstOrThrow fun r => r.uid == option.invoice_uid
  detached (publishEvent "invoice.paid"
    { topic := "invoice.paid",
      account_id := orUndefined invoice.account_id, app_id := orUndefined invoice.app_id,
      body := [
        ("invoice", .obj [
          ("uid", .str invoice.uid), ("status", .str invoice.status.toString)]),
        ("payment", .obj [
          ("chain", .str chain), ("currency", .str option.currency),
          ("txid", .str txid), ("status", .str "paid")])] })
  spawn (.sendWebhookForInvoice invoice.uid "api_on_complete_payment")
  pure paymentRecord

/-! ## submitPayment -/

/-- `SubmitPaymentRequest`. -/
structure SubmitPaymentRequest where
  currency : String
  chain : Option String := none
  invoice_uid : String
  transactions : List Transaction
  wallet : Option String := none

/-- The chains on which a submitted payment waits for a block. -/
def confirmingChains : List String := ["ETH", "MATIC", "AVAX", "SOL", "XLM"]

/-- Broadcast; on SOL and XRP the invoice's hash is written at once. The result
is the transaction as the rest of the loop sees it. -/
def broadcastTransaction (plugin : Plugin) (invoice : Invoice) (option : PaymentOption)
    (transaction : Transaction) : Task Transaction :=
  if option.chain = "SOL" then do
    let _ ← broadcastTx plugin transaction
    -- `String(response)` of a response object
    let _ ← prisma.invoices.update invoice.id fun now r =>
      { r with hash := some "[object Object]", updatedAt := now }
    pure transaction
  else if option.chain = "XRP" then do
    let response ← broadcastTx plugin transaction
    let _ ← prisma.invoices.update invoice.id fun now r =>
      { r with hash := some (response.txid.getD "undefined"), updatedAt := now }
    pure { transaction with txid := response.txid }
  else do
    let _ ← broadcastTx plugin transaction
    pure transaction

/-- The event of a payment that waits for its confirmations. -/
def paymentConfirming (invoice : Invoice) (paymentRecord : Payment) : Event :=
  { topic := "payment.confirming",
    account_id := orUndefined invoice.account_id, app_id := orUndefined invoice.app_id,
    body := [
      ("invoice", .obj [("uid", .str invoice.uid), ("status", .str "confirming")]),
      ("payment", .obj [
        ("status", .str "confirming"), ("txid", .str paymentRecord.txid),
        ("chain", .str (nullText paymentRecord.chain)),
        ("currency", .str paymentRecord.currency)])] }

/-- The payment record of one accepted transaction, by currency and chain. -/
def settleTransaction (env : Env) (invoice : Invoice) (option : PaymentOption)
    (transaction : Transaction) : Task Payment :=
  if option.currency = "BTC" ∧ env.requireBtcConfirmations = true then do
    let paymentRecord ← handleUnconfirmedPayment env option transaction
    spawn (.createAndSendWebhook "payment.confirming"
      (paymentConfirming invoice paymentRecord).toJson)
    pure paymentRecord
  else if confirmingChains.contains option.chain then
    completePayment env option transaction true
  else completePayment env option transaction false

/-- One round of the loop over the submitted transactions. -/
def submitTransaction (env : Env) (payment : SubmitPaymentRequest) (invoice : Invoice)
    (option : PaymentOption) (plugin : Plugin) (transaction : Transaction) : Task Unit := do
  let verified ← ask (plugin.verifyPayment option transaction)
  if verified = false then
    reject ("pay.jsonv2." ++ payment.currency.toLower ++ ".verifyPayment.failed")
  else do
    let transaction ← broadcastTransaction plugin invoice option transaction
    let paymentRecord ← settleTransaction env invoice option transaction
    match nonEmpty payment.wallet with
    | none => pure ()
    | some wallet => do
        let _ ← prisma.payments.update paymentRecord.id fun _ r =>
          { r with wallet := some wallet }

/-- The payment option of an invoice in a currency on a chain. -/
def findPaymentOption (uid currency chain : String) : Task (Option PaymentOption) :=
  prisma.payment_options.findFirst fun r =>
    r.invoice_uid == uid && r.currency == currency && r.chain == chain

/-- `submitPayment(payment)`; the result is the list of raw transactions. -/
def submitPayment (env : Env) (payment : SubmitPaymentRequest) : Task (List String) := do
  let chain := orElse payment.chain payment.currency
  let invoice ← prisma.invoices.findFirstOrThrow fun r => r.uid == payment.invoice_uid
  if invoice.status ≠ .unpaid then
    reject ("Invoice With Status " ++ invoice.status.toString ++ " Cannot Be Paid")
  else do
    match ← findPaymentOption payment.invoice_uid payment.currency chain with
    | none => reject "Unsupported Currency or Chain for Payment Option"
    | some option => do
        let plugin ← Proc.ofExcept (find env payment.currency chain)
        forEach payment.transactions
          (submitTransaction env payment invoice option plugin)
        pure (payment.transactions.map Transaction.txhex)

/-! ## What a wallet is shown -/

/-- `FeeLevels`. -/
def feeLevels : List String :=
  ["fastestFee", "halfHourFee", "hourFee", "economyFee", "minimumFee"]

/-- `getRequiredFeeRate({ invoice, chain })`. -/
def getRequiredFeeRate (env : Env) (invoice : Invoice) (chain : String) : Task Nat :=
  ask fun c =>
    match nonEmpty invoice.fee_rate_level with
    | some level =>
        if chain = "BTC" ∧ env.mempoolSpaceFeesEnabled = true then
          .ok (c.feeRate (if feeLevels.contains level then level else "fastestFee"))
        else .ok ((env.requiredFeeRates.lookup chain).getD 1)
    | none => .ok ((env.requiredFeeRates.lookup chain).getD 1)

/-- `PaymentRequest` of the JSON v2 protocol, with its one instruction. -/
structure JsonV2PaymentRequest where
  time : Time
  expires : Time
  memo : String
  paymentUrl : String
  paymentId : String
  chain : String
  currency : String
  network : String := "main"
  requiredFeeRate : Nat
  outputs : List Output

/-- Fifteen minutes, in milliseconds. -/
def fifteenMinutes : Time := 15 * 60 * 1000

/-- `getPaymentRequest(invoice, { chain, currency })`; the invoice is the
caller's copy. -/
def getPaymentRequest (env : Env) (invoice : Invoice) (currency chain : String) :
    Task JsonV2PaymentRequest :=
  if chain = "" then reject "\"chain\" is not allowed to be empty"
  else if currency = "" then reject "\"currency\" is not allowed to be empty"
  else do
    let paymentOption ← prisma.payment_options.findFirstOrThrow fun r =>
      r.invoice_uid == invoice.uid && r.currency == currency && r.chain == chain
    let requiredFeeRate ← getRequiredFeeRate env invoice currency
    match paymentOption.outputs with
    | none => throw .typeError
    | some outputs => do
        let now ← ask fun c => .ok c.now
        pure
          { time := invoice.createdAt,
            expires := invoice.expiry.getD (now + fifteenMinutes),
            memo := nullText invoice.memo,
            paymentUrl := env.apiBase ++ "/r/" ++ invoice.uid,
            paymentId := invoice.uid, chain, currency, requiredFeeRate, outputs }

/-- `getPaymentOptions(invoice_uid)`. -/
def getPaymentOptions (env : Env) (uid : String) : Task (List JsonV2PaymentRequest) := do
  let invoice ← prisma.invoices.findFirstOrThrow fun r => r.uid == uid
  let payment_options ← prisma.payment_options.findMany fun r => r.invoice_uid == uid
  mapAll payment_options fun option =>
    getPaymentRequest env invoice option.currency option.chain

/-! ## The request handlers -/

/-- `ensureInvoice(request)` of the JSON v2 handlers: a fresh copy of the
invoice, refused where it is paid or cancelled. -/
def ensurePayable (uid : String) : Task Invoice := do
  let invoice ← prisma.invoices.findFirstOrThrow fun r => r.uid == uid
  if invoice.status = .paid then reject "invoice already paid"
  else if invoice.status = .cancelled then reject "invoice cancelled"
  else pure invoice

/-- JSON v2, `x-content-type: application/payment`: `handlePost`,
`submitPayment` and `sendSignedPayment`. -/
def jsonV2Payment (env : Env) (uid currency : String) (chain : Option String)
    (transactions : List Transaction) : Task (List String) := do
  let _ ← ensurePayable uid
  let invoice ← ensurePayable uid
  submitPayment env { currency, chain, invoice_uid := invoice.uid, transactions }

/-- `create` of the JSON payment requests; the wallet is the one detected from
the headers. -/
def jsonPaymentRequest (env : Env) (uid currency chain : String)
    (transactions : List Transaction) (wallet : Option String) : Task (List String) :=
  submitPayment env
    { currency := currency.toUpper, chain := some chain.toUpper, invoice_uid := uid,
      transactions, wallet }

/-- `create` of the BIP270 payment requests. -/
def bip270Payment (env : Env) (uid txhex : String) (wallet : Option String) :
    Task (List String) := do
  let invoice ← prisma.invoices.findFirstOrThrow fun r => r.uid == uid
  if invoice.cancelled = true then reject "Invoice Already Cancelled"
  else
    submitPayment env
      { currency := "BSV", invoice_uid := uid, transactions := [{ txhex }], wallet }

/-- One transaction of a BIP70 payment. -/
def bip70Transaction (env : Env) (plugin : Plugin) (option : PaymentOption)
    (txhex : String) : Task Unit := do
  let _ ← Proc.ofExcept (verifyPayment env option txhex)
  let _ ← broadcastTx plugin { txhex }
  let _ ← completePayment env option { txhex } false

/-- `create` of the BIP70 payment requests; `code` is the currency its headers
name, `transactions` those of the decoded payment. -/
def bip70Payment (env : Env) (uid code : String) (transactions : List String) :
    Task Unit := do
  let plugin ← Proc.ofExcept (find env code code)
  let option ← prisma.payment_options.findFirstOrThrow fun r =>
    r.invoice_uid == uid && r.currency == code
  let invoice ← prisma.invoices.findFirstOrThrow fun r => r.uid == uid
  if invoice.cancelled = true then reject "invoice cancelled"
  else do
    forEach transactions fun txhex =>
      spawn (.createPaymentSubmission fun now id =>
        { id, invoice_uid := some invoice.uid, txhex := some txhex,
          protocol := some "bip70", currency := some option.currency,
          createdAt := now, updatedAt := now })
    forEach transactions (bip70Transaction env plugin option)

/-! ## recordPayment -/

/-- `PaymentDetails`. -/
structure PaymentDetails where
  txid : String
  currency : String
  txhex : String
  txjson : Option Json := none

/-- `getPayment(invoice)`. -/
def getPayment (invoice : Invoice) : Task (Option Payment) :=
  prisma.payments.findFirst fun r => r.invoice_uid == invoice.uid

/-- `recordPayment(invoice, details)`; the invoice is the caller's copy. -/
def recordPayment (invoice : Invoice) (details : PaymentDetails) : Task Payment := do
  match ← getPayment invoice with
  | some _ => reject "Multiple payments for invoice not allowed"
  | none => do
      let option ← prisma.payment_options.findFirstOrThrow fun r =>
        r.invoice_uid == invoice.uid && r.currency == details.currency
      prisma.payments.create fun now id =>
        { id, txid := details.txid, txhex := some details.txhex, txjson := details.txjson,
          invoice_uid := invoice.uid, payment_option_id := some option.id,
          currency := option.currency,
          chain := some (orElse (some option.chain) option.currency),
          account_id := invoice.account_id, createdAt := now, updatedAt := now }

end Anypay
