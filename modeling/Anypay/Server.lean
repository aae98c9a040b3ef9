/-
Anypay.Server — the calls that run side by side on one server.

`Op` is a call: a request, a tick of a cron, a command, or a background call
left by another (`Job`). `program env` is what it runs, so a run of the server
is a run of `Pool` over `program env`. `Op.pays` says which invoice a call
submits a payment for.
-/
import Anypay.Confirmations
import Anypay.Invoices

namespace Anypay

open Async Proc

inductive Op where
  | submitPayment (payment : SubmitPaymentRequest)
  | jsonV2Payment (uid currency : String) (chain : Option String)
      (transactions : List Transaction)
  | jsonPaymentRequest (uid currency chain : String) (transactions : List Transaction)
      (wallet : Option String)
  | bip270Payment (uid txhex : String) (wallet : Option String)
  | bip70Payment (uid code : String) (transactions : List String)
  | recordPayment (invoice : Invoice) (details : PaymentDetails)
  | completePayment (option : PaymentOption) (transaction : Transaction)
      (confirming : Bool)
  | handleUnconfirmedPayment (option : PaymentOption) (transaction : Transaction)
  | cancelInvoice (invoice : Invoice)
  | cancelRequest (uid : String) (account_id : Int)
  | confirmPayment (payment : Payment) (confirmation : Confirmation)
  | getConfirmationForTxid (txid : String)
  | confirmTransactionsTick
  | confirmPaymentsCommand (chain currency : String)
  | revertPayment (txid : String)
  | job (j : Job)

/-- Run a background call. -/
def runJob (env : Env) : Job → Task Unit
  | .createAndSendWebhook topic payload => createAndSendWebhook topic payload
  | .sendWebhook webhook => sendWebhook webhook
  | .sendWebhookForInvoice uid type => sendWebhookForInvoice (some uid) type
  | .createWebhookForInvoice invoice => discard (createWebhookForInvoice env invoice)
  | .createPaymentSubmission submission =>
      discard (prisma.paymentSubmissions.create fun now id =>
        { submission now id with id })
  | .onReceipt txid => onReceipt txid
  | .lookUpReceipt txid => lookUpReceipt txid
  | .handleTransactionReceipt receipt => handleTransactionReceipt receipt
  | .revertPayment txid => revertPayment txid

/-- What a call runs; its result is of no interest to the others. -/
def program (env : Env) : Op → Task Unit
  | .submitPayment payment => discard (submitPayment env payment)
  | .jsonV2Payment uid currency chain transactions =>
      discard (jsonV2Payment env uid currency chain transactions)
  | .jsonPaymentRequest uid currency chain transactions wallet =>
      discard (jsonPaymentRequest env uid currency chain transactions wallet)
  | .bip270Payment uid txhex wallet => discard (bip270Payment env uid txhex wallet)
  | .bip70Payment uid code transactions => bip70Payment env uid code transactions
  | .recordPayment invoice details => discard (recordPayment invoice details)
  | .completePayment option transaction confirming =>
      discard (completePayment env option transaction confirming)
  | .handleUnconfirmedPayment option transaction =>
      discard (handleUnconfirmedPayment env option transaction)
  | .cancelInvoice invoice => discard (cancelInvoice invoice)
  | .cancelRequest uid account_id => cancelRequest uid account_id
  | .confirmPayment payment confirmation => discard (confirmPayment payment confirmation)
  | .getConfirmationForTxid txid => discard (getConfirmationForTxid env txid)
  | .confirmTransactionsTick => confirmTransactionsTick env
  | .confirmPaymentsCommand chain currency => confirmPaymentsCommand env chain currency
  | .revertPayment txid => revertPayment txid
  | .job j => runJob env j

/-- The calls running on one server. -/
abbrev Calls := Pool World Answer Failure Op

/-- The invoice a call submits a payment for. -/
def Op.pays : Op → Option String
  | .submitPayment payment => some payment.invoice_uid
  | .jsonV2Payment uid _ _ _ => some uid
  | .jsonPaymentRequest uid _ _ _ _ => some uid
  | .bip270Payment uid _ _ => some uid
  | .bip70Payment uid _ _ => some uid
  | .recordPayment invoice _ => some invoice.uid
  | _ => none

/-- How many transactions a call submits. -/
def Op.transactionCount : Op → Nat
  | .submitPayment payment => payment.transactions.length
  | .jsonV2Payment _ _ _ transactions => transactions.length
  | .jsonPaymentRequest _ _ _ transactions _ => transactions.length
  | .bip270Payment _ _ _ => 1
  | .bip70Payment _ _ transactions => transactions.length
  | .recordPayment _ _ => 1
  | _ => 0

end Anypay
