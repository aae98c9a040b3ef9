/-
Anypay.WebhookServer — the server that posts to an invoice's webhook URL.

`src/webhooks/server.ts` binds one queue to each of six routing keys; its handler
wants `{ topic, payload: { invoice: { uid } } }`, looks the invoice up, has a
builder make the payload from the DATABASE (`builder.ts` and the `build` of each
event schema), and posts it if the invoice has a URL. The payload is built twice,
once to be looked at. Whatever goes wrong is logged.
-/
import Anypay.Confirmations

namespace Anypay

open Async Proc

namespace WebhookServer

def topics : List String :=
  ["invoice.created", "invoice.paid", "invoice.cancelled", "payment.confirming",
   "payment.confirmed", "payment.failed"]

/-! ## Builders -/

/-- An event with the ids of its invoice, where they are not 0. -/
def invoiceEvent (topic : String) (invoice : Invoice) (body : List (String × Json)) : Json :=
  Event.toJson
    { topic, account_id := orUndefined invoice.account_id,
      app_id := orUndefined invoice.app_id, body }

def invoiceField (uid status : String) : String × Json :=
  ("invoice", .obj [("uid", .str uid), ("status", .str status)])

def paymentObject (payment : Payment) (status : String) : String × Json :=
  ("payment", .obj [
    ("chain", .str (nullText payment.chain)), ("currency", .str payment.currency),
    ("txid", .str payment.txid), ("status", .str status)])

def findInvoice (uid : String) : Task Invoice :=
  prisma.invoices.findFirstOrThrow fun r => r.uid == uid

def findPayment (uid : String) : Task Payment :=
  prisma.payments.findFirstOrThrow fun r => r.invoice_uid == uid

/-- `build` of InvoiceCreatedEvent. -/
def buildInvoiceCreated (uid : String) : Task Json := do
  let invoice ← findInvoice uid
  if invoice.uid ≠ uid then reject "Invoice not found"
  else pure (invoiceEvent "invoice.created" invoice
    [("invoice", .obj [
      ("uid", .str uid), ("status", .str "unpaid"),
      ("quote", .obj [
        ("value", .num (invoice.amount.getD 0)),
        ("currency", .str (nullText invoice.currency))])])])

/-- `build` of InvoiceCancelledEvent. -/
def buildInvoiceCancelled (uid : String) : Task Json := do
  let invoice ← findInvoice uid
  if invoice.status ≠ .cancelled then reject "invoice is not cancelled"
  else pure (invoiceEvent "invoice.cancelled" invoice [invoiceField uid "cancelled"])

/-- `build` of InvoicePaidEvent. -/
def buildInvoicePaid (uid : String) : Task Json := do
  let invoice ← findInvoice uid
  if invoice.status ≠ .paid then reject "Invoice is not paid"
  else do
    let payment ← findPayment invoice.uid
    pure (invoiceEvent "invoice.paid" invoice
      [invoiceField uid invoice.status.toString,
       paymentObject payment payment.status.toString])

/-- `build` of PaymentConfirmingEvent. The account is the payment's. -/
def buildPaymentConfirming (uid : String) : Task Json := do
  let payment ← findPayment uid
  let invoice ← findInvoice uid
  if payment.status ≠ .confirming then reject "Payment is not confirming"
  else pure (invoiceEvent "payment.confirming"
    { invoice with account_id := payment.account_id }
    [invoiceField uid invoice.status.toString,
     paymentObject payment payment.status.toString])

/-- `build` of PaymentConfirmedEvent. -/
def buildPaymentConfirmed (uid : String) : Task Json := do
  let payment ← findPayment uid
  let invoice ← findInvoice uid
  if invoice.uid ≠ uid then reject "Invoice not found"
  else if payment.invoice_uid ≠ uid then reject "Payment not found"
  else pure (invoiceEvent "payment.confirmed" invoice
    [invoiceField uid "paid", paymentObject payment "confirmed",
     ("confirmation", .obj [
       ("hash", .str (nullText payment.confirmation_hash)),
       ("height", .ofNat (payment.confirmation_height.getD 0))])])

/-- `build` of PaymentFailedEvent. -/
def buildPaymentFailed (uid : String) : Task Json := do
  let payment ← findPayment uid
  let invoice ← findInvoice uid
  if invoice.uid ≠ uid then reject "Invoice not found"
  else if payment.status ≠ .failed then reject "Payment is not failed"
  else pure (invoiceEvent "payment.failed" invoice
    [invoiceField uid invoice.status.toString,
     paymentObject payment payment.status.toString])

def builderFunctions : List (String × (String → Task Json)) := [
  ("invoice.created", buildInvoiceCreated),
  ("invoice.paid", buildInvoicePaid),
  ("invoice.cancelled", buildInvoiceCancelled),
  ("payment.confirming", buildPaymentConfirming),
  ("payment.confirmed", buildPaymentConfirmed),
  ("payment.failed", buildPaymentFailed)]

/-- `buildPayload()` of a builder with this topic and `params.invoice_uid`. -/
def buildPayload (topic uid : String) : Task Json :=
  match builderFunctions.lookup topic with
  | none => reject ("No builder function for topic: " ++ topic)
  | some build => build uid

/-- `sendWebhook({ url })`: the payload is built again. -/
def sendWebhook (topic uid url : String) : Task Unit := do
  let payload ← buildPayload topic uid
  match ← post url payload with
  | .ok (status, _) =>
      if status = 200 then pure ()
      else reject ("Failed to send webhook: Unexpected status code: " ++ toString status)
  | .error message => reject ("Failed to send webhook: " ++ message)

/-! ## The handler -/

/-- `payload?.invoice?.uid`. -/
def invoiceUid (json : Json) : Option Json :=
  ((json.get "payload").bind fun payload => payload.get "invoice").bind fun invoice =>
    invoice.get "uid"

/-- The body of the handler. A topic that is no text finds no builder. -/
def handle (json : Json) : Task Unit :=
  match json with
  | .null => throw .typeError
  | json =>
      if Json.truthy (invoiceUid json) = false then reject "no invoice_uid"
      else
        match invoiceUid json with
        | some (.str uid) => do
            let invoice ← findInvoice uid
            let topic := (Json.str? (json.get "topic")).getD "undefined"
            let _ ← buildPayload topic uid
            match nonEmpty invoice.webhook_url with
            | none => pure ()
            | some url => sendWebhook topic uid url
        | _ => throw (.invalidValue "invoices")

/-- The handler: an error is logged. -/
def onMessage (json : Json) : Task Unit := detached (handle json)

/-- The messages published are delivered, those on the keys that are listened
to. -/
def serve (published : List (String × Json)) : Task Unit :=
  forEach published fun message =>
    if topics.contains message.1 then onMessage message.2 else pure ()

end WebhookServer

end Anypay
