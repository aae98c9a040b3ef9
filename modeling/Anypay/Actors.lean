/-
Anypay.Actors — the messages on the routing key 'invoice.paid' and who consumes
them.

Two functions publish there: `completePayment`, through `publishEvent`, and
`confirmTransaction` of `lib/blockcypher.ts`, which publishes the invoice row
itself. The consumers are the actors `refunds`, `webhooks` and
`paid_webhooks`; each takes `uid` from the top level of the message it is
handed, and a `where` field that is `undefined` is no constraint.
-/
import Anypay.Confirmations

namespace Anypay

open Async Proc Store

/-- The block of a transaction, asked for where the caller does not bring it. -/
def blockOf : Option Confirmation → Task (Option Confirmation)
  | some transaction => pure (some transaction)
  | none => ask fun c => c.confirmation

theorem Invoice.paid_id (_ : Time) (r : Invoice) :
    Record.id { r with status := .paid } = Record.id r := rfl

/-- `confirmTransaction(payment, transaction)`; `found` is the block that holds
the transaction, where the caller knows it. The update of the payment is never
awaited, so Prisma never runs it. -/
def confirmTransaction (payment : Payment) (found : Option Confirmation) : Task Payment := do
  let _ ← blockOf found
  let updatedPayment ← prisma.payments.findFirstOrThrow fun r => r.id == payment.id
  publish "payment.confirmed" updatedPayment.toJson
  let invoice ← prisma.invoices.findFirstOrThrow fun r => r.uid == payment.invoice_uid
  let originalStatus := invoice.status
  let _ ← prisma.invoices.update invoice.id (fun _ r => { r with status := .paid })
    Invoice.paid_id
  let invoice ← prisma.invoices.findFirstOrThrow fun r => r.id == invoice.id
  if originalStatus = .confirming then publish "invoice.paid" invoice.toJson
  spawn (.sendWebhookForInvoice invoice.uid "confirmTransaction")
  pure payment

/-- `const { uid } = json`, as it is then used in a `where` clause: a text, or
`undefined`; anything else is refused. -/
def uidOf (json : Json) : Except Failure (Option String) :=
  match json with
  | .null => .error .typeError
  | _ =>
      match json.get "uid" with
      | none => .ok none
      | some (.str uid) => .ok (some uid)
      | some _ => .error (.invalidValue "invoices")

/-- The consumer of the refunds actor, after `uid` was taken from the message. -/
def markRefundPaid (uid : Option String) : Task Unit := do
  let refund ← prisma.refunds.findFirstOrThrow fun r => matchesField uid r.refund_invoice_uid
  if refund.status = "paid" then pure ()
  else do
    let _ ← prisma.invoices.findFirstOrThrow fun r => r.uid == refund.original_invoice_uid
    let refund_invoice ← prisma.invoices.findFirstOrThrow fun r => matchesField uid r.uid
    let _ ← prisma.refunds.update refund.id fun _ r =>
      { r with txid := refund_invoice.hash, status := "paid" }

/-- The consumer of the refunds actor. -/
def refundsActor (json : Json) : Task Unit := do
  let uid ← Proc.ofExcept (uidOf json)
  markRefundPaid uid

/-- The consumer of the webhooks actor. -/
def webhooksActor (json : Json) : Task Unit :=
  detached do
    let uid ← Proc.ofExcept (uidOf json)
    sendWebhookForInvoice uid "actor_on_invoice_paid"

/-- The consumer of the paid_webhooks actor, after `uid` was taken from the
message. A webhook that is not there has already thrown, so none is created. -/
def attemptPaidWebhook (uid : Option String) : Task Unit := do
  let invoice ← prisma.invoices.findFirstOrThrow fun r => matchesField uid r.uid
  let _ ← prisma.accounts.findFirst fun r => (r.id : Int) == invoice.account_id.getD 0
  let webhook ← getPaidWebhookForInvoice invoice
  discard (attemptWebhook webhook)

/-- The consumer of the paid_webhooks actor. -/
def paidWebhooksActor (json : Json) : Task Unit :=
  detached do
    let uid ← Proc.ofExcept (uidOf json)
    attemptPaidWebhook uid

end Anypay
