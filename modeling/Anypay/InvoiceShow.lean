/-
Anypay.InvoiceShow — an invoice as the v0 API shows it (`show` of
`server/v0/handlers/invoices.ts`).

The handler refreshes an unpaid invoice that has expired, and adds the payment
where the invoice has a hash. It does not await the query for the payment: what it
takes apart is what `JSON.stringify` makes of a promise.
-/
import Anypay.Invoices

namespace Anypay

open Async Proc

/-- `isExpired(invoice)`: no comparison with a date that is not there holds. -/
def isExpired (invoice : Invoice) (now : Time) : Bool :=
  match invoice.expiry with
  | some expiry => decide (expiry < now)
  | none => false

namespace InvoiceShow

/-- `JSON.parse(JSON.stringify(promise))`. -/
def unawaited : Json := .obj []

/-- The fields of `response.payment`, and the columns they come from. -/
def paymentFields : List (String × String) := [
  ("invoice_uid", "invoice_uid"), ("status", "status"), ("date", "createdAt"),
  ("chain", "chain"), ("currency", "currency"), ("txid", "txid"), ("txhex", "txhex"),
  ("confirmation_hash", "confirmation_hash"), ("confirmation_date", "confirmation_date"),
  ("confirmation_height", "confirmation_height"),
  ("block_explorer_url", "block_explorer_url")]

/-- `response.payment`; what is `undefined` is left out of the body. -/
def responsePayment (payment : Json) : Json :=
  .obj (paymentFields.filterMap fun field =>
    (payment.get field.2).map fun value => (field.1, value))

/-- `response.invoice` without its options and notes. -/
structure ResponseInvoice where
  amount : Option Rat
  currency : Option String
  status : InvoiceStatus
  uid : String
  uri : Option String
  createdAt : Time
  expiresAt : Option Time
  hash : Option String
  redirect_url : Option String

structure Response where
  invoice : ResponseInvoice
  payment_options : List JsonV2PaymentRequest
  notes : List InvoiceNote
  payment : Option Json

/-- The response, once the invoice is at hand. -/
def describe (env : Env) (invoice : Invoice) : Task Response := do
  let payment_options ← getPaymentOptions env invoice.uid
  let notes ← prisma.invoice_notes.findMany fun r => r.invoice_uid == invoice.uid
  pure
    { invoice :=
        { amount := invoice.amount, currency := invoice.currency, status := invoice.status,
          uid := invoice.uid, uri := invoice.uri, createdAt := invoice.createdAt,
          expiresAt := invoice.expiry, hash := nonEmpty invoice.hash,
          redirect_url := nonEmpty invoice.redirect_url },
      payment_options, notes,
      payment := (nonEmpty invoice.hash).map fun _ => responsePayment unawaited }

/-- `show`; an error response counts as thrown. -/
def showInvoice (env : Env) (uid : String) : Task Response := do
  let invoice ← prisma.invoices.findFirstOrThrow fun r => r.uid == uid
  let now ← ask fun c => .ok c.now
  if invoice.status = .unpaid ∧ isExpired invoice now = true then do
    let invoice ← refreshInvoice env invoice.uid
    describe env invoice
  else describe env invoice

end InvoiceShow

end Anypay
