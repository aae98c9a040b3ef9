/-
Anypay.Refunds — `lib/refunds.ts`: the refund of a paid invoice.

A refund is a payment request made by an app of the merchant's, which asks for
the invoice's amount, in the invoice's currency as its row has it NOW, to be paid
in the currency of a payment of the invoice: of any one, the query has neither
an order nor a status.
-/
import Anypay.PaymentRequests

namespace Anypay

open Async Proc

/-- `createApp({ account_id, name })`; the key pair is left out. -/
def createApp (account_id : Int) (name : String) : Task App :=
  prisma.apps.create fun _ id => { id, account_id, name }

/-- `(await getAddressForInvoice(invoice)).value`. -/
def getAddressForInvoice (invoice : Invoice) : Task String :=
  if invoice.status = .unpaid then reject "RefundErrorInvoiceNotPaid"
  else ask fun c => c.inputAddress

/-- The template of a refund. A `Decimal` is read as the number it is. -/
def refundTemplate (currency address : String) (invoice : Invoice) : List Json :=
  [.obj [("currency", .str currency), ("to", .arr [.obj [
    ("address", .str address), ("amount", .orNull .num invoice.amount),
    ("currency", .orNull .str invoice.currency)]])]]

/-- The refund's address: the one given, else the one the payment came from. -/
def refundAddress (invoice : Invoice) (address : Option String) : Task String :=
  match nonEmpty address with
  | some address => pure address
  | none => getAddressForInvoice invoice

/-- `getRefund(invoice, address)`; the invoice is the caller's copy. -/
def getRefund (env : Env) (invoice : Invoice) (address : Option String) : Task Refund := do
  match ← prisma.refunds.findFirst fun r => r.original_invoice_uid == invoice.uid with
  | some record => pure record
  | none => do
      let address ← refundAddress invoice address
      let payment ← prisma.payments.findFirstOrThrow fun r => r.invoice_uid == invoice.uid
      let app ← createApp (invoice.account_id.getD 0) "@refunds"
      let payment_request ← createPaymentRequest env app.id
        (refundTemplate payment.currency address invoice) (some (.obj []))
      let address ← Proc.ofExcept (requiredText "Refunds" (some (.str address)))
      prisma.refunds.create fun _ id =>
        { id, original_invoice_uid := invoice.uid,
          refund_invoice_uid := nullText payment_request.invoice_uid, address }

end Anypay
