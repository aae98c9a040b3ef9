/-
Anypay.AccountReads — what an account may read of itself (`index` of
`server/v0/handlers/invoices.ts`; `server/v1/handlers/payments.ts`,
`linked_account_payments.ts`, `invoice_events.ts` and `refunds.ts`).

Six endpoints behind the authentication, which puts the account's row on the
request. Each has a filter or a check of its own. An error response counts as
thrown.

Query values are as hapi leaves them: texts, or arrays of texts, where nothing
validates them, and numbers where Joi converted them. `new Date(x)` is the
platform's: a parameter.
-/
import Anypay.Refunds

namespace Anypay

open Async Proc

namespace AccountReads

/-- A query parameter nothing converts: the texts given for it. -/
def raw : List String → Option Json
  | [] => none
  | [s] => some (.str s)
  | xs => some (.arr (xs.map .str))

/-- `value || otherwise` as Prisma takes it for `take` and `skip`: an integer. -/
def pageNumber (model : String) (value : Option Json) (otherwise : Int) : Except Failure Int :=
  if Json.truthy value then
    match value with
    | some (.num q) => if q.den = 1 then .ok q.num else .error (.invalidValue model)
    | _ => .error (.invalidValue model)
  else .ok otherwise

/-- The latest rows first. -/
def newestFirst {α : Type} (createdAt : α → Time) (rows : List α) : List α :=
  rows.mergeSort fun a b => decide (createdAt b ≤ createdAt a)

/-! ## server/v0/handlers/invoices.ts -/

/-- `new Date(x)` as Prisma takes it: an invalid date is refused. -/
def dateOf (toDate : Json → Option Time) (x : Option Json) : Except Failure Time :=
  match x.bind toDate with
  | some d => .ok d
  | none => .error (.invalidValue "invoices")

/-- `query.where` of `index`: the end date's filter takes the place of the start
date's. -/
def createdWithin (toDate : Json → Option Time) (start_date_created end_date_created : Option Json) :
    Except Failure (Time → Bool) :=
  if Json.truthy end_date_created then
    (dateOf toDate end_date_created).map fun d t => decide (t < d)
  else if Json.truthy start_date_created then
    (dateOf toDate start_date_created).map fun d t => decide (d ≤ t)
  else .ok fun _ => true

/-- `index`; the account on the request is not read. -/
def invoicesIndex (toDate : Json → Option Time) (_ : Account) (query : String → List String) :
    Task (List Invoice) := do
  let take ← Proc.ofExcept (pageNumber "invoices" (raw (query "limit")) 100)
  let skip ← Proc.ofExcept (pageNumber "invoices" (raw (query "offset")) 0)
  let within ← Proc.ofExcept (createdWithin toDate (raw (query "start_date_created"))
    (raw (query "end_date_created")))
  prisma.invoices.findPage (fun r => within r.createdAt) take skip

/-! ## server/v1/handlers/payments.ts -/

/-- An entry of the list of payments. Of the payment it shows the currency, the
chain, the txid and the time, of the invoice the uid, the amount and the currency. -/
structure ListedPayment where
  payment : Payment
  outputs : Option (List Output)
  invoice : Invoice

/-- The body of `payments.map`: a row that has no such relation has nothing to read
from. -/
def describe (payment : Payment) (option : Option PaymentOption) (invoice : Option Invoice) :
    Except Failure ListedPayment :=
  match option, invoice with
  | some option, some invoice => .ok { payment, outputs := option.outputs, invoice }
  | _, _ => .error .typeError

/-- `listPayments(account, { limit, offset })`. -/
def listPayments (account : Account) (limit offset : Int) : Task (List Payment) :=
  Proc.query fun _ w =>
    if offset < 0 then .error (.invalidValue "payments")
    else .ok (page limit offset.toNat (newestFirst Payment.createdAt
      (w.payments.select fun r => r.account_id == some (account.id : Int))))

/-- `index`. The rows are read without their relations, and an entry that cannot be
described is left out. -/
def paymentsIndex (account : Account) (limit offset : Option Json) :
    Task (List ListedPayment) := do
  let limit ← Proc.ofExcept (pageNumber "payments" limit 1000)
  let offset ← Proc.ofExcept (pageNumber "payments" offset 0)
  let payments ← listPayments account limit offset
  pure (payments.filterMap fun payment => (describe payment none none).toOption)

/-- `Confirmation` of the response. -/
structure ShownConfirmation where
  block_hash : String
  block_height : Nat
  chain : String
  timestamp : Time

/-- `response.confirmation`. -/
def shownConfirmation (payment : Payment) : Option ShownConfirmation :=
  (nonEmpty payment.confirmation_hash).map fun block_hash =>
    { block_hash, block_height := payment.confirmation_height.getD 0,
      chain := orElse payment.chain payment.currency, timestamp := payment.createdAt }

/-- `show`: the payment of the invoice the path names. -/
def paymentShow (_ : Account) (invoice_uid : String) :
    Task (Payment × Option ShownConfirmation) := do
  let payment ← prisma.payments.findFirstOrThrow fun r => r.invoice_uid == invoice_uid
  pure (payment, shownConfirmation payment)

/-! ## server/v1/handlers/linked_account_payments.ts -/

/-- `getLink({ source, target })`. -/
def getLink (source target : Int) : Task (Option LinkedAccount) :=
  prisma.linkedAccounts.findFirst fun r => r.source == source && r.target == target

/-- The id in the path, which Prisma takes as an integer only. -/
def accountId : Json → Except Failure Int
  | .num q => if q.den = 1 then .ok q.num else .error (.invalidValue "LinkedAccounts")
  | _ => .error (.invalidValue "LinkedAccounts")

/-- `index`: the request goes on as the source account's. -/
def linkedAccountPaymentsIndex (account : Account) (account_id : Json)
    (limit offset : Option Json) : Task (List ListedPayment) :=
  Proc.tryCatch (do
    let source ← Proc.ofExcept (accountId account_id)
    match ← getLink source account.id with
    | none => reject "unauthorized"
    | some _ => do
        let account ← prisma.accounts.findFirstOrThrow fun r => (r.id : Int) == source
        paymentsIndex account limit offset) fun _ => reject "unauthorized"

/-! ## server/v1/handlers/invoice_events.ts and refunds.ts -/

/-- `ensureInvoice(uid)`. -/
def ensureInvoice (uid : String) : Task Invoice :=
  prisma.invoices.findFirstOrThrow fun r => r.uid == uid

/-- `listInvoiceEvents(invoice)`. -/
def listInvoiceEvents (invoice : Invoice) : Task (List EventRecord) :=
  Proc.query fun _ w => .ok (newestFirst EventRecord.createdAt
    (w.events.select fun r => r.invoice_uid == some invoice.uid))

/-- `index` of the invoice's events. -/
def invoiceEventsIndex (account : Account) (invoice_uid : String) :
    Task (String × List EventRecord) := do
  let invoice ← ensureInvoice invoice_uid
  if invoice.account_id ≠ some (account.id : Int) then reject "unauthorized"
  else do
    let events ← listInvoiceEvents invoice
    pure (invoice_uid, events)

/-- The body of `show` of a refund. -/
structure ShownRefund where
  refund : Refund
  original_invoice : Invoice
  refund_invoice : Invoice

/-- `show` of the invoice's refund, which is made where there is none. -/
def refundShow (env : Env) (account : Account) (invoice_uid : String) : Task ShownRefund := do
  let invoice ← ensureInvoice invoice_uid
  if invoice.account_id ≠ some (account.id : Int) then reject "unauthorized"
  else do
    let refund ← getRefund env invoice none
    let refund_invoice ← ensureInvoice refund.refund_invoice_uid
    pure { refund, original_invoice := invoice, refund_invoice }

/-! ## Requests -/

/-- A request to one of the six. -/
inductive Request where
  | invoices (query : String → List String)
  | payments (limit offset : Option Json)
  | payment (invoice_uid : String)
  | linkedAccountPayments (account_id : Json) (limit offset : Option Json)
  | invoiceEvents (invoice_uid : String)
  | refund (invoice_uid : String)

/-- The row of a body. -/
inductive Row where
  | invoice (r : Invoice)
  | payment (r : Payment)
  | refund (r : Refund)
  | event (r : EventRecord)

/-- The rows in the list of payments. -/
def ListedPayment.rows (entry : ListedPayment) : List Row :=
  [.payment entry.payment, .invoice entry.invoice]

def ShownRefund.rows (shown : ShownRefund) : List Row :=
  [.refund shown.refund, .invoice shown.original_invoice, .invoice shown.refund_invoice]

/-- The rows in the body of the response. -/
def respond (env : Env) (toDate : Json → Option Time) (account : Account) :
    Request → Task (List Row)
  | .invoices query => do
      let invoices ← invoicesIndex toDate account query
      pure (invoices.map .invoice)
  | .payments limit offset => do
      let payments ← paymentsIndex account limit offset
      pure (payments.flatMap ListedPayment.rows)
  | .payment invoice_uid => do
      let response ← paymentShow account invoice_uid
      pure [.payment response.1]
  | .linkedAccountPayments account_id limit offset => do
      let payments ← linkedAccountPaymentsIndex account account_id limit offset
      pure (payments.flatMap ListedPayment.rows)
  | .invoiceEvents invoice_uid => do
      let response ← invoiceEventsIndex account invoice_uid
      pure (response.2.map .event)
  | .refund invoice_uid => do
      let shown ← refundShow env account invoice_uid
      pure shown.rows

end AccountReads

end Anypay
