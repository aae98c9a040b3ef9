/-
Anypay.OptionTotals — the amount of a payment option beside the outputs it is
the amount of (`lib/invoice.ts`, `lib/payment_options.ts`, `getPaymentOptions`
of `server/v1/handlers/invoices.ts`).

The v1 API reports the column `amount` of an option; the payment protocols ask
for its `outputs`. Three functions write the two: they are the calls of this
machine, which runs them one after the other, to their ends or to an error.
Between them anything else may happen that is no business of theirs: prices
change, invoices and payment requests come, accounts get addresses.
-/
import Anypay.Async.Machine
import Anypay.PaymentRequests

namespace Anypay

open Async Proc

namespace OptionTotals

/-- What the v1 API says of an option. -/
structure Reported where
  uri : Option String
  currency : String
  amount : Option Rat

/-- `getPaymentOptions(invoice)` of the v1 invoice handlers. -/
def getPaymentOptions (invoice : Invoice) : Task (List Reported) := do
  let payment_options ← prisma.payment_options.findMany fun r => r.invoice_uid == invoice.uid
  pure (payment_options.map fun option =>
    { uri := option.uri, currency := option.currency, amount := option.amount })

/-- The calls that write payment options. -/
inductive Call where
  | createPaymentOptions (account : Json) (invoice : Invoice)
  | paymentRequestToPaymentOptions (paymentRequest : PaymentRequest)
  | refreshInvoice (uid : String)

def call (env : Env) : Call → Task Unit
  | .createPaymentOptions account invoice => discard (createPaymentOptions env account invoice)
  | .paymentRequestToPaymentOptions paymentRequest =>
      discard (paymentRequestToPaymentOptions env paymentRequest)
  | .refreshInvoice uid => discard (refreshInvoice env uid)

/-- A call with what it finds out on its way, or anything else: a world with the
same options. -/
inductive Event where
  | run (x : Call) (o : Nat → Answer)
  | elsewhere (w : World)

def step (env : Env) (w : World) : Event → Option World
  | .run x o => some ((call env x).exec o w).2
  | .elsewhere w' => some { w' with paymentOptions := w.paymentOptions }

end OptionTotals

end Anypay
