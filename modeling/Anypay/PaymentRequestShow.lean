/-
Anypay.PaymentRequestShow — a payment request as a wallet fetches it (`show` of
`server/payment_requests/handlers/payment_requests.ts`).

The handler refreshes an unpaid invoice that has expired, as the v0 API does, and
then answers what the `accept` header asks for. The currency a protocol's handler
takes from the headers is given with the protocol. `detectWallet` only logs here; the
record of a BIP70 request is not awaited and read by no function here.
-/
import Anypay.InvoiceShow
import Anypay.PaymentProtocols

namespace Anypay

open Async Proc

namespace PaymentRequestShow

/-- What the `accept` header asks for; BIP270 is asked for in BSV. -/
inductive Accept where
  | paymentOptions
  | content (protocol : Protocol) (currency : String)

inductive Body where
  | paymentOptions (options : PaymentOptions)
  | content (content : Content)

/-- `listPaymentOptions` of `server/jsonV2/handlers/protocol.ts`. -/
def listOptions (env : Env) (uid : String) : Task PaymentOptions := do
  let invoice ← ensurePayable uid
  listPaymentOptions env invoice

def respond (env : Env) (scripts : Scripts) (uid : String) : Accept → Task Body
  | .paymentOptions => do
      let options ← listOptions env uid
      pure (.paymentOptions options)
  | .content protocol currency => do
      let content ← buildPaymentRequestForInvoice env scripts uid currency protocol
      pure (.content content)

/-- `show`; an error response counts as thrown. -/
def showPaymentRequest (env : Env) (scripts : Scripts) (uid : String) (accept : Accept) :
    Task Body := do
  let invoice ← prisma.invoices.findFirstOrThrow fun r => r.uid == uid
  if invoice.cancelled = true then reject "invoice cancelled"
  else do
    let now ← ask fun c => .ok c.now
    if invoice.status = .unpaid ∧ isExpired invoice now = true then do
      let _ ← refreshInvoice env invoice.uid
      respond env scripts uid accept
    else respond env scripts uid accept

end PaymentRequestShow

end Anypay
