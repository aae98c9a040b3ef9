/-
Anypay.Unsigned — the check a wallet asks for before it signs.

`verifyUnsigned` of `lib/pay/json_v2/protocol.ts` hands the WHOLE list of
transactions to the plugin's `validateUnsignedTx`, where a submission hands them
one by one to its `verifyPayment`. Every plugin has that function, from the base
class where it has none of its own, so the loop over `verifyPayment` that follows
is never reached.
-/
import Anypay.Chains.Registry

namespace Anypay

open Async Proc

/-- `plugin.validateUnsignedTx({ paymentOption, transactions })`: BTC, FB, BCH,
SOL and XMR have one of their own, the rest inherit that of the base class, also
the chains without a bitcore library. -/
def Plugin.checkUnsigned (plugin : Plugin) (libraries : ChainLibraries)
    (option : PaymentOption) (transactions : List Transaction) : Except Failure Bool :=
  match plugin.currency, plugin.chain with
  | "BTC", "BTC" => BTC.validateUnsignedTx libraries.bitcoinjs option transactions
  | "FB", "FB" => FB.validateUnsignedTx libraries.bitcoinjs option transactions
  | "BCH", "BCH" => BCH.validateUnsignedTx plugin option transactions
  | "SOL", "SOL" => .error (.error "")
  | "XMR", "XMR" => .ok true
  | _, _ => plugin.validateUnsignedTx option transactions

/-- `String(payment.chain)`. -/
def chainText (chain : Option String) : String := chain.getD "undefined"

/-- `verifyUnsigned(payment)`; the result is the list of raw transactions. -/
def verifyUnsigned (env : Env) (libraries : ChainLibraries) (payment : SubmitPaymentRequest) :
    Task (List String) := do
  let chain := chainText payment.chain
  let invoice ← prisma.invoices.findFirstOrThrow fun r => r.uid == payment.invoice_uid
  if invoice.cancelled = true then reject "payment.error.invoice.cancelled"
  else do
    let option ← prisma.payment_options.findFirstOrThrow fun r =>
      r.invoice_uid == invoice.uid && r.currency == payment.currency && r.chain == chain
    let plugin ← Proc.ofExcept (find env payment.currency chain)
    let valid ← Proc.ofExcept (plugin.checkUnsigned libraries option payment.transactions)
    if valid = true then pure (payment.transactions.map Transaction.txhex)
    else reject "Invalid unsigned transaction"

end Anypay
