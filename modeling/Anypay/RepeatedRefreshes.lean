/-
Anypay.RepeatedRefreshes — `refreshInvoice` with the choice of each row said.

A query without an order returns any matching row, which one the answer of its step
decides. `refreshInvoiceBy row` is `refreshInvoice` where `row` says how: from the
answer as before (`refreshInvoiceBy_row`), or from the filter alone, so that a
`findFirst` with the same filter returns the same row each time (`sameRows`).
-/
import Anypay.Invoices

namespace Anypay

open Store Async Proc

namespace Delegate

variable {α : Type} [Record α] (d : Delegate α)

/-- `findFirst` of the matching row that `row` says. -/
def findFirstBy (row : Answer → Nat) (where_ : α → Bool) : Task (Option α) :=
  Proc.query fun c w => .ok ((d.get w).pick where_ (row c))

/-- `findFirstOrThrow` of it. -/
def findFirstOrThrowBy (row : Answer → Nat) (where_ : α → Bool) : Task α :=
  Proc.query fun c w =>
    match (d.get w).pick where_ (row c) with
    | some r => .ok r
    | none => .error (.notFound d.model)

end Delegate

namespace RepeatedRefreshes

/-- The filters `refreshInvoice` looks for one row with. -/
inductive Lookup where
  | invoice (uid : String)
  | request (uid : String)
  | option (uid currency chain : String)
  | price (base_currency currency : String)

/-- The same filter, the same row. -/
def sameRows (rows : Lookup → Nat) : Lookup → Answer → Nat := fun lookup _ => rows lookup

variable (row : Lookup → Answer → Nat)

/-- `convertAt`. -/
def convertAtBy (inputAmount : Amount) (outputCurrency : String) : Task Amount := do
  match ← prisma.prices.findFirstBy (row (.price outputCurrency inputAmount.currency)) fun r =>
      r.base_currency == some outputCurrency && r.currency == inputAmount.currency with
  | some price =>
      pure { currency := outputCurrency,
             value := inputAmount.value.map fun v => dp 8 (v * price.value) }
  | none => do
      match ← prisma.prices.findFirstBy (row (.price inputAmount.currency outputCurrency)) fun r =>
          r.base_currency == some inputAmount.currency && r.currency == outputCurrency with
      | none => reject ("no price for " ++ inputAmount.currency ++ " to " ++ outputCurrency)
      | some inverse =>
          pure { currency := outputCurrency,
                 value := do
                   let price ← reciprocal inverse.value
                   let v ← inputAmount.value
                   pure (dp 8 (price * v)) }

/-- `convert`. -/
def convertBy (inputAmount : Amount) (outputCurrency : String) : Task Amount :=
  if inputAmount.currency ≠ "USD" ∧ outputCurrency ≠ "USD" then do
    let usd ← convertAtBy row inputAmount "USD"
    convertAtBy row usd outputCurrency
  else convertAtBy row inputAmount outputCurrency

/-- The output of an option for one destination of its template entry. -/
def refreshedOutputBy (env : Env) (option : PaymentOption) (destination : TemplateTo) :
    Task Output := do
  let conversion ← convertBy row
    { currency := destination.currency, value := destination.amount } option.currency
  let amount ← Proc.ofExcept (toSatoshis env conversion.value option.currency option.chain)
  pure { address := destination.address, amount }

/-- The body of the loop. -/
def refreshOptionBy (env : Env) (invoice : Invoice) (paymentRequest : PaymentRequest)
    (option : PaymentOption) : Task Unit :=
  match templateOf paymentRequest.template option with
  | none => pure ()
  | some template => do
      let outputs ← mapAll template.to_ (refreshedOutputBy row env option)
      let record ← prisma.payment_options.findFirstOrThrowBy
        (row (.option invoice.uid option.currency option.chain)) fun r =>
          r.invoice_uid == invoice.uid && r.currency == option.currency &&
            r.chain == option.chain
      let _ ← prisma.payment_options.update record.id
        (fun _ r => { r with outputs := some outputs }) (PaymentOption.refreshed_id outputs)

/-- `refreshInvoice(uid)`. -/
def refreshInvoiceBy (env : Env) (uid : String) : Task Invoice := do
  let invoice ← prisma.invoices.findFirstOrThrowBy (row (.invoice uid)) fun r => r.uid == uid
  let paymentOptions ← prisma.payment_options.findMany fun r => r.invoice_uid == uid
  let paymentRequest ← prisma.paymentRequests.findFirstOrThrowBy (row (.request uid)) fun r =>
    r.invoice_uid == some uid
  forEach paymentOptions (refreshOptionBy row env invoice paymentRequest)
  let _ ← prisma.invoices.update invoice.id
    (fun now r => { r with expiry := some (now + fifteenMinutes) }) Invoice.refreshed_id
  pure invoice

/-- Where the answer decides, it is `refreshInvoice`. -/
theorem refreshInvoiceBy_row (env : Env) (uid : String) :
    refreshInvoiceBy (fun _ c => c.row) env uid = refreshInvoice env uid := rfl

end RepeatedRefreshes

end Anypay
