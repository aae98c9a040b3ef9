/-
Anypay.PaymentRequests — payment requests made from a template
(`lib/payment_requests.ts`, `createEmptyInvoice` of `lib/invoice.ts`,
`lib/payment_options.ts`).

A platform sends a template: for each currency it accepts, what has to be paid
to whom, in some currency of account. `createPaymentRequest` stores it, makes an
invoice for it and a payment option for each entry. The invoice's columns come
from an object literal that spreads the request's `options` over the computed
values, so an option may name ANY parameter of `createEmptyInvoice`, the uid
included.

The template is checked by the schema of the `anypay` package, a parameter of
`Env`.
-/
import Anypay.Invoices

namespace Anypay

open Async Proc

/-! ## The template's currency and amount -/

/-- `x === y`; two objects that were parsed apart are never the same. -/
def strictEq : Option Json → Option Json → Bool
  | none, none => true
  | some .null, some .null => true
  | some (.bool a), some (.bool b) => a == b
  | some (.num a), some (.num b) => a == b
  | some (.str a), some (.str b) => a == b
  | _, _ => false

/-- `for (let x of value)`: an array or a text. -/
def elements : Option Json → Except Failure (List Json)
  | some (.arr xs) => .ok xs
  | some (.str s) => .ok (s.toList.map fun c => .str c.toString)
  | _ => .error .typeError

/-- `new BigNumber(x)`; none is NaN. -/
def bigNumber : Option Json → Except Failure (Option Rat)
  | none => .ok none
  | some (.num q) => .ok (some q)
  | some x => x.text.map fun s => signed decimal s.toList

/-- A property of a value that may be null. -/
def property (k : String) : Json → Except Failure (Option Json)
  | .null => .error .typeError
  | x => .ok (x.get k)

/-- The body of the inner loop: as long as the currency is falsy, the next one is
taken and the amount added. -/
def consistentWith (found : Option Json × Option Rat) (to_ : Json) :
    Except Failure (Option Json × Option Rat) := do
  let currency ← property "currency" to_
  if Json.truthy found.1 then
    if strictEq found.1 currency then .ok found
    else .error (.error "all template options to.currency must equal the same value")
  else do
    let amount ← bigNumber (to_.get "amount")
    .ok (currency, found.2.bind fun sum => amount.map fun n => sum + n)

/-- The body of the outer loop. -/
def consistentOption (found : Option Json × Option Rat) (option : Json) :
    Except Failure (Option Json × Option Rat) := do
  let to_ ← property "to" option
  let tos ← elements to_
  tos.foldlM consistentWith found

/-- `ensureConsistentCurrencyAmount(template)`: the currency, which may be
undefined, and the amount of the FIRST `to` that has one. -/
def ensureConsistentCurrencyAmount (template : List Json) :
    Except Failure (Option Json × Option Rat) :=
  template.foldlM consistentOption (none, some 0)

/-! ## The invoice -/

/-- A `VarChar(255)` that is not nullable. -/
def requiredText (model : String) : Option Json → Except Failure String
  | some (.str s) => if s.length ≤ 255 then .ok s else .error (.invalidValue model)
  | _ => .error (.invalidValue model)

/-- The invoice's data, its columns checked. -/
def emptyInvoice (env : Env) (app_id : Int) (app : App) (uid : Json)
    (options : List (String × Json)) : Except Failure Invoice := do
  let uid ← requiredText "invoices" (some uid)
  let text := fun k => textColumn "invoices" (Json.field k options)
  let uri ← textColumn "invoices" (some (.str (computeInvoiceURI env "ANYPAY" uid)))
  let currency ← text "currency"
  let amount ← decimalColumn "invoices" (Json.field "amount" options)
  let webhook_url ← text "webhook_url"
  let memo ← text "memo"
  let secret ← text "secret"
  let metadata ← jsonColumn "invoices" (Json.field "metadata" options)
  let redirect_url ← text "redirect_url"
  let fee_rate_level ← textColumnOr "invoices" (some "fastestFee")
    (Json.field "fee_rate_level" options)
  pure
    { id := 0, uid, status := .unpaid, app_id := some app_id, account_id := some app.account_id,
      uri, currency, amount, webhook_url, memo, secret, metadata, redirect_url,
      fee_rate_level }

/-- `!!uid ? uid : shortid.generate()`. -/
def chooseUid (options : List (String × Json)) : Task Json :=
  if Json.truthy (Json.field "uid" options) then pure ((Json.field "uid" options).getD .null)
  else ask fun c => .ok (.str c.shortid)

/-- `createEmptyInvoice(app_id, options)`. -/
def createEmptyInvoice (env : Env) (app_id : Int) (options : List (String × Json)) :
    Task Invoice := do
  let uid ← chooseUid options
  let app ← prisma.apps.findFirstOrThrow fun r => (r.id : Int) == app_id
  let data ← Proc.ofExcept (emptyInvoice env app_id app uid options)
  prisma.invoices.create (fun now id => { data with id, createdAt := now, updatedAt := now })
    (Invoice.created_id data)

/-! ## The payment options -/

/-- One output of a template entry. -/
def templateOutput (env : Env) (option : TemplateOption) (to_ : TemplateTo) : Task Output := do
  let chain := orElse option.chain option.currency
  let conversion ← convert { currency := to_.currency, value := to_.amount } option.currency
  let amount ← Proc.ofExcept (toSatoshis env conversion.value option.currency chain)
  pure { address := to_.address, amount }

/-- The option of a template entry. -/
def templateToOption (env : Env) (uid : String) (option : TemplateOption) :
    Task PaymentOption := do
  let outputs ← mapAll option.to_ (templateOutput env option)
  let coin := getCoin env option.currency
  pure
    { id := 0, invoice_uid := uid, currency := option.currency,
      chain := orElse option.chain option.currency, outputs := some outputs,
      currency_name := coin.map Coin.name, currency_logo_url := coin.bind Coin.logo_url,
      uri := some (computeInvoiceURI env option.currency uid) }

/-- `prisma.payment_options.create({ data })`, the columns checked. -/
def storeTemplateOption (option : PaymentOption) : Task PaymentOption :=
  if option.currency.length ≤ 255 ∧ option.chain.length ≤ 255 then
    prisma.payment_options.create fun now id =>
      { option with id, createdAt := now, updatedAt := now }
  else throw (.invalidValue "payment_options")

/-- What became of a promise. -/
def outcomeOf {α : Type} (p : Task α) : Task (Except Failure α) :=
  (p.bind fun a => pure (.ok a)).tryCatch fun e => pure (.error e)

/-- `paymentRequestToPaymentOptions(paymentRequest)`. The rows are created side by
side: where one is refused the others are made all the same. -/
def paymentRequestToPaymentOptions (env : Env) (paymentRequest : PaymentRequest) :
    Task (List PaymentOption) := do
  let options ← mapAll paymentRequest.template
    (templateToOption env (nullText paymentRequest.invoice_uid))
  let created ← mapAll options fun option => outcomeOf (storeTemplateOption option)
  Proc.ofExcept (created.mapM id)

/-! ## createPaymentRequest -/

/-- A nullable column of an update: `undefined` leaves it as it is. -/
def updated {α : Type} (column : Option Json → Except Failure (Option α)) (x : Option Json) :
    Except Failure (Option α → Option α) :=
  if x.isNone then .ok id else (column x).map fun v _ => v

/-- What the request's `options` make of the invoice's columns. -/
structure OptionsUpdate where
  webhook_url : Option String → Option String
  redirect_url : Option String → Option String
  secret : Option String → Option String
  metadata : Option Json → Option Json
  fee_rate_level : Option String → Option String

def OptionsUpdate.apply (change : OptionsUpdate) (r : Invoice) : Invoice :=
  { r with
    webhook_url := change.webhook_url r.webhook_url,
    redirect_url := change.redirect_url r.redirect_url, secret := change.secret r.secret,
    metadata := change.metadata r.metadata,
    fee_rate_level := change.fee_rate_level r.fee_rate_level }

def optionsUpdate (options : Json) : Except Failure OptionsUpdate := do
  let text := fun k => updated (textColumn "invoices") (options.get k)
  let webhook_url ← text "webhook_url"
  let redirect_url ← text "redirect_url"
  let secret ← text "secret"
  let metadata ← updated (jsonColumn "invoices") (options.get "metadata")
  let fee_rate_level ← text "fee_rate_level"
  pure { webhook_url, redirect_url, secret, metadata, fee_rate_level }

/-- `if (options) { await prisma.invoices.update(…) }`. -/
def updateFromOptions (invoice : Invoice) (options : Json) : Task Unit :=
  if Json.truthy (some options) then do
    let change ← Proc.ofExcept (optionsUpdate options)
    let _ ← prisma.invoices.update invoice.id fun _ r => change.apply r
  else pure ()

/-- The number an object literal holds. NaN is written as the text no decimal
column takes, which is what becomes of it. -/
def orNaN : Option Rat → Json
  | some q => .num q
  | none => .str "NaN"

/-- `{ currency, amount, ...options }`. -/
def emptyInvoiceOptions (currency : Option Json) (amount : Option Rat) (options : Json) :
    List (String × Json) :=
  Json.spread ((currency.toList.map fun c => ("currency", c)) ++ [("amount", orNaN amount)])
    (some options)

/-- `createPaymentRequest(app_id, template, options)`. What it assigns to
`invoice.currency` of its copy is never read. -/
def createPaymentRequest (env : Env) (app_id : Int) (template : List Json)
    (options : Option Json) : Task PaymentRequest := do
  let options := options.getD (.obj [])
  let (currency, amount) ← Proc.ofExcept (ensureConsistentCurrencyAmount template)
  match env.paymentRequestTemplate template with
  | none => reject "ValidationError"
  | some entries => do
      let paymentRequest ← prisma.paymentRequests.create fun now id =>
        { id, app_id, template := entries, createdAt := now, updatedAt := now }
      let invoice ← createEmptyInvoice env app_id
        (emptyInvoiceOptions currency amount options)
      updateFromOptions invoice options
      let webpage_url ← Proc.ofExcept (requiredText "PaymentRequests"
        (some (.str ("https://anypayx.com/i/" ++ invoice.uid))))
      let _ ← prisma.paymentRequests.update paymentRequest.id fun now r =>
        { r with invoice_uid := some invoice.uid, uri := invoice.uri,
                 webpage_url := some webpage_url, status := some "unpaid", updatedAt := now }
      let paymentRequest ← prisma.paymentRequests.findFirstOrThrow fun r =>
        r.id == paymentRequest.id
      let _ ← paymentRequestToPaymentOptions env paymentRequest
      pure paymentRequest

end Anypay
