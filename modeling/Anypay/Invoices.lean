/-
Anypay.Invoices — the life of an invoice before and beside its payment:
`lib/invoices.ts`, `lib/invoice.ts` and the handlers of
`server/v0/handlers/invoices.ts`.

`createInvoice` takes its parameters as the handlers build them, a JSON object
with the request's payload spread over the account, so what it reads of the
account it reads as JSON too. For each address it makes a payment option, then a
payment request whose template repeats the options. `refreshInvoice` computes
the outputs of the options again from that template. `cancelInvoice` ends an
invoice.

The addresses of one invoice are worked on in the order they are listed.
-/
import Anypay.Db.Columns
import Anypay.Pay
import Anypay.Prices

namespace Anypay

open Async Proc Store

/-! ## Payment options -/

/-- `protocols` of `lib/uri.ts`. -/
def protocols : List (String × String) := [
  ("DASH", "dash"), ("ZEC", "zcash"), ("BTC", "bitcoin"), ("LTC", "litecoin"),
  ("ETH", "ethereum"), ("XMR", "monero"), ("DOGE", "dogecoin"), ("BCH", "bitcoincash"),
  ("XRP", "ripple"), ("ZEN", "horizen"), ("SMART", "smartcash"), ("RVN", "ravencoin"),
  ("BSV", "pay")]

/-- `computeInvoiceURI({ currency, uid })`. -/
def computeInvoiceURI (env : Env) (currency uid : String) : String :=
  (protocols.lookup currency).getD "pay" ++ ":?r=" ++ env.apiBase ++ "/r/" ++ uid

/-- `getCoin(currency)`. -/
def getCoin (env : Env) (currency : String) : Option Coin :=
  env.coins.find? fun coin => coin.code == currency

/-- A currency there is a coin for that is not unavailable. -/
def available (env : Env) (currency : String) : Bool :=
  match getCoin env currency with
  | none => false
  | some coin => !coin.unavailable

/-- An address without a chain gets its currency for one, and the other way
round. -/
def fillChain (address : Address) : Address :=
  let chain := orElse (some address.chain) address.currency
  { address with chain, currency := orElse (some address.currency) chain }

/-- `listAvailableAddresses(account)`. -/
def listAvailableAddresses (env : Env) (account : Json) : Task (List Address) := do
  let isAccount ← Proc.ofExcept (whereInt "addresses" (account.get "id"))
  let addresses ← prisma.addresses.findMany fun r => isAccount r.account_id
  pure ((addresses.filter fun address => available env address.currency).map fillChain)

/-- `getNewAddress({ address, account, chain, currency })`: the address itself,
for every plugin. -/
def getNewAddress (env : Env) (address : Address) : Except Failure (Option String) :=
  (find env address.currency address.chain).map fun _ => address.value

/-- The option that asks for this much at this address. An amount that is no
number is refused by its column. -/
def storeOption (env : Env) (invoice : Invoice) (record : Address) (address : String)
    (paymentAmount : Option Int) : Task PaymentOption :=
  match paymentAmount with
  | none => throw (.invalidValue "payment_options")
  | some amount =>
      prisma.payment_options.create fun now id =>
        { id, invoice_uid := invoice.uid, currency := record.currency, chain := record.chain,
          amount := some amount, address := some address,
          outputs := some [{ address, amount := some amount }],
          uri := some (computeInvoiceURI env record.currency invoice.uid),
          createdAt := now, updatedAt := now }

/-- `String(account.denomination || 'USD')`. -/
def denominationOf (account : Json) : Except Failure String :=
  ((Json.or (account.get "denomination") (some (.str "USD"))).getD .null).text

/-- The option made of one address; none where the address is empty. -/
def paymentOptionFor (env : Env) (account : Json) (invoice : Invoice) (record : Address) :
    Task (Option PaymentOption) := do
  let currency ← Proc.ofExcept (denominationOf account)
  let conversion ← convert { currency, value := some (invoice.amount.getD 0) } record.currency
  let address ← Proc.ofExcept (getNewAddress env record)
  match nonEmpty address with
  | none => pure none
  | some address => do
      let paymentAmount ← Proc.ofExcept
        (toSatoshis env conversion.value record.currency record.chain)
      let option ← storeOption env invoice record (stripPrefix address) paymentAmount
      pure (some option)

/-- The body of `createPaymentOptions` for one address; an error is logged and
the address left out. -/
def createPaymentOption (env : Env) (account : Json) (invoice : Invoice)
    (record : Address) : Task (Option PaymentOption) :=
  (paymentOptionFor env account invoice record).tryCatch fun _ => pure none

/-- `createPaymentOptions(account, invoice)`. -/
def createPaymentOptions (env : Env) (account : Json) (invoice : Invoice) :
    Task (List PaymentOption) := do
  let addresses ← listAvailableAddresses env account
  let options ← mapAll addresses (createPaymentOption env account invoice)
  pure (options.filterMap id)

/-! ## createInvoice -/

/-- `params.account`; nothing can be read of undefined or null. -/
def accountOf (params : List (String × Json)) : Except Failure Json :=
  match Json.field "account" params with
  | none => .error .typeError
  | some .null => .error .typeError
  | some account => .ok account

/-- `params.currency || account.denomination || 'USD'`. -/
def chosenCurrency (account : Json) (params : List (String × Json)) : Option Json :=
  Json.or (Json.field "currency" params)
    (Json.or (account.get "denomination") (some (.str "USD")))

/-- `params.webhook_url`, or the account's where that is falsy and the account
has one. -/
def chosenWebhookUrl (account : Json) (params : List (String × Json)) : Option Json :=
  if !Json.truthy (Json.field "webhook_url" params) &&
      Json.truthy (account.get "webhook_url") then account.get "webhook_url"
  else Json.field "webhook_url" params

/-- `newInvoice`, its columns checked. -/
def newInvoice (env : Env) (account : Json) (params : List (String × Json)) (uid : String) :
    Except Failure Invoice := do
  let text := fun k => textColumn "invoices" (Json.field k params)
  let currency ← textColumn "invoices" (chosenCurrency account params)
  let amount ← decimalColumn "invoices" (Json.field "amount" params)
  let account_id ← intColumn "invoices" (account.get "id")
  let webhook_url ← textColumn "invoices" (chosenWebhookUrl account params)
  let redirect_url ← text "redirect_url"
  let external_id ← text "external_id"
  let business_id ← text "business_id"
  let location_id ← text "location_id"
  let register_id ← text "register_id"
  let memo ← text "memo"
  let wordpress_site_url ← text "wordpress_site_url"
  let fee_rate_level ← textColumnOr "invoices" (some "fastestFee")
    (Json.field "fee_rate_level" params)
  pure
    { id := 0, uid, status := .unpaid, currency, amount, account_id, webhook_url,
      redirect_url, external_id, business_id, location_id, register_id, memo,
      wordpress_site_url, fee_rate_level,
      uri := some (computeInvoiceURI env "ANYPAY" uid) }

/-- The template entry of an option: the invoice's amount, to its address. No
chain. -/
def templateFor (invoice : Invoice) (option : PaymentOption) : TemplateOption :=
  { currency := option.currency,
    to_ := [{ currency := nullText invoice.currency, amount := invoice.amount,
              address := nullText option.address }] }

/-- The event of a new invoice. -/
def invoiceCreated (invoice : Invoice) : Event :=
  { topic := "invoice.created",
    app_id := orUndefined invoice.app_id, account_id := orUndefined invoice.account_id,
    body := [("invoice", .obj [
      ("uid", .str invoice.uid), ("status", .str invoice.status.toString),
      ("quote", .obj [
        ("value", .num (invoice.amount.getD 0)),
        ("currency", .str (nullText invoice.currency))])])] }

theorem Invoice.created_id (data : Invoice) (now : Time) (id : Nat) :
    Record.id { data with id, createdAt := now, updatedAt := now } = id := rfl

/-- `createInvoice(params)`. -/
def createInvoice (env : Env) (params : List (String × Json)) : Task Invoice := do
  let uid ← ask fun c => .ok c.shortid
  let account ← Proc.ofExcept (accountOf params)
  let data ← Proc.ofExcept (newInvoice env account params uid)
  let invoice ← prisma.invoices.create (fun now id =>
    { data with id, createdAt := now, updatedAt := now }) (Invoice.created_id data)
  spawn (.createWebhookForInvoice invoice)
  let paymentOptions ← createPaymentOptions env account invoice
  let _ ← prisma.paymentRequests.create fun now id =>
    { id, app_id := 1, template := paymentOptions.map (templateFor invoice),
      status := some "unpaid", invoice_uid := some invoice.uid,
      createdAt := now, updatedAt := now }
  detached (publishEvent "invoice.created" (invoiceCreated invoice))
  pure invoice

/-- The payload schema of `POST /invoices` and of `POST /api/v1/invoices`. -/
def CreateInvoiceRequest : Schema :=
  .object [
    ("amount", false, .numeric),
    ("currency", true, .nonEmpty),
    ("redirect_url", true, .string none),
    ("webhook_url", true, .string none),
    ("wordpress_site_url", true, .string none),
    ("memo", true, .string none),
    ("email", true, .string none),
    ("external_id", true, .string none),
    ("business_id", true, .string none),
    ("location_id", true, .string none),
    ("register_id", true, .string none),
    ("required_fee_rate", true, .nonEmpty)]

/-- The payload as the handler finds it: with `failAction: 'log'` an invalid one
comes as it was sent, a valid one without its unknown keys. -/
def received (payload : Json) : Json := (CreateInvoiceRequest.parse payload).getD payload

/-- `{ account, ...request.payload }`. -/
def createParams (account : Account) (payload : Json) : List (String × Json) :=
  Json.spread [("account", account.toJson)] (some (received payload))

/-- `create` of the v0 invoice handlers. -/
def create (env : Env) (account : Account) (payload : Json) :
    Task (Invoice × List JsonV2PaymentRequest) := do
  let invoice ← createInvoice env (createParams account payload)
  let payment_options ← getPaymentOptions env invoice.uid
  pure (invoice, payment_options)

/-- A payment option in the response of `createDeprecated`. -/
structure DeprecatedOption where
  uri : String
  chain : String
  currency : String
  amount : Int

/-- `createDeprecated` of the v0 invoice handlers. -/
def createDeprecated (env : Env) (account : Account) (payload : Json) :
    Task (Invoice × List DeprecatedOption) := do
  let invoice ← createInvoice env (createParams account payload)
  let payment_options ← getPaymentOptions env invoice.uid
  pure (invoice, payment_options.map fun option =>
    { uri := computeInvoiceURI env option.chain invoice.uid,
      chain := option.chain, currency := option.currency,
      amount := (option.outputs.map fun output => output.amount.getD 0).sum })

/-! ## refreshInvoice -/

/-- The first entry of the template for the option's currency, and for its chain
where the entry names one. -/
def templateOf (template : List TemplateOption) (option : PaymentOption) :
    Option TemplateOption :=
  template.find? fun entry =>
    entry.currency == option.currency &&
      ((nonEmpty entry.chain).isNone || entry.chain == some option.chain)

/-- The output of an option for one destination of its template entry. -/
def refreshedOutput (env : Env) (option : PaymentOption) (destination : TemplateTo) :
    Task Output := do
  let conversion ← convert
    { currency := destination.currency, value := destination.amount } option.currency
  let amount ← Proc.ofExcept (toSatoshis env conversion.value option.currency option.chain)
  pure { address := destination.address, amount }

theorem PaymentOption.refreshed_id (outputs : List Output) (_ : Time) (r : PaymentOption) :
    Record.id { r with outputs := some outputs } = Record.id r := rfl

theorem Invoice.refreshed_id (now : Time) (r : Invoice) :
    Record.id { r with expiry := some (now + fifteenMinutes) } = Record.id r := rfl

/-- The body of the loop of `refreshInvoice`. -/
def refreshOption (env : Env) (invoice : Invoice) (paymentRequest : PaymentRequest)
    (option : PaymentOption) : Task Unit :=
  match templateOf paymentRequest.template option with
  | none => pure ()
  | some template => do
      let outputs ← mapAll template.to_ (refreshedOutput env option)
      let record ← prisma.payment_options.findFirstOrThrow fun r =>
        r.invoice_uid == invoice.uid && r.currency == option.currency &&
          r.chain == option.chain
      let _ ← prisma.payment_options.update record.id
        (fun _ r => { r with outputs := some outputs }) (PaymentOption.refreshed_id outputs)

/-- `refreshInvoice(uid)`. -/
def refreshInvoice (env : Env) (uid : String) : Task Invoice := do
  let invoice ← prisma.invoices.findFirstOrThrow fun r => r.uid == uid
  let paymentOptions ← prisma.payment_options.findMany fun r => r.invoice_uid == uid
  let paymentRequest ← prisma.paymentRequests.findFirstOrThrow fun r =>
    r.invoice_uid == some uid
  forEach paymentOptions (refreshOption env invoice paymentRequest)
  let _ ← prisma.invoices.update invoice.id
    (fun now r => { r with expiry := some (now + fifteenMinutes) }) Invoice.refreshed_id
  pure invoice

/-! ## cancelInvoice -/

/-- `cancelInvoice(invoice)`; the invoice is the caller's copy. -/
def cancelInvoice (invoice : Invoice) : Task Invoice :=
  if invoice.status ≠ .unpaid then reject "can only cancel unpaid invoices"
  else do
    let _ ← prisma.invoices.update invoice.id fun _ r =>
      { r with status := .cancelled, cancelled := true }
    let invoice ← prisma.invoices.findFirstOrThrow fun r => r.uid == invoice.uid
    detached (publishEvent "invoice.cancelled"
      { topic := "invoice.cancelled",
        app_id := orUndefined invoice.app_id, account_id := orUndefined invoice.account_id,
        body := [("invoice", .obj [
          ("uid", .str invoice.uid), ("status", .str invoice.status.toString)])] })
    pure invoice

/-- `cancel` of the v0 invoice handlers. -/
def cancelRequest (uid : String) (account_id : Int) : Task Unit := do
  match ← prisma.invoices.findFirst fun r =>
      r.uid == uid && r.account_id == some account_id with
  | none => throw (.notFound "invoices")
  | some invoice =>
      if invoice.cancelled = true then reject "invoice already cancelled"
      else do
        let _ ← cancelInvoice invoice

end Anypay
