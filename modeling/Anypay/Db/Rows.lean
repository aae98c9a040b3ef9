/-
Anypay.Db.Rows — the rows of the database tables the server works on.

Each structure is one model of the Prisma schema, with the columns some
modelled function reads or writes, under the column's own name and with its
default. Nullable columns are `Option`s, except the booleans `complete` and
`cancelled`, which default to false, are never written null and are only ever
tested. Amounts are exact decimals (`Rat`); a moment is a number of
milliseconds. `invoices.hash` (`unique_invoice_hash_constraint`) and
`accounts.email` are the unique columns besides the ids.

`toJson` is what `JSON.stringify` makes of a row where one is sent out.
-/
import Anypay.Store.Table
import Anypay.Json.Number

namespace Anypay

open Store

/-- A `timestamptz`. -/
abbrev Time := Nat

/-! ## Invoices and payments -/

inductive InvoiceStatus where
  | unpaid
  | confirming
  | paid
  | cancelled
  deriving DecidableEq, Repr

def InvoiceStatus.toString : InvoiceStatus → String
  | unpaid => "unpaid"
  | confirming => "confirming"
  | paid => "paid"
  | cancelled => "cancelled"

inductive PaymentStatus where
  | confirming
  | confirmed
  | failed
  deriving DecidableEq, Repr

def PaymentStatus.toString : PaymentStatus → String
  | confirming => "confirming"
  | confirmed => "confirmed"
  | failed => "failed"

/-- `model invoices`. -/
structure Invoice where
  id : Nat
  uid : String
  amount : Option Rat := none
  address : Option String := none
  account_id : Option Int := none
  hash : Option String := none
  status : InvoiceStatus
  createdAt : Time := 0
  updatedAt : Time := 0
  paidAt : Option Time := none
  currency : Option String := none
  redirect_url : Option String := none
  webhook_url : Option String := none
  complete : Bool := false
  completed_at : Option Time := none
  external_id : Option String := none
  expiry : Option Time := none
  uri : Option String := none
  secret : Option String := none
  metadata : Option Json := none
  app_id : Option Int := none
  wordpress_site_url : Option String := none
  email : Option String := none
  cancelled : Bool := false
  business_id : Option String := none
  location_id : Option String := none
  register_id : Option String := none
  memo : Option String := none
  fee_rate_level : Option String := some "fastestFee"

instance : Record Invoice where
  id := Invoice.id
  key := Invoice.hash

/-- `model payments`. -/
structure Payment where
  id : Nat
  txid : String
  txhex : Option String := none
  txjson : Option Json := none
  currency : String
  invoice_uid : String
  payment_option_id : Option Nat := none
  createdAt : Time := 0
  updatedAt : Time := 0
  wallet : Option String := none
  account_id : Option Int := none
  confirmation_date : Option Time := none
  confirmation_hash : Option String := none
  confirmation_height : Option Nat := none
  tx_key : Option String := none
  status : PaymentStatus := .confirming
  chain : Option String := none

instance : Record Payment where
  id := Payment.id

/-- What a payment has to pay, to one address, in base units. An amount that is
no number is stored as null. Nothing in the program writes a `script`, the
verification reads it before the address. -/
structure Output where
  address : String
  amount : Option Int
  script : Option String := none
  deriving DecidableEq, Repr

/-- `model payment_options`. -/
structure PaymentOption where
  id : Nat
  invoice_uid : String
  currency : String
  chain : String
  amount : Option Rat := none
  address : Option String := none
  uri : Option String := none
  outputs : Option (List Output) := none
  currency_name : Option String := none
  currency_logo_url : Option String := none
  createdAt : Time := 0
  updatedAt : Time := 0

instance : Record PaymentOption where
  id := PaymentOption.id

/-- One `to` of a payment request template: an amount in some currency of
account, to be paid to an address. -/
structure TemplateTo where
  address : String
  currency : String
  amount : Option Rat
  deriving DecidableEq

/-- One entry of a payment request template. -/
structure TemplateOption where
  chain : Option String := none
  currency : String
  to_ : List TemplateTo
  deriving DecidableEq

/-- `model PaymentRequests`. -/
structure PaymentRequest where
  id : Nat
  invoice_uid : Option String := none
  template : List TemplateOption
  app_id : Int
  webpage_url : Option String := none
  uri : Option String := none
  status : Option String := none
  createdAt : Time := 0
  updatedAt : Time := 0

instance : Record PaymentRequest where
  id := PaymentRequest.id

/-- `model PaymentSubmissions`. -/
structure PaymentSubmission where
  id : Nat
  invoice_uid : Option String := none
  txhex : Option String := none
  currency : Option String := none
  protocol : Option String := none
  createdAt : Time := 0
  updatedAt : Time := 0

instance : Record PaymentSubmission where
  id := PaymentSubmission.id

/-- `model Refunds`. -/
structure Refund where
  id : Nat
  original_invoice_uid : String
  refund_invoice_uid : String
  address : String
  status : String := "unpaid"
  txid : Option String := none

instance : Record Refund where
  id := Refund.id

/-- `model EvmTransactionReceipts`. -/
structure EvmTransactionReceipt where
  id : Nat
  txid : Option String := none
  receipt : Option Json := none
  createdAt : Time := 0
  updatedAt : Time := 0

instance : Record EvmTransactionReceipt where
  id := EvmTransactionReceipt.id

/-! ## Webhooks -/

/-- `model Webhooks`. -/
structure Webhook where
  id : Nat
  type : Option String := none
  url : Option String := none
  ended_at : Option Time := none
  response_code : Option Nat := none
  response_body : Option String := none
  error : Option String := none
  invoice_uid : Option String := none
  status : Option String := some "pending"
  account_id : Option Int := none
  app_id : Option Int := none
  payload : Json := .obj []
  createdAt : Time := 0
  updatedAt : Time := 0

instance : Record Webhook where
  id := Webhook.id

/-- `model WebhookAttempts`. -/
structure WebhookAttempt where
  id : Nat
  webhook_id : Option Nat := none
  started_at : Option Time := none
  ended_at : Option Time := none
  response_code : Option Nat := none
  response_body : Option String := none
  error : Option String := none
  createdAt : Time := 0
  updatedAt : Time := 0

instance : Record WebhookAttempt where
  id := WebhookAttempt.id

/-- `model AppWebhooks`. The subscriber's id is a text column. -/
structure AppWebhook where
  id : Nat
  app_id : String
  url : String
  active : Bool := true
  topics : List String := []

instance : Record AppWebhook where
  id := AppWebhook.id

/-- `model AccountWebhooks`. The subscriber's id is a text column. -/
structure AccountWebhook where
  id : Nat
  account_id : String
  url : String
  active : Bool := true
  topics : List String := []

instance : Record AccountWebhook where
  id := AccountWebhook.id

/-! ## Accounts and prices -/

/-- `model Apps`. -/
structure App where
  id : Nat
  account_id : Int
  name : String := ""
  webhook_url : Option String := none

instance : Record App where
  id := App.id

/-- `model accounts`. -/
structure Account where
  id : Nat
  email : Option String := none
  password_hash : Option String := none
  webhook_url : Option String := none
  denomination : Option String := none
  registration_geolocation : Option Json := none
  registration_ip_address : Option String := none
  business_name : Option String := none
  image_url : Option String := none
  createdAt : Time := 0
  updatedAt : Time := 0

instance : Record Account where
  id := Account.id
  key := Account.email

/-- `model password_resets`; the primary key is the uid. -/
structure PasswordReset where
  id : Nat
  uid : String
  claimed : Option Bool := none
  email : Option String := none
  createdAt : Time := 0
  updatedAt : Time := 0

instance : Record PasswordReset where
  id := PasswordReset.id
  key r := some r.uid

/-- `model access_tokens`. -/
structure AccessToken where
  id : Nat
  uid : Option String := none
  account_id : Int
  app_id : Option Int := none
  createdAt : Time := 0
  updatedAt : Time := 0

instance : Record AccessToken where
  id := AccessToken.id

/-- `model addresses`. -/
structure Address where
  id : Nat
  account_id : Option Int := none
  currency : String
  chain : String
  value : Option String := none
  locked : Option Bool := some false
  paymail : Option String := none
  note : Option String := none
  view_key : Option String := none
  createdAt : Time := 0
  updatedAt : Time := 0
  deriving DecidableEq

instance : Record Address where
  id := Address.id

/-- `model LinkedAccounts`: the source lets the target see its payments. -/
structure LinkedAccount where
  id : Nat
  source : Int
  target : Int
  createdAt : Time := 0
  updatedAt : Time := 0

instance : Record LinkedAccount where
  id := LinkedAccount.id

/-- `model events`. -/
structure EventRecord where
  id : Nat
  account_id : Option Int := none
  type : String
  payload : Json
  invoice_uid : Option String := none
  app_id : Option Int := none
  createdAt : Time := 0
  updatedAt : Time := 0

instance : Record EventRecord where
  id := EventRecord.id

/-- `model invoice_notes`. -/
structure InvoiceNote where
  id : Nat
  invoice_uid : String
  content : String

instance : Record InvoiceNote where
  id := InvoiceNote.id

/-- `model WalletBots`. -/
structure WalletBot where
  id : Nat
  account_id : Option Int := none
  app_id : Option Int := none

instance : Record WalletBot where
  id := WalletBot.id

/-- `model AddressBalanceUpdates`. -/
structure AddressBalanceUpdate where
  id : Nat
  chain : Option String := none
  currency : Option String := none
  address : Option String := none
  balance : Option Rat := none
  wallet_bot_id : Option Int := none
  createdAt : Time := 0
  updatedAt : Time := 0

instance : Record AddressBalanceUpdate where
  id := AddressBalanceUpdate.id

/-- `model prices`. -/
structure Price where
  id : Nat
  currency : String
  value : Rat
  base_currency : Option String := some "BTC"

instance : Record Price where
  id := Price.id

/-- `model coins`, which the server keeps in memory. -/
structure Coin where
  code : String
  currency : Option String := none
  chain : Option String := none
  name : String := ""
  logo_url : Option String := none
  uri_template : Option String := none
  unavailable : Bool := false
  precision : Option Nat := none
  required_fee_rate : Option Nat := some 1

/-! ## Rows sent out -/

namespace Json

/-- A nullable column. -/
def orNull {α : Type} (f : α → Json) : Option α → Json
  | none => null
  | some a => f a

def ofNat (n : Nat) : Json := num n

def ofInt (n : Int) : Json := num n

/-- A `Decimal`, which is written as a text. -/
def ofDecimal (q : Rat) : Json := str (numberText q)

end Json

def Invoice.toJson (i : Invoice) : Json :=
  .obj [
    ("id", .ofNat i.id),
    ("uid", .str i.uid),
    ("amount", .orNull .ofDecimal i.amount),
    ("address", .orNull .str i.address),
    ("account_id", .orNull .ofInt i.account_id),
    ("hash", .orNull .str i.hash),
    ("status", .str i.status.toString),
    ("createdAt", .ofNat i.createdAt),
    ("updatedAt", .ofNat i.updatedAt),
    ("paidAt", .orNull .ofNat i.paidAt),
    ("currency", .orNull .str i.currency),
    ("redirect_url", .orNull .str i.redirect_url),
    ("webhook_url", .orNull .str i.webhook_url),
    ("complete", .bool i.complete),
    ("completed_at", .orNull .ofNat i.completed_at),
    ("external_id", .orNull .str i.external_id),
    ("expiry", .orNull .ofNat i.expiry),
    ("uri", .orNull .str i.uri),
    ("secret", .orNull .str i.secret),
    ("metadata", i.metadata.getD .null),
    ("app_id", .orNull .ofInt i.app_id),
    ("wordpress_site_url", .orNull .str i.wordpress_site_url),
    ("email", .orNull .str i.email),
    ("cancelled", .bool i.cancelled),
    ("business_id", .orNull .str i.business_id),
    ("location_id", .orNull .str i.location_id),
    ("register_id", .orNull .str i.register_id),
    ("memo", .orNull .str i.memo),
    ("fee_rate_level", .orNull .str i.fee_rate_level)]

/-- An account as the code that reads one meets it. -/
def Account.toJson (a : Account) : Json :=
  .obj [
    ("id", .ofNat a.id),
    ("email", .orNull .str a.email),
    ("webhook_url", .orNull .str a.webhook_url),
    ("denomination", .orNull .str a.denomination)]

def Payment.toJson (p : Payment) : Json :=
  .obj [
    ("id", .ofNat p.id),
    ("txid", .str p.txid),
    ("txhex", .orNull .str p.txhex),
    ("txjson", p.txjson.getD .null),
    ("currency", .str p.currency),
    ("invoice_uid", .str p.invoice_uid),
    ("payment_option_id", .orNull .ofNat p.payment_option_id),
    ("createdAt", .ofNat p.createdAt),
    ("updatedAt", .ofNat p.updatedAt),
    ("wallet", .orNull .str p.wallet),
    ("account_id", .orNull .ofInt p.account_id),
    ("confirmation_date", .orNull .ofNat p.confirmation_date),
    ("confirmation_hash", .orNull .str p.confirmation_hash),
    ("confirmation_height", .orNull .ofNat p.confirmation_height),
    ("tx_key", .orNull .str p.tx_key),
    ("status", .str p.status.toString),
    ("chain", .orNull .str p.chain)]

end Anypay
