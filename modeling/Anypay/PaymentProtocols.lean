/-
Anypay.PaymentProtocols — what a wallet is asked to pay, in each of the payment
protocols: `buildPaymentRequestForInvoice` and the protocols of `lib/pay`
(`bip70.ts`, `bip_270.ts`, `json_v2/index.ts`), `listPaymentOptions` of
`lib/pay/json_v2/protocol.ts`.

An option is looked up by the invoice and the currency here, where
`getPaymentRequest` and `submitPayment` look it up by the chain too. The script of
an address comes from the bitcore library of the currency, a parameter. A BIP70
request is given by what is put in it, not by its bytes, and its signature is left
out; so is the text a BIP270 request makes of its merchant data.
-/
import Anypay.Pay

namespace Anypay

open Async Proc

/-! ## Scripts -/

/-- What a bitcore library makes of an address; none is a throw. -/
structure ScriptLibrary where
  /-- `Script.buildPublicKeyHashOut(address)`. -/
  buildPublicKeyHashOut : String → Option String
  /-- `Script.buildScriptHashOut(new Address(address))`. -/
  buildScriptHashOut : String → Option String
  /-- `new Script(new Address(address))`. -/
  ofAddress : String → Option String

/-- The bitcore libraries, by currency. -/
abbrev Scripts := String → ScriptLibrary

/-- `getBitcore(currency)`; none is the empty object of a plugin that has no such
library. -/
def getBitcore (env : Env) (scripts : Scripts) (currency : String) :
    Except Failure (Option ScriptLibrary) :=
  (find env currency currency).map fun plugin => plugin.bitcore.map fun _ => scripts currency

/-- A script, where the library and the address are good for one. -/
def scriptBy (build : ScriptLibrary → String → Option String) (library : Option ScriptLibrary)
    (address : String) : Except Failure String :=
  match library with
  | none => .error .typeError
  | some library =>
      match build library address with
      | none => .error (.error "invalid address")
      | some script => .ok script

/-! ## Requests -/

inductive Protocol where
  | bip70
  | bip270
  | jsonV2
  deriving DecidableEq

/-- An output that pays to a script. -/
structure ScriptOutput where
  amount : Option Int
  script : String

/-- An output of a JSON v2 request: one of the option's, as it is. -/
structure AddressOutput where
  address : String
  amount : Option Rat
  script : Option String := none

/-- `PaymentDetails` of a BIP70 request, times in seconds. -/
structure Bip70Request where
  time : Time
  expires : Time
  outputs : List ScriptOutput
  memo : Option String
  payment_url : String
  required_fee_rate : Nat
  merchant_data : String

/-- `Bip270PaymentRequest`, times in seconds; an invoice without expiry has no
number there. -/
structure Bip270Request where
  network : String := "bitcoin-sv"
  outputs : List ScriptOutput
  creationTimestamp : Time
  expirationTimestamp : Option Time
  memo : String
  paymentUrl : String
  merchantData : Json
  redirectUrl : Option String

/-- `JsonV2PaymentRequest` of `lib/pay/json_v2/index.ts`. -/
structure JsonRequest where
  network : String := "main"
  currency : String
  requiredFeeRate : Nat
  outputs : List AddressOutput
  time : Time
  expires : Time
  memo : String
  paymentUrl : String
  paymentId : String

/-- `content` of a built request. -/
inductive Content where
  | bip70 (request : Bip70Request)
  | bip270 (request : Bip270Request)
  | jsonV2 (request : JsonRequest)

namespace Bip70

/-- An address that begins with 3 is a script's. Where its script cannot be built
that is logged, and the script missed. -/
def scriptOf (library : Option ScriptLibrary) (address : String) : Except Failure String :=
  if address.toList.head? = some '3' then
    match scriptBy ScriptLibrary.buildScriptHashOut library address with
    | .ok script => .ok script
    | .error _ => .error .typeError
  else scriptBy ScriptLibrary.buildPublicKeyHashOut library address

/-- `buildOutputs(payment_option)`. -/
def buildOutputs (env : Env) (scripts : Scripts) (option : PaymentOption) :
    Except Failure (List ScriptOutput) := do
  let library ← getBitcore env scripts option.currency
  (option.outputs.getD []).mapM fun output => do
    let script ← scriptOf library output.address
    pure { amount := output.amount, script }

/-- `buildPaymentRequest(paymentOption, { memo })`. -/
def buildPaymentRequest (env : Env) (scripts : Scripts) (option : PaymentOption)
    (memo : String) : Task Bip70Request := do
  let outputs ← Proc.ofExcept (buildOutputs env scripts option)
  let now ← ask fun c => .ok (c.now / 1000)
  pure
    { time := now, expires := now + 60 * 60 * 24, outputs, memo := nonEmpty (some memo),
      payment_url := env.apiBase ++ "/r/" ++ option.invoice_uid ++ "/pay/" ++
        option.currency ++ "/bip70",
      required_fee_rate := (env.requiredFeeRates.lookup option.currency).getD 1,
      merchant_data := option.invoice_uid }

/-- An output as `paymentRequestToJSON` shows it. -/
structure DecodedOutput where
  address : String
  amount : Option Int

/-- `outputs` of `paymentRequestToJSON(hex, currency)`, from those in the details. -/
def decodeOutputs (env : Env) (currency : String) (outputs : List ScriptOutput) :
    Except Failure (List DecodedOutput) := do
  let plugin ← find env currency currency
  outputs.mapM fun output =>
    match plugin.bitcore with
    | none => .error .typeError
    | some _ =>
        match plugin.addressOf output.script with
        | some address => .ok { address, amount := output.amount }
        | none => .error (.error "script without an address")

end Bip70

namespace Bip270

/-- `buildOutputs(paymentOption)`. -/
def buildOutputs (env : Env) (scripts : Scripts) (option : PaymentOption) :
    Except Failure (List ScriptOutput) := do
  let library ← getBitcore env scripts option.currency
  (option.outputs.getD []).mapM fun output => do
    let script ← scriptBy ScriptLibrary.ofAddress library output.address
    pure { amount := output.amount, script }

/-- `getMerchantData(invoiceUid, account_id)`, before it is made a text. -/
def getMerchantData (uid : String) (account_id : Option Int) : Task Json :=
  match orUndefined account_id with
  | none => pure (.obj [("invoiceUid", .str uid)])
  | some account_id => do
      let invoice ← prisma.invoices.findFirstOrThrow fun r => r.uid == uid
      let account ← prisma.accounts.findFirstOrThrow fun r => (r.id : Int) == account_id
      if Json.truthy invoice.metadata then
        pure (.obj (Json.spread [("invoiceUid", .str uid)] invoice.metadata))
      else
        pure (.obj [
          ("invoiceUid", .str uid),
          ("merchantName", .orNull .str account.business_name),
          ("avatarUrl", .orNull .str account.image_url)])

/-- `buildPaymentRequest(paymentOption)`. -/
def buildPaymentRequest (env : Env) (scripts : Scripts) (option : PaymentOption) :
    Task Bip270Request := do
  let invoice ← prisma.invoices.findFirstOrThrow fun r => r.uid == option.invoice_uid
  let merchantData ← getMerchantData invoice.uid invoice.account_id
  let outputs ← Proc.ofExcept (buildOutputs env scripts option)
  pure
    { outputs, creationTimestamp := invoice.createdAt / 1000,
      expirationTimestamp := invoice.expiry.map (· / 1000),
      memo := orElse invoice.memo "Anypay™",
      paymentUrl := env.apiBase ++ "/r/" ++ invoice.uid ++ "/pay/BSV/bip270", merchantData,
      redirectUrl := nonEmpty invoice.redirect_url }

end Bip270

namespace JsonV2

/-- `buildOutputs(paymentOption)`; the address is `String(address)`. -/
def buildOutputs (option : PaymentOption) : List AddressOutput :=
  match option.outputs with
  | some outputs => outputs.map fun output =>
      { address := output.address, amount := output.amount.map fun n : Int => (n : Rat),
        script := output.script }
  | none =>
      [{ address := stripPrefix (nullText option.address),
         amount := some (option.amount.getD 0 * 100000000) }]

/-- `buildPaymentRequest(paymentOption, { memo })`; the option's `createdAt` is not
handed on, so it is made at the moment. -/
def buildPaymentRequest (env : Env) (option : PaymentOption) (memo : String) :
    Task JsonRequest := do
  let now ← ask fun c => .ok c.now
  pure
    { currency := option.currency,
      requiredFeeRate := (env.requiredFeeRates.lookup option.currency).getD 1,
      outputs := buildOutputs option, time := now, expires := now + fifteenMinutes, memo,
      paymentUrl := env.apiBase ++ "/r/" ++ option.invoice_uid ++ "/pay/" ++
        option.currency ++ "/jsonv2",
      paymentId := option.invoice_uid }

end JsonV2

/-- `buildPaymentRequest({ paymentOption, invoice })`. -/
def buildPaymentRequest (env : Env) (scripts : Scripts) (option : PaymentOption)
    (invoice : Invoice) : Protocol → Task Content
  | .bip70 => do
      let request ← Bip70.buildPaymentRequest env scripts option (nullText invoice.memo)
      pure (.bip70 request)
  | .bip270 => do
      let request ← Bip270.buildPaymentRequest env scripts option
      pure (.bip270 request)
  | .jsonV2 => do
      let request ← JsonV2.buildPaymentRequest env option (nullText invoice.memo)
      pure (.jsonV2 request)

/-- `buildPaymentRequestForInvoice({ uid, currency, protocol })`. -/
def buildPaymentRequestForInvoice (env : Env) (scripts : Scripts) (uid currency : String)
    (protocol : Protocol) : Task Content := do
  let paymentOption ← prisma.payment_options.findFirstOrThrow fun r =>
    r.invoice_uid == uid && r.currency == currency
  let invoice ← prisma.invoices.findFirstOrThrow fun r => r.uid == uid
  buildPaymentRequest env scripts paymentOption invoice protocol

/-! ## The list of options -/

/-- An option as the JSON v2 protocol lists it. -/
structure ListedOption where
  currency : String
  chain : String
  network : String := "main"
  estimatedAmount : Int
  requiredFeeRate : Nat
  minerFee : Nat := 0
  decimals : Nat := 0
  selected : Bool := false

/-- `PaymentOptions`. -/
structure PaymentOptions where
  time : Time
  expires : Time
  memo : String
  paymentUrl : String
  paymentId : String
  paymentOptions : List ListedOption

/-- `outputs.reduce((sum, output) => sum + Number(output.amount), 0)`, 0 where there
are none. -/
def estimatedAmount (outputs : Option (List Output)) : Int :=
  ((outputs.getD []).map fun output => output.amount.getD 0).sum

/-- `listPaymentOptions(invoice)`; the invoice is the caller's copy. -/
def listPaymentOptions (env : Env) (invoice : Invoice) : Task PaymentOptions := do
  let options ← prisma.payment_options.findMany fun r => r.invoice_uid == invoice.uid
  let paymentOptions ← mapAll options fun option => do
    let requiredFeeRate ← getRequiredFeeRate env invoice option.currency
    pure
      { currency := option.currency, chain := option.chain,
        estimatedAmount := estimatedAmount option.outputs, requiredFeeRate : ListedOption }
  let now ← ask fun c => .ok c.now
  pure
    { time := invoice.createdAt, expires := invoice.expiry.getD (now + fifteenMinutes),
      memo := nullText invoice.memo, paymentUrl := env.apiBase ++ "/r/" ++ invoice.uid,
      paymentId := invoice.uid, paymentOptions }

end Anypay
