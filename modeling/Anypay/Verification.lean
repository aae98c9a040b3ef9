/-
Anypay.Verification — a transaction against the outputs an option asks for.

`buildOutputs`, `verifyOutput` and `verifyPayment` of `lib/pay/index.ts`, and
the copies of `verifyPayment` the UTXO plugins carry: `validateUnsignedTx` of
`lib/plugin.ts`, `plugins/bch`, `plugins/btc` and `plugins/fb`. The first three
read the transaction through the plugin's bitcore library and compare addresses
WITHOUT their chain prefix; the last two read it through bitcoinjs and compare
the addresses as they are.
-/
import Anypay.Plugins

namespace Anypay

/-- `PaymentOutput`: an output a payment request asks for. -/
structure PaymentOutput where
  amount : Option Rat
  address : String
  script : Option String := none
  deriving DecidableEq

/-- `jsonV2.buildOutputs(paymentOption)`: the stored outputs, or one made from
the option's own address and amount. -/
def buildOutputs (option : PaymentOption) : Except Failure (List PaymentOutput) :=
  match option.outputs with
  | some outputs =>
      .ok (outputs.map fun o =>
        { address := o.address, amount := o.amount.map fun n => (n : Rat), script := o.script })
  | none =>
      match nonEmpty option.address with
      | some address =>
          .ok [{ address := stripPrefix address,
                 amount := some (option.amount.getD 0 * 100000000) }]
      | none =>
          .error (.error "address is required if outputs are not explicitly provided")

/-- `verifyOutput(outputs, targetAddress, targetAmount)`: some output pays
exactly that; an address that is null is no output's. -/
def verifyOutput (outputs : List TransactionOutput) (targetAddress : Option String)
    (targetAmount : Option Rat) : Except Failure Unit :=
  if outputs.any fun output =>
      some output.address == targetAddress && some (output.amount : Rat) == targetAmount
  then .ok ()
  else .error (.error ("Missing required output " ++ targetAddress.getD "null" ++ " " ++
    (targetAmount.map numberText).getD "null"))

/-- The loop over the outputs asked for; `target` is the address it computes. -/
def verifyOutputs (txOutputs : List TransactionOutput)
    (target : PaymentOutput → Except Failure (Option String)) :
    List PaymentOutput → Except Failure Bool
  | [] => .ok true
  | output :: outputs => do
      let address ← target output
      verifyOutput txOutputs address output.amount
      verifyOutputs txOutputs target outputs

/-- The address of an output's script where it has one, else its own; a library
throws for a script without an address. -/
def outputAddress (addressOf : String → Option String) (output : PaymentOutput) :
    Except Failure String :=
  match nonEmpty output.script with
  | some script =>
      match addressOf script with
      | some address => .ok address
      | none => .error (.error "script without an address")
  | none => .ok output.address

/-! ## By bitcore -/

/-- The outputs of a decoded transaction that have an address, without the
chain prefix. -/
def addressedOutputs (tx : BitcoreTransaction) : List TransactionOutput :=
  tx.outputs.filterMap fun o =>
    o.map fun output => { output with address := stripPrefix output.address }

/-- The address an output asks for. Where the one computed has a chain prefix it
is the output's OWN address that is cut, also where there is a script. -/
def targetAddress (addressOf : String → Option String) (output : PaymentOutput) :
    Except Failure (Option String) :=
  (outputAddress addressOf output).map fun address =>
    if address.toList.contains ':' then
      if output.address.toList.contains ':' then some (stripPrefix output.address) else none
    else some address

/-- `verifyPayment(v)` of `lib/pay`. -/
def verifyPayment (env : Env) (option : PaymentOption) (txhex : String) :
    Except Failure Bool := do
  let chain := orElse (some option.chain) option.currency
  let tx ← decodeTransaction env chain txhex
  let outputs ← buildOutputs option
  let plugin ← find env chain chain
  verifyOutputs (addressedOutputs tx) (targetAddress plugin.addressOf) outputs

/-- `new this.bitcore.Transaction(txhex)`. -/
def Plugin.decode (plugin : Plugin) (txhex : String) : Except Failure BitcoreTransaction :=
  match plugin.bitcore with
  | none => .error .typeError
  | some decode =>
      match decode txhex with
      | some tx => .ok tx
      | none => .error (.error "invalid transaction")

/-- `Plugin.validateUnsignedTx(params)`: only the first transaction is read. -/
def Plugin.validateUnsignedTx (plugin : Plugin) (option : PaymentOption)
    (transactions : List Transaction) : Except Failure Bool :=
  match transactions with
  | [] => .error .typeError
  | transaction :: _ => do
      let tx ← plugin.decode transaction.txhex
      let outputs ← buildOutputs option
      verifyOutputs (addressedOutputs tx) (targetAddress plugin.addressOf) outputs

/-- `BCH.validateUnsignedTx(params)`: the same code once more. -/
def BCH.validateUnsignedTx (plugin : Plugin) (option : PaymentOption)
    (transactions : List Transaction) : Except Failure Bool :=
  plugin.validateUnsignedTx option transactions

/-! ## By bitcoinjs -/

/-- What bitcoinjs and tapscript make of a transaction, and of a script. -/
structure Bitcoinjs where
  fromHex : String → Option BitcoreTransaction
  fromOutputScript : String → Option String

/-- `parsePayments(transaction)`: the outputs that have an address. -/
def Bitcoinjs.parsePayments (bitcoin : Bitcoinjs) (txhex : String) :
    Except Failure (List TransactionOutput) :=
  match bitcoin.fromHex txhex with
  | some tx => .ok (tx.outputs.filterMap id)
  | none => .error (.error "invalid transaction")

/-- The address an output asks for, as it is. -/
def Bitcoinjs.targetAddress (bitcoin : Bitcoinjs) (output : PaymentOutput) :
    Except Failure (Option String) :=
  (outputAddress bitcoin.fromOutputScript output).map some

/-- `BTC.validateUnsignedTx(params)`. -/
def BTC.validateUnsignedTx (bitcoin : Bitcoinjs) (option : PaymentOption)
    (transactions : List Transaction) : Except Failure Bool :=
  match transactions with
  | [] => .error .typeError
  | transaction :: _ => do
      let payments ← bitcoin.parsePayments transaction.txhex
      let expectedOutputs ← buildOutputs option
      verifyOutputs payments bitcoin.targetAddress expectedOutputs

/-- `FB.validateUnsignedTx(params)`: the same code once more. -/
def FB.validateUnsignedTx (bitcoin : Bitcoinjs) (option : PaymentOption)
    (transactions : List Transaction) : Except Failure Bool :=
  BTC.validateUnsignedTx bitcoin option transactions

end Anypay
