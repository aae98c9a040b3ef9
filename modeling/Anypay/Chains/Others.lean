/-
Anypay.Chains.Others — verifying a payment on XRP, Solana and Monero.

The three registered chains that are neither UTXO nor EVM chains. Each has its
own decoder, here a parameter (`Libraries`), and its own idea of verification:
`plugins/xrp` compares the first output, `plugins/sol` validates the transaction
against an EMPTY template and drops the result, `plugins/xmr` asks the wallet in
a call nobody awaits.
-/
import Anypay.Chains.Evm

namespace Anypay

open Double

/-! ## What the libraries decode -/

/-- `decode(txhex)` of xrpl: the fields read. An `Amount` that is an object, of
an issued currency, is none; so is one that is absent. -/
structure XrplTransaction where
  TransactionType : String
  Destination : Option String := none
  Amount : Option Nat := none
  Flags : Nat := 0
  TxnSignature : Option String := none

/-- The flag that allows delivering less than `Amount`. -/
def tfPartialPayment : Nat := 17

/-- What `decodeTransferInstruction` finds in an instruction: a token transfer. -/
structure InstructionOutput where
  amount : Nat
  destination : String

/-- `Transaction.from(buffer)` of web3.js: the transfers of SOL among its
instructions, by address and lamports, and those of tokens. -/
structure SolanaTransaction where
  transfers : List (String × Nat) := []
  tokenTransfers : List InstructionOutput := []

/-- The chain libraries. -/
structure Libraries where
  xrpl : String → Option XrplTransaction := fun _ => none
  solana : String → Option SolanaTransaction := fun _ => none
  /-- The token account of an address. -/
  getTokenAddress : String → Except Failure String := fun _ => .error .typeError
  /-- `check_tx_key(txid, tx_key, address)` of the Monero wallet: what the
  transaction pays to the address. -/
  check_tx_key : String → String → String → Option Nat := fun _ _ _ => none

/-! ## XRP -/

namespace XRP

/-- The payment of a transaction; `amount` is a number, none for NaN. -/
structure ParsedPayment where
  txid : Option String
  amount : Option Nat
  address : Option String

/-- `XRP.parsePayments(transaction)`. -/
def parsePayments (libraries : Libraries) (txhex : String) :
    Except Failure (List ParsedPayment) :=
  if txhex = "" then .error (.error "Transaction hex required for parsing XRP payments")
  else
    match libraries.xrpl txhex with
    | none => .error (.error "invalid transaction")
    | some decoded =>
        if decoded.TransactionType ≠ "Payment" then .ok []
        else
          .ok [{ txid := decoded.TxnSignature, amount := decoded.Amount.map nearest,
                 address := decoded.Destination }]

/-- `XRP.verifyPayment({ paymentOption, transaction })`; what throws is
caught. -/
def verifyPayment (libraries : Libraries) (option : PaymentOption)
    (transaction : Transaction) : Except Failure Bool :=
  match parsePayments libraries transaction.txhex with
  | .error _ => .ok false
  | .ok [] => .ok false
  | .ok (payment :: _) =>
      match option.outputs.getD [] with
      | [] => .ok false
      | expectedOutput :: _ =>
          if payment.address ≠ some expectedOutput.address then .ok false
          else .ok (sameAmount expectedOutput payment.amount)

end XRP

/-! ## Solana -/

namespace SOL

/-- `Transaction.from(Buffer.from(txhex, 'hex'))`. -/
def decode (libraries : Libraries) (txhex : String) : Except Failure SolanaTransaction :=
  match libraries.solana txhex with
  | some transaction => .ok transaction
  | none => .error (.error "invalid transaction")

/-- The outputs of a template no token transfer pays. -/
def unmatched (libraries : Libraries) (transaction : SolanaTransaction) :
    List Output → Except Failure (List Output)
  | [] => .ok []
  | expectedOutput :: template => do
      let destination ← libraries.getTokenAddress expectedOutput.address
      let errors ← unmatched libraries transaction template
      if transaction.tokenTransfers.any fun output =>
          destination == output.destination &&
            (expectedOutput.amount.map fun amount => 1000000 * amount) ==
              some (output.amount : Int)
      then .ok errors
      else .ok (expectedOutput :: errors)

/-- `validateTransaction({ template, txhex })`. -/
def validateTransaction (libraries : Libraries) (template : List Output) (txhex : String) :
    Except Failure (Bool × List Output) := do
  let transaction ← decode libraries txhex
  let errors ← unmatched libraries transaction template
  .ok (errors.isEmpty, errors)

/-- `SOL.verifyPayment({ paymentOption, transaction })`: the result of the
validation is logged. -/
def verifyPayment (libraries : Libraries) (_option : PaymentOption)
    (transaction : Transaction) : Except Failure Bool := do
  let _ ← decode libraries transaction.txhex
  let _ ← validateTransaction libraries [] transaction.txhex
  .ok true

/-- `SOL.parsePayments({ txhex })`. -/
def parsePayments (_txhex : String) : Except Failure (List String) := .ok []

end SOL

/-! ## Monero -/

namespace XMR

/-- The loop of `verify({ url, tx_hash, tx_key })` over the destinations. -/
def verify (libraries : Libraries) (tx_hash tx_key : String) :
    List Output → Except Failure Unit
  | [] => .ok ()
  | { address, amount, .. } :: destinations =>
      match libraries.check_tx_key tx_hash tx_key address with
      | none => .error (.error "check_tx_key")
      | some received =>
          if (amount.any fun amount => decide ((received : Int) < amount)) = true then
            .error (.error "Invalid XMR Payment")
          else verify libraries tx_hash tx_key destinations

/-- `verifyPayment({ paymentOption, transaction })`: `verify` runs un-awaited,
and what it throws is logged. -/
def verifyPayment (libraries : Libraries) (option : PaymentOption)
    (transaction : Transaction) : Except Failure Bool :=
  match verify libraries (transaction.txid.getD "undefined")
      (transaction.txkey.getD "undefined") (option.outputs.getD []) with
  | .ok () => .ok true
  | .error _ => .ok true

end XMR

end Anypay
