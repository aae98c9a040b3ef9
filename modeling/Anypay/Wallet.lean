/-
Anypay.Wallet — the wallet on the other side of the payment protocol: the cards of
`wallet/src/cards` and the scripts of `wallet/bin` that pay with them.

A script asks the server for a payment request, has a card build and sign a
transaction for the outputs of its instruction, and posts the raw transaction
back. `_bitcore.ts` does that for the UTXO chains, where LTC and DOGE have an
`addInputs` of their own; `_evm.ts` and `_erc20.ts` do it for the EVM chains and
pay the FIRST output only.

The libraries that write and sign transactions are parameters, and so are the
providers asked for unspent coins. The call data of a token transfer are written
out here, by the rules of the contract ABI. The card of Monero goes through a
wallet server and is left out, and so is the BSV card's own way of listing coins.
-/
import Anypay.Chains.Registry

namespace Anypay.Wallet

open Async Proc Double

/-- `Transaction` of `wallet/src/transaction.ts`. -/
structure SignedPayment where
  txhex : String
  txid : String
  deriving DecidableEq

/-! ## UTXO cards -/

/-- `Utxo`; a coin that is listed without a script has it fetched. -/
structure Utxo where
  scriptPubKey : Option String
  value : Nat
  txid : String
  vout : Nat

/-- The fields of `BitcoreIoUtxo` that are read. -/
structure BitcoreIoUtxo where
  mintIndex : Nat
  mintTxid : String
  script : String
  value : Nat

/-- A coin as `listUnspent()` hands it on. -/
def BitcoreIoUtxo.utxo (utxo : BitcoreIoUtxo) : Utxo where
  scriptPubKey := some utxo.script
  value := utxo.value
  txid := utxo.mintTxid
  vout := utxo.mintIndex

/-- What is handed to `tx.from`. -/
structure Coin where
  txId : String
  outputIndex : Nat
  address : Option String := none
  scriptPubKey : Option String
  satoshis : Nat
  deriving DecidableEq

/-- `bitcore.Transaction.Output`. -/
structure DraftOutput where
  satoshis : Nat
  script : String
  deriving DecidableEq

/-- `new bitcore.Transaction()`, as far as a card fills it in. -/
structure Draft where
  outputs : List DraftOutput := []
  coins : List Coin := []
  change : Option String := none
  deriving DecidableEq

/-- What a card uses of its chain's bitcore library and of its own key. -/
structure Bitcore where
  /-- `Script.fromAddress(Address.fromString(address)).toHex()`; none is a throw. -/
  scriptOf : String → Option String
  /-- `new Script(scriptPubKey).toAddress().toString()`; none is a throw. -/
  toAddress : Option String → Option String
  /-- Whether `tx.from` makes an input of a coin, or throws. -/
  spends : Coin → Bool
  /-- `tx.sign(privateKey)` and `tx.serialize()`; none is a throw. -/
  serialize : Draft → Option String
  /-- `tx.hash`. -/
  hash : Draft → String

/-- `getRawTx(chain, txid)`: the scripts of the transaction's outputs. -/
abbrev GetRawTx := String → Except Failure (List String)

/-- `BitcoreCard.addInputs({ tx, utxos })`. -/
def BitcoreCard.addInputs (_ : Bitcore) (getRawTx : GetRawTx) (utxos : List Utxo) :
    Except Failure (List Coin) :=
  utxos.mapM fun utxo =>
    match nonEmpty utxo.scriptPubKey with
    | some script =>
        .ok { txId := utxo.txid, outputIndex := utxo.vout, scriptPubKey := some script,
              satoshis := utxo.value }
    | none => do
        let vout ← getRawTx utxo.txid
        match vout[utxo.vout]? with
        | some script =>
            .ok { txId := utxo.txid, outputIndex := utxo.vout, scriptPubKey := some script,
                  satoshis := utxo.value }
        | none => .error .typeError

/-- `DogeCard.addInputs({ tx, utxos })`: the address is read off the script. -/
def DogeCard.addInputs (bitcore : Bitcore) (_ : GetRawTx) (utxos : List Utxo) :
    Except Failure (List Coin) :=
  utxos.mapM fun output =>
    match bitcore.toAddress output.scriptPubKey with
    | some address =>
        .ok { txId := output.txid, outputIndex := output.vout, address := some address,
              scriptPubKey := output.scriptPubKey, satoshis := output.value }
    | none => .error .typeError

/-- `LTC_Card.addInputs({ tx, utxos })`: as they are listed. -/
def LTC_Card.addInputs (_ : Bitcore) (_ : GetRawTx) (utxos : List Utxo) :
    Except Failure (List Coin) :=
  .ok (utxos.map fun output =>
    { txId := output.txid, outputIndex := output.vout, scriptPubKey := output.scriptPubKey,
      satoshis := output.value })

/-- A card of a UTXO chain, whose currency is the chain's own. -/
structure UtxoCard where
  chain : String
  addInputs : Bitcore → GetRawTx → List Utxo → Except Failure (List Coin) :=
    BitcoreCard.addInputs

/-- The cards of the UTXO chains. -/
def utxoCards : List UtxoCard := [
  { chain := "DASH" }, { chain := "BCH" }, { chain := "LTC", addInputs := LTC_Card.addInputs },
  { chain := "BSV" }, { chain := "BTC" },
  { chain := "DOGE", addInputs := DogeCard.addInputs }]

/-- One round of the loop over the instruction's outputs. Bitcore takes an amount
that is a whole number a double holds exactly. -/
def addOutput (bitcore : Bitcore) (output : Output) : Except Failure DraftOutput :=
  match bitcore.scriptOf output.address with
  | none => .error (.error "Invalid Address")
  | some script =>
      match output.amount with
      | none => .error (.error "Output satoshis is not a natural number")
      | some amount =>
          if 0 ≤ amount ∧ amount < 2 ^ 53 then .ok { satoshis := amount.toNat, script }
          else .error (.error "Output satoshis is not a natural number")

/-- `buildSignedPayment(paymentOption)`, with what the providers answered:
`listUnspent` the coins, `getRawTx` the scripts of those listed without. -/
def UtxoCard.buildSignedPayment (card : UtxoCard) (bitcore : Bitcore) (address : String)
    (listUnspent : Except Failure (List Utxo)) (getRawTx : GetRawTx) (outputs : List Output) :
    Except Failure SignedPayment := do
  let drafted ← outputs.mapM (addOutput bitcore)
  let utxos ← listUnspent
  let coins ← card.addInputs bitcore getRawTx utxos
  if coins.all bitcore.spends then
    let totalInput := (utxos.map Utxo.value).sum
    let totalOutput := (drafted.map DraftOutput.satoshis).sum
    if nearest totalInput < nearest totalOutput then
      .error (.error "Insufficient funds to pay invoice")
    else
      let draft := { outputs := drafted, coins, change := some address }
      match bitcore.serialize draft with
      | none => .error (.error "Invalid transaction")
      | some txhex => .ok { txhex, txid := bitcore.hash draft }
  else .error (.error "Unrecognized unspent output")

/-! ## EVM cards -/

/-- An address of twenty bytes, in lower-case digits. -/
structure EvmAddress where
  digits : List Char
  length : digits.length = 40
  hex : ∀ c ∈ digits, (digitIn 16 c).isSome = true
  lower : digits.map Char.toLower = digits

/-- The transaction request that `populateTransaction` completes. -/
structure TransactionRequest where
  to_ : String
  value : Int := 0
  data : Calldata := .empty
  chainId : Nat
  deriving DecidableEq

/-- What a card uses of ethers and of its own key. -/
structure Ethers where
  /-- `getAddress(text)`: the address a text stands for; none is a throw. -/
  getAddress : String → Option EvmAddress
  /-- `populateTransaction` and `signTransaction`; none is a throw. -/
  signTransaction : TransactionRequest → Option String
  /-- `transaction.hash`. -/
  hash : TransactionRequest → String

/-- What both cards return for their request. -/
def Ethers.sign (ethers : Ethers) (request : TransactionRequest) :
    Except Failure SignedPayment :=
  match ethers.signTransaction request with
  | none => .error (.error "invalid transaction")
  | some txhex => .ok { txhex, txid := ethers.hash request }

/-- `EVM_Card.buildSignedPayment(option)`: the first output, its amount as the
number `JSON.parse` made of it. -/
def EVM_Card.buildSignedPayment (chainID : Nat) (ethers : Ethers) (outputs : List Output) :
    Except Failure SignedPayment :=
  match outputs with
  | [] => .error .typeError
  | output :: _ =>
      match output.amount with
      | none => .error .typeError
      | some amount =>
          ethers.sign { to_ := output.address, value := jsonNumber amount, chainId := chainID }

/-- A number in 32 bytes: sixty-four digits. -/
def word (n : Nat) : List Char := List.leftpad 64 '0' (Nat.toDigits 16 n)

/-- The first four bytes of a call of `transfer(address, uint256)`. -/
def transferSelector : List Char := ['a', '9', '0', '5', '9', 'c', 'b', 'b']

/-- The digits of a call of `transfer`: its selector, then each argument in 32
bytes. -/
def transferDigits (address : EvmAddress) (amount : Nat) : List Char :=
  transferSelector ++ (List.replicate 24 '0' ++ (address.digits ++ word amount))

theorem isSome_digitChar : ∀ d < 16, (digitIn 16 (Nat.digitChar d)).isSome = true := by
  decide

theorem isSome_of_toDigits {n : Nat} {c : Char} (h : c ∈ Nat.toDigits 16 n) :
    (digitIn 16 c).isSome = true := by
  induction n using Nat.strong_induction_on with
  | _ n ih =>
      by_cases hlt : n < 16
      · rw [Nat.toDigits_of_lt_base hlt, List.mem_singleton] at h
        rw [h]
        exact isSome_digitChar n hlt
      · rw [Nat.toDigits_of_base_le (by decide) (by omega), List.mem_append,
          List.mem_singleton] at h
        rcases h with h | rfl
        · exact ih (n / 16) (by omega) h
        · exact isSome_digitChar _ (Nat.mod_lt _ (by decide))

theorem isSome_selector : ∀ c ∈ transferSelector, (digitIn 16 c).isSome = true := by
  have hall : transferSelector.all (fun c => (digitIn 16 c).isSome) = true := by decide
  exact List.all_eq_true.mp hall

theorem isSome_zeros {n : Nat} : ∀ c ∈ List.replicate n '0', (digitIn 16 c).isSome = true := by
  intro c hc
  rw [List.eq_of_mem_replicate hc]
  decide

theorem hex_transferDigits (address : EvmAddress) (amount : Nat) :
    ∀ c ∈ transferDigits address amount, (digitIn 16 c).isSome = true := by
  unfold transferDigits word List.leftpad
  intro c hc
  rcases List.mem_append.mp hc with hc | hc
  · exact isSome_selector c hc
  rcases List.mem_append.mp hc with hc | hc
  · exact isSome_zeros c hc
  rcases List.mem_append.mp hc with hc | hc
  · exact address.hex c hc
  rcases List.mem_append.mp hc with hc | hc
  · exact isSome_zeros c hc
  · exact isSome_of_toDigits hc

theorem hex_drop (ds : List Char) (h : ∀ c ∈ ds, (digitIn 16 c).isSome = true) :
    ∀ c ∈ (String.ofList ('0' :: 'x' :: ds)).toList.drop 2, (digitIn 16 c).isSome = true := by
  simpa using h

/-- `encodeFunctionData("transfer", [to, amount])`, of good arguments. -/
def transferData (address : EvmAddress) (amount : Nat) : Calldata where
  text := String.ofList ('0' :: 'x' :: transferDigits address amount)
  hex := hex_drop _ (hex_transferDigits address amount)

/-- `ERC20_Card.buildSignedPayment(option)`: a call of the token's contract for the
first output. Ethers takes a number for a `uint256` only where it is a safe
integer. -/
def ERC20_Card.buildSignedPayment (token : String) (chainID : Nat) (ethers : Ethers)
    (outputs : List Output) : Except Failure SignedPayment :=
  match outputs with
  | [] => .error .typeError
  | output :: _ =>
      match ethers.getAddress output.address with
      | none => .error (.error "invalid address")
      | some address =>
          match output.amount with
          | none => .error (.error "invalid BigNumberish value")
          | some amount =>
              if 0 ≤ amount ∧ amount < 2 ^ 53 then
                ethers.sign
                  { to_ := token, data := transferData address amount.toNat, chainId := chainID }
              else .error (.error "overflow")

/-- A card of an EVM chain, or of a token on one. -/
structure EvmCard where
  currency : String
  chain : String
  chainID : Nat
  token : Option String := none

/-- The cards of the EVM chains and their tokens. -/
def evmCards : List EvmCard := [
  { currency := "ETH", chain := "ETH", chainID := 1 },
  { currency := "MATIC", chain := "MATIC", chainID := 137 },
  { currency := "AVAX", chain := "AVAX", chainID := 43114 },
  { currency := "USDC", chain := "MATIC", chainID := 137,
    token := some "0x2791bca1f2de4661ed88a30c99a7a9449aa84174" },
  { currency := "USDC", chain := "ETH", chainID := 1,
    token := some "0xa0b86991c6218b36c1d19d4a2e9eb0ce3606eb48" },
  { currency := "USDC", chain := "AVAX", chainID := 43114,
    token := some "0xb97ef9ef8734c71904d8002f8b6bc66dd9c48a6e" },
  { currency := "USDT", chain := "MATIC", chainID := 137,
    token := some "0xc2132d05d31c914a87c6611c10748aeb04b58e8f" },
  { currency := "USDT", chain := "ETH", chainID := 1,
    token := some "0xdac17f958d2ee523a2206206994597c13d831ec7" },
  { currency := "USDT", chain := "AVAX", chainID := 43114,
    token := some "0x9702230a8ea53601f5cd2dc00fdbc13d4df4a8c7" }]

/-- `card.buildSignedPayment(option)`. -/
def EvmCard.buildSignedPayment (card : EvmCard) (ethers : Ethers) (outputs : List Output) :
    Except Failure SignedPayment :=
  match card.token with
  | none => EVM_Card.buildSignedPayment card.chainID ethers outputs
  | some token => ERC20_Card.buildSignedPayment token card.chainID ethers outputs

/-! ## Paying an invoice -/

/-- `main` of `bin/pay_….ts`: the payment request, the card's transaction for its
instruction, and the payment posted back. The server looks at the invoice twice
before it answers a request. -/
def payInvoice (env : Env) (buildSignedPayment : List Output → Except Failure SignedPayment)
    (uid currency chain : String) : Task (List String) := do
  let _ ← ensurePayable uid
  let invoice ← ensurePayable uid
  let paymentOption ← getPaymentRequest env invoice currency chain
  let payment ← Proc.ofExcept (buildSignedPayment paymentOption.outputs)
  jsonV2Payment env uid currency (some chain) [{ txhex := payment.txhex }]

end Anypay.Wallet
