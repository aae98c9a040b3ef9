/-
Anypay.Chains.Evm — the EVM chains and their ERC-20 tokens: reading and verifying
a payment.

`parsePayments` and `verifyPayment` of `lib/plugins/evm.ts` and
`lib/plugins/erc20.ts`, with the two ways the latter finds a transfer:
`parseERC20Transfer`, in the transaction submitted, and `fetchERC20Transfer`, in
the one a Polygon node has under the hash submitted. Amounts are JavaScript
numbers: a 256-bit integer becomes the nearest double, and `parseInt` of a NUMBER
reads that double's text.
-/
import Anypay.Json.Double
import Anypay.Plugins

namespace Anypay

open Double

/-- `text.toLowerCase()`; addresses and hashes are ASCII. -/
def toLowerCase (text : String) : String := String.ofList (text.toList.map Char.toLower)

/-! ## Plugins -/

/-- The address of a contract, written in lower case. -/
def IsContract (address : String) : Prop :=
  toLowerCase address = address ∧ address.toList.take 2 = ['0', 'x']

instance (address : String) : Decidable (IsContract address) :=
  inferInstanceAs (Decidable (_ ∧ _))

/-- A plugin of an EVM chain: of the chain's own coin, or of a token contract. -/
structure EvmPlugin where
  currency : String
  chain : String
  decimals : Nat
  chainID : Nat
  token : Option String := none
  contract : ∀ t ∈ token, IsContract t := by decide

def ETH : EvmPlugin where
  currency := "ETH"
  chain := "ETH"
  decimals := 18
  chainID := 1

def MATIC : EvmPlugin where
  currency := "MATIC"
  chain := "MATIC"
  decimals := 18
  chainID := 137

def AVAX : EvmPlugin where
  currency := "AVAX"
  chain := "AVAX"
  decimals := 18
  chainID := 43114

def USDC_ETH : EvmPlugin where
  currency := "USDC"
  chain := "ETH"
  decimals := 6
  chainID := 1
  token := some "0xa0b86991c6218b36c1d19d4a2e9eb0ce3606eb48"

def USDC_MATIC : EvmPlugin where
  currency := "USDC"
  chain := "MATIC"
  decimals := 6
  chainID := 137
  token := some "0x2791bca1f2de4661ed88a30c99a7a9449aa84174"

def USDC_AVAX : EvmPlugin where
  currency := "USDC"
  chain := "AVAX"
  decimals := 6
  chainID := 43114
  token := some "0xb97ef9ef8734c71904d8002f8b6bc66dd9c48a6e"

def USDT_ETH : EvmPlugin where
  currency := "USDT"
  chain := "ETH"
  decimals := 6
  chainID := 1
  token := some "0xdac17f958d2ee523a2206206994597c13d831ec7"

def USDT_MATIC : EvmPlugin where
  currency := "USDT"
  chain := "MATIC"
  decimals := 6
  chainID := 137
  token := some "0xc2132d05d31c914a87c6611c10748aeb04b58e8f"

def USDT_AVAX : EvmPlugin where
  currency := "USDT"
  chain := "AVAX"
  decimals := 6
  chainID := 43114
  token := some "0x9702230a8ea53601f5cd2dc00fdbc13d4df4a8c7"

/-! ## Numbers and texts -/

/-- The number `JSON.parse` makes of a stored amount. -/
def jsonNumber : Int → Int
  | .ofNat n => nearest n
  | .negSucc n => -nearest (n + 1)

/-- `expectedOutput.amount === number`; null and NaN equal no number. -/
def sameAmount (output : Output) (number : Option Nat) : Bool :=
  match output.amount, number with
  | some amount, some n => jsonNumber amount == n
  | _, _ => false

/-- `text.slice(a, b)`. -/
def slice (text : String) (a b : Nat) : String :=
  String.ofList ((text.toList.take b).drop a)

/-- `hexToDec(hex)`; none is null. -/
def hexToDec (hex : String) : Option Nat := digits 16 hex.toList

/-- `Number(text)` of a decimal integer, `Number(null)`. -/
def toNumber (n : Option Nat) : Nat := nearest (n.getD 0)

/-- `parseInt(String(x))` of a decimal integer or null. -/
def parseText (n : Option Nat) : Option Nat := n.bind fun n => parseInt (Nat.toDigits 10 n)

/-! ## Transfers -/

/-- `ethers.Transaction`, as `ethers.utils.parseTransaction` returns it. -/
structure EthersTransaction where
  to_ : Option String := none
  value : Nat := 0
  data : Calldata := .empty
  /-- 0 where the signature names no chain. -/
  chainId : Nat
  /-- There is none where there is no signature. -/
  hash : Option String := none

/-- `ethers.utils.parseTransaction`; none is a throw. -/
abbrev ParseTransaction := String → Option EthersTransaction

/-- The call data of `transfer(address, uint256)`: the address, with `0x` in
front, and the digits of the amount. -/
def transferCall (input : Calldata) : Option (String × String) :=
  if input.text.length ≠ 138 ∨ slice input.text 2 10 ≠ "a9059cbb" then none
  else some ("0x" ++ slice input.text 34 74, slice input.text 74 138)

/-- `String(x)` of a string or null. -/
def stringOf (x : Option String) : String := x.getD "null"

/-- `Payment` of `lib/plugin`. -/
structure EvmPayment where
  currency : String
  chain : String
  address : String
  amount : Option Rat
  txid : String

namespace EVM

/-- What `EVM.parsePayments` reads of a transaction; `amount` is a number. -/
structure ParsedPayment where
  address : String
  amount : Option Nat
  txid : String

/-- `EVM.parsePayments({ txhex })`. -/
def parsePayments (parseTransaction : ParseTransaction) (txhex : String) :
    Except Failure ParsedPayment :=
  match parseTransaction txhex with
  | none => .error (.error "invalid transaction")
  | some transaction =>
      .ok
        { address := (transaction.to_.map toLowerCase).getD "undefined",
          amount := parseText (some transaction.value),
          txid := transaction.hash.getD "undefined" }

/-- `EVM.verifyPayment({ paymentOption, transaction })`: the first output, and
no word of the chain. -/
def verifyPayment (parseTransaction : ParseTransaction) (option : PaymentOption)
    (transaction : Transaction) : Except Failure Bool :=
  match option.outputs with
  | none => .error .typeError
  | some outputs => do
      let output ← parsePayments parseTransaction transaction.txhex
      match outputs with
      | [] => .error .typeError
      | expectedOutput :: _ =>
          let correctAddress := toLowerCase output.address == toLowerCase expectedOutput.address
          let correctAmount :=
            sameAmount expectedOutput (output.amount.bind fun n => parseInt (render n))
          .ok (correctAmount && correctAddress)

end EVM

namespace ERC20

/-- What `parseERC20Transfer` reads. -/
structure Transfer where
  address : String
  amount : Nat
  symbol : String

/-- `this.parseERC20Transfer(transaction)`. -/
def parseERC20Transfer (transaction : EthersTransaction) : Except Failure Transfer :=
  match transferCall transaction.data with
  | none => .error (.error "NO ERC20 TRANSFER")
  | some (address, amount) =>
      .ok { address, amount := toNumber (hexToDec amount), symbol := stringOf transaction.to_ }

/-- What `fetchERC20Transfer` reads. -/
structure Fetched where
  address : String
  amount : Option Nat
  token : String

/-- The chain id of Polygon, whose node `fetchERC20Transfer` asks whatever the
plugin. -/
def polygon : Nat := 137

/-- `this.fetchERC20Transfer({ txid })`. -/
def fetchERC20Transfer (node : Nat → String → Option ChainTransaction) (txid : String) :
    Except Failure Fetched :=
  match node polygon txid with
  | none => .error .typeError
  | some result =>
      match transferCall result.input with
      | none => .error (.error "NO ERC20 TRANSFER")
      | some (address, amount) =>
          match result.to_ with
          | none => .error .typeError
          | some to_ =>
              .ok { address, amount := parseText (hexToDec amount), token := toLowerCase to_ }

/-- The first attempt: the transfer in the transaction submitted. -/
def verifyTransaction (plugin : EvmPlugin) (parseTransaction : ParseTransaction)
    (expectedOutput : Option Output) (txhex : String) : Except Failure Bool :=
  match parseTransaction txhex with
  | none => .error (.error "invalid transaction")
  | some transaction => do
      let output ← parseERC20Transfer transaction
      match expectedOutput with
      | none => .error .typeError
      | some expectedOutput =>
          let correctAddress := toLowerCase output.address == toLowerCase expectedOutput.address
          let correctAmount := sameAmount expectedOutput (parseInt (render output.amount))
          let correctToken := some (toLowerCase output.symbol) == plugin.token.map toLowerCase
          .ok (correctToken && correctAmount && correctAddress)

/-- The second attempt: the transfer Polygon has under the hash submitted. -/
def verifyHash (plugin : EvmPlugin) (node : Nat → String → Option ChainTransaction)
    (expectedOutput : Option Output) (hash : String) : Except Failure Bool := do
  let parsed ← fetchERC20Transfer node hash
  if some parsed.token ≠ plugin.token then
    .error (.error ("Not " ++ plugin.token.getD "undefined" ++ " Transfer"))
  else
    match expectedOutput with
    | none => .error .typeError
    | some expectedOutput =>
        let correctAddress := toLowerCase parsed.address == toLowerCase expectedOutput.address
        let correctAmount := sameAmount expectedOutput parsed.amount
        .ok (correctAmount && correctAddress)

/-- `ERC20.verifyPayment({ paymentOption, transaction })`: whatever throws in
the first attempt, the second is made; whatever throws there, it is false. -/
def verifyPayment (plugin : EvmPlugin) (parseTransaction : ParseTransaction)
    (node : Nat → String → Option ChainTransaction) (option : PaymentOption)
    (transaction : Transaction) : Except Failure Bool :=
  match option.outputs with
  | none => .error .typeError
  | some outputs =>
      match verifyTransaction plugin parseTransaction outputs.head? transaction.txhex with
      | .ok verified => .ok verified
      | .error _ =>
          match verifyHash plugin node outputs.head?
              (orElse transaction.txid transaction.txhex) with
          | .ok verified => .ok verified
          | .error _ => .ok false

/-- `ERC20.parsePayments({ txhex })`: a transfer of another token, and what is
no transfer, holds no payment. -/
def parsePayments (plugin : EvmPlugin) (parseTransaction : ParseTransaction)
    (txhex : String) : Except Failure (List EvmPayment) :=
  match parseTransaction txhex with
  | none => .error (.error "invalid transaction")
  | some transaction =>
      if transaction.to_.map toLowerCase ≠ plugin.token then .ok []
      else
        match transferCall transaction.data with
        | none => .ok []
        | some (address, amount) =>
            .ok [
              { currency := plugin.currency, chain := plugin.chain,
                address := toLowerCase address,
                amount := (parseText (hexToDec amount)).map fun n =>
                  (n : Rat) / 10 ^ plugin.decimals,
                txid := transaction.hash.getD "undefined" }]

end ERC20

/-- `plugin.verifyPayment` of either kind. -/
def EvmPlugin.verifyPayment (plugin : EvmPlugin) (parseTransaction : ParseTransaction)
    (node : Nat → String → Option ChainTransaction) (option : PaymentOption)
    (transaction : Transaction) : Except Failure Bool :=
  match plugin.token with
  | none => EVM.verifyPayment parseTransaction option transaction
  | some _ => ERC20.verifyPayment plugin parseTransaction node option transaction

end Anypay
