/-
Anypay.Chains.Registry — `config/plugins.ts`: the registered plugins.

Each plugin is put together from the functions of its class, with the chain
libraries as a parameter. Broadcasting and confirming go to a provider, so they
are answers, except where a class decides something of its own (`EVM`).
-/
import Anypay.Chains.Others
import Anypay.Confirmations

namespace Anypay

/-- The libraries the plugins read transactions with. -/
structure ChainLibraries extends Libraries where
  /-- `new bitcore.Transaction(txhex)` and `new bitcore.Address(script)` of a
  chain. -/
  bitcore : String → String → Option BitcoreTransaction := fun _ _ => none
  addressOf : String → String → Option String := fun _ _ => none
  bitcoinjs : Bitcoinjs := { fromHex := fun _ => none, fromOutputScript := fun _ => none }
  parseTransaction : ParseTransaction := fun _ => none

/-- `Plugin.parsePayments({ txhex })`: one payment for each output that has an
address, all under the transaction's hash. -/
def Plugin.bitcorePayments (plugin : Plugin) (txhex : String) :
    Except Failure (List String) := do
  let tx ← plugin.decode txhex
  .ok ((addressedOutputs tx).map fun _ => tx.hash)

/-- `BTC.parsePayments({ txhex })` and its copy in FB. -/
def Bitcoinjs.paymentIds (bitcoin : Bitcoinjs) (txhex : String) :
    Except Failure (List String) :=
  match bitcoin.fromHex txhex with
  | some tx => .ok ((tx.outputs.filterMap id).map fun _ => tx.hash)
  | none => .error (.error "invalid transaction")

/-- The id of a payment; one that is undefined is refused by Prisma. -/
def paymentId (id : Option String) : Except Failure (List String) :=
  match id with
  | some id => .ok [id]
  | none => .error (.invalidValue "payments")

/-! ## The classes -/

/-- The decoding part of a chain with a bitcore library. -/
def bitcorePlugin (libraries : ChainLibraries) (currency : String) : Plugin where
  currency := currency
  chain := currency
  decimals := 8
  bitcore := some (libraries.bitcore currency)
  addressOf := libraries.addressOf currency

/-- `BSV`, `DASH`, `LTC`, `DOGE`, and `BCH` with its copy of the check. -/
def UTXO.plugin (libraries : ChainLibraries) (currency : String) : Plugin :=
  let plugin := bitcorePlugin libraries currency
  { plugin with
    verifyPayment := fun option transaction _ => plugin.validateUnsignedTx option [transaction]
    parsePayments := fun transaction _ => plugin.bitcorePayments transaction.txhex }

def BTC.plugin (libraries : ChainLibraries) : Plugin :=
  { bitcorePlugin libraries "BTC" with
    verifyPayment := fun option transaction _ =>
      BTC.validateUnsignedTx libraries.bitcoinjs option [transaction]
    parsePayments := fun transaction _ => libraries.bitcoinjs.paymentIds transaction.txhex }

def FB.plugin (libraries : ChainLibraries) : Plugin :=
  { bitcorePlugin libraries "FB" with
    verifyPayment := fun option transaction _ =>
      FB.validateUnsignedTx libraries.bitcoinjs option [transaction]
    parsePayments := fun transaction _ => libraries.bitcoinjs.paymentIds transaction.txhex }

/-- The plugins of the EVM chains and their tokens. -/
def EvmPlugin.plugin (plugin : EvmPlugin) (libraries : ChainLibraries) : Plugin where
  currency := plugin.currency
  chain := plugin.chain
  decimals := plugin.decimals
  token := plugin.token
  verifyPayment := fun option transaction c =>
    plugin.verifyPayment libraries.parseTransaction c.chainTransaction option transaction
  broadcastTx := EVM.broadcastTx
  parsePayments := fun transaction _ =>
    match plugin.token with
    | none =>
        (EVM.parsePayments libraries.parseTransaction transaction.txhex).map fun payment =>
          [payment.txid]
    | some _ =>
        (ERC20.parsePayments plugin libraries.parseTransaction transaction.txhex).map
          fun payments => payments.map EvmPayment.txid
  getConfirmation := EVM.getConfirmation

def XRP.plugin (libraries : ChainLibraries) : Plugin where
  currency := "XRP"
  chain := "XRP"
  decimals := 6
  roundSatoshis := true
  verifyPayment := fun option transaction _ =>
    XRP.verifyPayment libraries.toLibraries option transaction
  parsePayments := fun transaction _ =>
    match XRP.parsePayments libraries.toLibraries transaction.txhex with
    | .ok (payment :: _) => paymentId payment.txid
    | .ok [] => .ok []
    | .error e => .error e

def SOL.plugin (libraries : ChainLibraries) : Plugin where
  currency := "SOL"
  chain := "SOL"
  decimals := 0
  verifyPayment := fun option transaction _ =>
    SOL.verifyPayment libraries.toLibraries option transaction
  parsePayments := fun transaction _ => SOL.parsePayments transaction.txhex

/-- `USDC_SOL` and `USDT_SOL`, which are not implemented. -/
def tokenOfSolana (currency token : String) : Plugin where
  currency := currency
  chain := "SOL"
  decimals := 6
  token := some token
  verifyPayment := fun _ _ _ => .error (.error "")
  parsePayments := fun _ _ => .error (.error "")

def XLM.plugin : Plugin where
  currency := "XLM"
  chain := "XLM"
  decimals := 0
  verifyPayment := fun _ _ _ => .ok false
  broadcastTx := fun _ _ => .error (.error "")
  parsePayments := fun _ _ => .error (.error "")
  getConfirmation := fun _ _ => .error (.error "")

def XMR.plugin (libraries : ChainLibraries) : Plugin where
  currency := "XMR"
  chain := "XMR"
  decimals := 12
  verifyPayment := fun option transaction _ =>
    XMR.verifyPayment libraries.toLibraries option transaction
  parsePayments := fun _ _ => .error (.error "")

/-! ## The registry -/

/-- `plugins`. -/
def plugins (libraries : ChainLibraries) : List (String × Plugin) :=
  [("BTC", BTC.plugin libraries), ("BSV", UTXO.plugin libraries "BSV"),
   ("BCH", UTXO.plugin libraries "BCH"), ("DASH", UTXO.plugin libraries "DASH"),
   ("LTC", UTXO.plugin libraries "LTC"), ("DOGE", UTXO.plugin libraries "DOGE"),
   ("AVAX", AVAX.plugin libraries), ("ETH", ETH.plugin libraries),
   ("SOL", SOL.plugin libraries), ("XRP", XRP.plugin libraries), ("XLM", XLM.plugin),
   ("XMR", XMR.plugin libraries), ("MATIC", MATIC.plugin libraries),
   ("USDC.AVAX", USDC_AVAX.plugin libraries), ("USDC.MATIC", USDC_MATIC.plugin libraries),
   ("USDC.ETH", USDC_ETH.plugin libraries),
   ("USDC.SOL", tokenOfSolana "USDC" "EPjFWdd5AufqSSqeM2qN1xzybapC8G4wEGGkZwyTDt1v"),
   ("USDT.AVAX", USDT_AVAX.plugin libraries), ("USDT.MATIC", USDT_MATIC.plugin libraries),
   ("USDT.ETH", USDT_ETH.plugin libraries),
   ("USDT.SOL", tokenOfSolana "USDT" "Es9vMFrzaCERmJfrF4H2FYD4KCoNkY11McCe8BenwNYB"),
   ("FB", FB.plugin libraries)]

/-- The keys of the registry, whatever the libraries. -/
def pluginKeys : List String := [
  "BTC", "BSV", "BCH", "DASH", "LTC", "DOGE", "AVAX", "ETH", "SOL", "XRP", "XLM", "XMR",
  "MATIC", "USDC.AVAX", "USDC.MATIC", "USDC.ETH", "USDC.SOL", "USDT.AVAX", "USDT.MATIC",
  "USDT.ETH", "USDT.SOL", "FB"]

theorem mem_keys {libraries : ChainLibraries} {env : Env} {currency chain : String}
    {plugin : Plugin} (hplugins : env.plugins = plugins libraries)
    (h : find env currency chain = .ok plugin) : pluginKey currency chain ∈ pluginKeys := by
  have hkeys : (plugins libraries).map Prod.fst = pluginKeys := rfl
  have hmem := mem_of_find h
  rw [hplugins] at hmem
  rw [← hkeys]
  exact List.mem_map.mpr ⟨_, hmem, rfl⟩

/-- No key is the currency of another one. -/
theorem keys_apart : ∀ k ∈ pluginKeys, ∀ k' ∈ pluginKeys, ¬ (k ++ ".").toList <+: k'.toList := by
  decide +kernel

/-- A currency that is a chain's own coin is on no other chain. -/
theorem chain_of_find {libraries : ChainLibraries} {env : Env} {currency chain : String}
    {plugin plugin' : Plugin} (hplugins : env.plugins = plugins libraries)
    (h : find env currency currency = .ok plugin) (h' : find env currency chain = .ok plugin') :
    chain = currency := by
  by_contra hne
  have hown := mem_keys hplugins h
  have hother := mem_keys hplugins h'
  have hkey : pluginKey currency currency = currency := if_pos rfl
  have hkey' : pluginKey currency chain = currency ++ "." ++ chain := if_neg hne
  rw [hkey] at hown
  rw [hkey'] at hother
  apply keys_apart _ hown _ hother
  rw [String.toList_append (s := currency ++ ".")]
  exact List.prefix_append _ _

end Anypay
