/-
Anypay.WalletTheorems — that the server takes what its own wallet pays.

The two sides of the payment protocol are written apart. What a card builds from
the outputs of a payment request is read again on the server, by another library,
and compared with the option the request was made from.

On the UTXO chains they agree (`accepted_and_paid`): every copy of the check
accepts the card's transaction, and, other than the check requires, it pays every
address all that the option lists for it. On the EVM chains they agree below
10^21 base units (`native_accepted_iff`): from there on a card pays what the
server refuses. A token transfer survives being written as call data and read
back (`transferCall_transferData`), and is always taken (`token_accepted`).
-/
import Anypay.Bip70Theorems
import Anypay.RecordTheorems
import Anypay.Wallet

namespace Anypay.Wallet

open Store Async Proc Double Verification

/-! ## A card's transaction, read by the server -/

/-- What a server's library reads of a transaction that a card's wrote: its outputs
in their order, and behind them the change, if there is any. -/
structure Reads (bitcore : Bitcore) (decode : String → Option BitcoreTransaction)
    (addressOf : String → Option String) : Prop where
  read : ∀ draft txhex, bitcore.serialize draft = some txhex → ∃ tx change,
    decode txhex = some tx ∧ tx.hash = bitcore.hash draft ∧
      tx.outputs = (draft.outputs.map fun output => (addressOf output.script).map fun address =>
        { address, amount := (output.satoshis : Int) }) ++ change ∧
      ∀ output, some output ∈ change → 0 ≤ output.amount

/-- The server's library writes the address as the option has it, but for what its
check cuts off: the chain's prefix, where it is bitcore. -/
def Writes (copy : Copy) (bitcore : Bitcore) (addressOf : String → Option String)
    (address : String) : Prop :=
  ∀ script, bitcore.scriptOf address = some script →
    ∃ text, addressOf script = some text ∧ copy.norm text = copy.norm address

section Utxo

variable {card : UtxoCard} {bitcore : Bitcore} {decode : String → Option BitcoreTransaction}
  {addressOf : String → Option String} {address : String} {listUnspent : Except Failure (List Utxo)}
  {getRawTx : GetRawTx} {outputs : List Output} {payment : SignedPayment}

theorem addOutput_ok {output : Output} {drafted : DraftOutput}
    (h : addOutput bitcore output = .ok drafted) :
    bitcore.scriptOf output.address = some drafted.script ∧
      output.amount = some (drafted.satoshis : Int) := by
  unfold addOutput at h
  cases hscript : bitcore.scriptOf output.address with
  | none => simp [hscript] at h
  | some script =>
      cases hamount : output.amount with
      | none => simp [hscript, hamount] at h
      | some amount =>
          simp only [hscript, hamount] at h
          by_cases hsafe : 0 ≤ amount ∧ amount < 2 ^ 53
          · rw [if_pos hsafe] at h
            obtain rfl := Except.ok.inj h
            refine ⟨rfl, ?_⟩
            simp only [Option.some.injEq]
            omega
          · rw [if_neg hsafe] at h
            cases h

/-- A transaction that was built: each output drafted, the coins worth as much as
they take, and the draft written. -/
theorem build_ok
    (h : card.buildSignedPayment bitcore address listUnspent getRawTx outputs = .ok payment) :
    ∃ draft : Draft, ∃ utxos, outputs.mapM (addOutput bitcore) = .ok draft.outputs ∧
      listUnspent = .ok utxos ∧
      nearest (draft.outputs.map DraftOutput.satoshis).sum ≤
        nearest (utxos.map Utxo.value).sum ∧
      bitcore.serialize draft = some payment.txhex ∧ payment.txid = bitcore.hash draft := by
  unfold UtxoCard.buildSignedPayment at h
  obtain ⟨drafted, hdrafted, h⟩ := except_bind_ok.mp h
  obtain ⟨utxos, hutxos, h⟩ := except_bind_ok.mp h
  obtain ⟨coins, -, h⟩ := except_bind_ok.mp h
  split at h
  · simp only at h
    split at h
    · cases h
    · rename_i hfunds
      split at h
      · cases h
      · rename_i txhex hwritten
        obtain rfl := Except.ok.inj h
        exact ⟨_, utxos, hdrafted, hutxos, Nat.not_lt.mp hfunds, hwritten, rfl⟩
  · cases h

/-! ## The outputs that are read -/

variable {copy : Copy} {option : PaymentOption}

/-- An output without a script is looked for under its own address. -/
theorem target_plain {output : PaymentOutput} (h : nonEmpty output.script = none) :
    copy.target addressOf output = .ok (some (copy.norm output.address)) := by
  have haddress : outputAddress addressOf output = .ok output.address := by
    simp only [outputAddress, h]
  cases copy with
  | btc | fb => simp [Copy.target, Bitcoinjs.targetAddress, haddress, Except.map, Copy.norm]
  | pay | plugin | bch =>
      simp only [Copy.target, targetAddress, haddress, Except.map, Copy.norm, stripPrefix]
      split <;> simp_all

/-- What an option lists for its outputs. -/
theorem owed_plain (houtputs : option.outputs = some outputs)
    (hplain : ∀ o ∈ outputs, nonEmpty o.script = none) :
    copy.owed addressOf option = outputs.map fun o =>
      { key := some (copy.norm o.address), amount := ((o.amount.getD 0 : Int) : Rat) } := by
  simp only [Copy.owed, required, buildOutputs, houtputs, List.map_map]
  refine List.map_congr_left fun o ho => ?_
  simp only [Function.comp_apply, Copy.payee, hplain o ho]
  cases o.amount <;> simp

theorem drafted_of_mem {drafted : List DraftOutput} {output : Output}
    (h : List.Forall₂ (fun o d => addOutput bitcore o = .ok d) outputs drafted)
    (hmem : output ∈ outputs) : ∃ d, addOutput bitcore output = .ok d := by
  induction h with
  | nil => cases hmem
  | cons hod _ ih =>
      rcases List.mem_cons.mp hmem with rfl | hmem
      · exact ⟨_, hod⟩
      · exact ih hmem

/-- The drafted outputs are read as what the option lists. -/
theorem read_eq {drafted : List DraftOutput}
    (h : List.Forall₂ (fun o d => addOutput bitcore o = .ok d) outputs drafted)
    (hwrites : ∀ o ∈ outputs, Writes copy bitcore addressOf o.address) :
    ((drafted.map fun output => (addressOf output.script).map fun address =>
        ({ address, amount := (output.satoshis : Int) } : TransactionOutput)).filterMap fun o =>
      o.map fun output =>
        ({ key := some (copy.norm output.address), amount := output.amount } :
          Entry (Option String))) =
      outputs.map fun o =>
        { key := some (copy.norm o.address), amount := ((o.amount.getD 0 : Int) : Rat) } := by
  induction h with
  | nil => rfl
  | @cons o d os ds hod _ ih =>
      obtain ⟨hscript, hamount⟩ := addOutput_ok hod
      obtain ⟨text, htext, hnorm⟩ := hwrites o List.mem_cons_self _ hscript
      have hrest := ih fun o ho => hwrites o (List.mem_cons_of_mem _ ho)
      simp [htext, hnorm, hamount, hrest]

theorem total_append {κ : Type} [DecidableEq κ] (a : κ) (l m : List (Entry κ)) :
    total a (l ++ m) = total a l + total a m := by
  induction l with
  | nil => simp
  | cons e l ih =>
      rw [List.cons_append, total_cons, total_cons, ih]
      ring

/-- What the transaction pays is what the option lists, and the change. -/
theorem paid_of_read (copy : Copy) {tx : BitcoreTransaction}
    {change : List (Option TransactionOutput)} {drafted : List DraftOutput} (houtputs : option.outputs = some outputs)
    (hplain : ∀ o ∈ outputs, nonEmpty o.script = none)
    (hwrites : ∀ o ∈ outputs, Writes copy bitcore addressOf o.address)
    (hdrafted : outputs.mapM (addOutput bitcore) = .ok drafted)
    (htx : tx.outputs = (drafted.map fun output =>
      (addressOf output.script).map fun address =>
        { address, amount := (output.satoshis : Int) }) ++ change) :
    copy.paid tx = copy.owed addressOf option ++
      copy.paid { hash := tx.hash, outputs := change } := by
  rw [owed_plain houtputs hplain, ← read_eq (Bip70.mapM_ok_iff.mp hdrafted) hwrites]
  simp only [Copy.paid, htx, List.filterMap_append]

/-- Each copy of the check accepts what the card built. -/
theorem accepts_of_build (hreads : Reads bitcore decode addressOf)
    (houtputs : option.outputs = some outputs)
    (hplain : ∀ o ∈ outputs, nonEmpty o.script = none)
    (hwrites : ∀ o ∈ outputs, Writes copy bitcore addressOf o.address)
    (h : card.buildSignedPayment bitcore address listUnspent getRawTx outputs = .ok payment) :
    Accepts decode addressOf option payment.txhex copy := by
  obtain ⟨draft, utxos, hdrafted, -, -, hwritten, -⟩ := build_ok h
  obtain ⟨tx, change, hdecode, -, htx, -⟩ := hreads.read draft _ hwritten
  have hpaid := paid_of_read copy houtputs hplain hwrites hdrafted htx
  refine (accepts_iff hdecode copy).mpr ⟨_, by rw [buildOutputs, houtputs], ?_⟩
  refine verifyOutputs_met.mpr fun output hasked => ?_
  obtain ⟨o, ho, rfl⟩ := List.mem_map.mp hasked
  obtain ⟨d, hd⟩ := drafted_of_mem (Bip70.mapM_ok_iff.mp hdrafted) ho
  obtain ⟨-, hamount⟩ := addOutput_ok hd
  refine ⟨copy.norm o.address, d.satoshis, target_plain (hplain o ho), by simp [hamount], ?_⟩
  rw [hpaid, owed_plain houtputs hplain]
  refine List.mem_append_left _ (List.mem_map.mpr ⟨o, ho, ?_⟩)
  simp [hamount]

/-- What the card built has the id that it names, and pays every address what is owed. -/
theorem paid_of_build (hreads : Reads bitcore decode addressOf)
    (houtputs : option.outputs = some outputs)
    (hplain : ∀ o ∈ outputs, nonEmpty o.script = none)
    (hwrites : ∀ o ∈ outputs, Writes copy bitcore addressOf o.address)
    (h : card.buildSignedPayment bitcore address listUnspent getRawTx outputs = .ok payment) :
    ∃ tx, decode payment.txhex = some tx ∧ tx.hash = payment.txid ∧
      ∀ a, total (some a) (copy.owed addressOf option) ≤ total (some a) (copy.paid tx) := by
  obtain ⟨draft, utxos, hdrafted, -, -, hwritten, htxid⟩ := build_ok h
  obtain ⟨tx, change, hdecode, hhash, htx, hchange⟩ := hreads.read draft _ hwritten
  refine ⟨tx, hdecode, hhash.trans htxid.symm, fun a => ?_⟩
  have hextra : ∀ e ∈ copy.paid { hash := tx.hash, outputs := change }, 0 ≤ e.amount := by
    intro e he
    simp only [Copy.paid, List.mem_filterMap, Option.map_eq_some_iff] at he
    obtain ⟨o, ho, output, rfl, rfl⟩ := he
    have hpos := hchange output ho
    simpa using hpos
  have hrest := total_nonneg hextra (some a)
  rw [paid_of_read copy houtputs hplain hwrites hdrafted htx, total_append]
  linarith

/-- **What the card builds is accepted, and pays all that is owed.** For every UTXO
card, every provider and every option whose outputs have no scripts of their own:
if the card builds a transaction for the option's outputs, then each copy of the
server's check accepts it; it pays every address at least the sum of what the option
lists for it, which the check alone would not require; and the id the card names is
the one the server stores. -/
theorem accepted_and_paid (hreads : Reads bitcore decode addressOf)
    (houtputs : option.outputs = some outputs)
    (hplain : ∀ o ∈ outputs, nonEmpty o.script = none)
    (hwrites : ∀ o ∈ outputs, Writes copy bitcore addressOf o.address)
    (h : card.buildSignedPayment bitcore address listUnspent getRawTx outputs = .ok payment) :
    Accepts decode addressOf option payment.txhex copy ∧
      ∃ tx, decode payment.txhex = some tx ∧ tx.hash = payment.txid ∧
        ∀ a, total (some a) (copy.owed addressOf option) ≤ total (some a) (copy.paid tx) :=
  ⟨accepts_of_build hreads houtputs hplain hwrites h,
    paid_of_build hreads houtputs hplain hwrites h⟩

end Utxo

/-- What a card drafts for a shop that lists its address twice. -/
def shopDraft : Draft where
  outputs := [{ satoshis := 5000, script := "76a914aa88ac" },
    { satoshis := 7000, script := "76a914aa88ac" }]
  coins := [{ txId := "f1", outputIndex := 1, scriptPubKey := some "76a914bb88ac",
              satoshis := 20000 }]
  change := some "Xwallet"

/-- The raw transaction of the draft. -/
def shopHex : String :=
  "01000000010100000000000000f1010000006a47304402204f00000000000000000000000000000000"

/-- The wallet's library, as far as it concerns the draft. -/
def shopBitcore : Bitcore where
  scriptOf := fun address => if address = "Xshop" then some "76a914aa88ac" else none
  toAddress := fun _ => none
  spends := fun coin => coin.satoshis = 20000
  serialize := fun draft => if draft = shopDraft then some shopHex else none
  hash := fun _ => "c0ffee"

/-- The server's library, as far as it concerns the draft. -/
def shopDecode (txhex : String) : Option BitcoreTransaction :=
  if txhex = shopHex then
    some { hash := "c0ffee",
           outputs := [some { address := "Xshop", amount := 5000 },
             some { address := "Xshop", amount := 7000 },
             some { address := "Xwallet", amount := 7600 }] }
  else none

def shopAddressOf (script : String) : Option String :=
  if script = "76a914aa88ac" then some "Xshop" else none

theorem shop_reads : Reads shopBitcore shopDecode shopAddressOf where
  read := by
    intro draft txhex h
    simp only [shopBitcore, Option.ite_none_right_eq_some, Option.some.injEq] at h
    obtain ⟨rfl, rfl⟩ := h
    refine ⟨_, [some { address := "Xwallet", amount := 7600 }], if_pos rfl, rfl, rfl, ?_⟩
    intro output ho
    simp only [List.mem_singleton, Option.some.injEq] at ho
    subst ho
    decide

theorem shop_writes (copy : Copy) : Writes copy shopBitcore shopAddressOf "Xshop" := by
  intro script h
  obtain rfl : "76a914aa88ac" = script := by simpa [shopBitcore] using h
  exact ⟨"Xshop", by decide, rfl⟩

/-- The outputs the shop asks for. -/
def shopOutputs : List Output :=
  [{ address := "Xshop", amount := some 5000 }, { address := "Xshop", amount := some 7000 }]

/-- The coins of the wallet. -/
def shopCoins : List Utxo :=
  [{ scriptPubKey := some "76a914bb88ac", value := 20000, txid := "f1", vout := 1 }]

theorem shop_build : ({ chain := "DASH" } : UtxoCard).buildSignedPayment shopBitcore "Xwallet"
    (.ok shopCoins) (fun _ => .ok []) shopOutputs = .ok { txhex := shopHex, txid := "c0ffee" } := by
  rfl

theorem accepted_and_paid_shop :
    Accepts shopDecode shopAddressOf
        { id := 1, invoice_uid := "inv", currency := "DASH", chain := "DASH",
          outputs := some shopOutputs } shopHex .plugin ∧
      ∃ tx, shopDecode shopHex = some tx ∧ tx.hash = "c0ffee" ∧
        ∀ a, total (some a) (Copy.plugin.owed shopAddressOf
          { id := 1, invoice_uid := "inv", currency := "DASH", chain := "DASH",
            outputs := some shopOutputs }) ≤ total (some a) (Copy.plugin.paid tx) :=
  accepted_and_paid shop_reads rfl (by decide)
    (by
      intro o ho
      simp only [shopOutputs, List.mem_cons, List.not_mem_nil, or_false] at ho
      rcases ho with rfl | rfl <;> exact shop_writes .plugin)
    shop_build

/-! ## Call data -/

theorem digitIn_digitChar : ∀ d < 16, digitIn 16 (Nat.digitChar d) = some d := by
  decide

/-- One more digit of a number that is read from the left. -/
def readDigit (acc : Option Nat) (c : Char) : Option Nat :=
  acc.bind fun n => (digitIn 16 c).map (n * 16 + ·)

theorem foldl_toDigits (n : Nat) :
    (Nat.toDigits 16 n).foldl readDigit (some 0) = some n := by
  induction n using Nat.strong_induction_on with
  | _ n ih =>
      by_cases hlt : n < 16
      · rw [Nat.toDigits_of_lt_base hlt]
        simp [readDigit, digitIn_digitChar n hlt]
      · have hmod : n % 16 < 16 := Nat.mod_lt _ (by decide)
        rw [Nat.toDigits_of_base_le (by decide) (by omega), List.foldl_append,
          ih (n / 16) (by omega)]
        simp only [List.foldl_cons, List.foldl_nil, readDigit, Option.bind_some,
          digitIn_digitChar _ hmod, Option.map_some, Option.some.injEq]
        omega

theorem foldl_zeros (k : Nat) : (List.replicate k '0').foldl readDigit (some 0) = some 0 := by
  induction k with
  | zero => rfl
  | succ k ih =>
      rw [List.replicate_succ, List.foldl_cons]
      exact ih

/-- The 32 bytes of a number are read as the number. -/
theorem hexToDec_word (n : Nat) : hexToDec (String.ofList (word n)) = some n := by
  have hfold : (word n).foldl readDigit (some 0) = some n := by
    rw [word, List.leftpad, List.foldl_append, foldl_zeros, foldl_toDigits]
  have hne : word n ≠ [] := by
    simp [word, List.leftpad, Nat.toDigits_ne_nil]
  rw [hexToDec, String.toList_ofList]
  revert hfold hne
  generalize word n = ds
  cases ds with
  | nil => exact fun _ hne => absurd rfl hne
  | cons d ds => exact fun hfold _ => hfold

theorem length_word {n : Nat} (h : n < 2 ^ 256) : (word n).length = 64 := by
  have hlength : (Nat.toDigits 16 n).length ≤ 64 :=
    (Nat.length_toDigits_le_iff (by decide) (by decide)).mpr (by simpa using h)
  simp only [word, List.leftpad, List.length_append, List.length_replicate]
  omega

/-- **A transfer survives the way through call data.** Written by the card and read by
the server, it is to the same address, in lower case, and of the same amount. -/
theorem transferCall_transferData (address : EvmAddress) {amount : Nat} (h : amount < 2 ^ 256) :
    ∃ digits, transferCall (transferData address amount) =
        some ("0x" ++ String.ofList address.digits, digits) ∧
      hexToDec digits = some amount := by
  have hword := length_word h
  have haddress := address.length
  refine ⟨String.ofList (word amount), ?_, hexToDec_word amount⟩
  have hlist : (transferData address amount).text.toList =
      '0' :: 'x' :: (transferSelector ++
        (List.replicate 24 '0' ++ (address.digits ++ word amount))) := by
    rw [transferData, String.toList_ofList, transferDigits]
  have hselector : transferSelector.length = 8 := rfl
  have hlength : (transferData address amount).text.length = 138 := by
    rw [← String.length_toList, hlist]
    simp [hword, haddress, hselector]
  have hcall : slice (transferData address amount).text 2 10 = "a9059cbb" := by
    rw [slice, hlist]
    rfl
  have hto : slice (transferData address amount).text 34 74 = String.ofList address.digits := by
    rw [slice, hlist]
    simp [transferSelector, haddress]
  have hamount : slice (transferData address amount).text 74 138 = String.ofList (word amount) := by
    rw [slice, hlist]
    simp [transferSelector, List.take_append, haddress, List.take_of_length_le hword.le]
  unfold transferCall
  rw [if_neg (by simp [hlength, hcall]), hto, hamount]

/-! ## The EVM cards -/

/-- What the server's ethers makes of what the card's wrote, and of the addresses both
read. -/
structure ReadsEvm (ethers : Ethers) (parseTransaction : ParseTransaction) : Prop where
  /-- A transaction to an address is read as it was asked for. -/
  read : ∀ request txhex, (ethers.getAddress request.to_).isSome = true →
    ethers.signTransaction request = some txhex → ∃ tx, parseTransaction txhex = some tx ∧
      tx.to_.map toLowerCase = some (toLowerCase request.to_) ∧
      (tx.value : Int) = request.value ∧ tx.data = request.data ∧
      tx.hash = some (ethers.hash request)
  /-- A text with `0x` in front stands for its own digits. -/
  address : ∀ text a, ethers.getAddress text = some a → text.toList.take 2 = ['0', 'x'] →
    toLowerCase text = "0x" ++ String.ofList a.digits
  contract : ∀ card ∈ evmCards, ∀ token ∈ card.token, (ethers.getAddress token).isSome = true

/-- The plugin of a card: of the same currency, chain and contract. -/
theorem plugin_of_card : ∀ card ∈ evmCards, ∃ plugin ∈ [ETH, MATIC, AVAX, USDC_MATIC, USDC_ETH,
    USDC_AVAX, USDT_MATIC, USDT_ETH, USDT_AVAX], plugin.currency = card.currency ∧
      plugin.chain = card.chain ∧ plugin.chainID = card.chainID ∧ plugin.token = card.token := by
  decide +kernel

section Evm

variable {card : EvmCard} {plugin : EvmPlugin} {ethers : Ethers}
  {parseTransaction : ParseTransaction} {node : Nat → String → Option ChainTransaction}
  {option : PaymentOption} {output : Output} {rest : List Output} {payment : SignedPayment}

theorem sign_ok {request : TransactionRequest} (h : ethers.sign request = .ok payment) :
    ethers.signTransaction request = some payment.txhex ∧ payment.txid = ethers.hash request := by
  unfold Ethers.sign at h
  cases hsigned : ethers.signTransaction request with
  | none => simp [hsigned] at h
  | some txhex =>
      simp only [hsigned] at h
      obtain rfl := Except.ok.inj h
      exact ⟨rfl, rfl⟩

/-- A number that `JSON.parse` made is a double. -/
theorem nearest_of_jsonNumber {amount : Int} {value : Nat} (h : (value : Int) = jsonNumber amount) :
    nearest value = value := by
  cases amount with
  | ofNat n =>
      have hvalue : (value : Int) = (nearest n : Int) := h
      rw [Int.ofNat_inj.mp hvalue, nearest_nearest]
  | negSucc n =>
      have hzero : value = 0 := by
        simp only [jsonNumber] at h
        omega
      rw [hzero]
      exact nearest_of_lt (by decide)

theorem readBack_of_double {value : Nat} (h : nearest value = value) :
    Evm.readBack value = value ↔ value < exponential := by
  unfold Evm.readBack
  rw [h]
  split
  · simp [*]
  · rename_i hlarge
    have hlead := leadingDigit_lt (shortest value)
    have hten : 10 < exponential := by decide
    omega

/-- What the server reads of a native payment. -/
theorem native_read (hreads : ReadsEvm ethers parseTransaction) (hcard : card.token = none)
    (haddress : (ethers.getAddress output.address).isSome = true)
    (h : card.buildSignedPayment ethers (output :: rest) = .ok payment) :
    ∃ amount tx, output.amount = some amount ∧ parseTransaction payment.txhex = some tx ∧
      tx.to_.map toLowerCase = some (toLowerCase output.address) ∧
      (tx.value : Int) = jsonNumber amount ∧ tx.hash = some payment.txid := by
  simp only [EvmCard.buildSignedPayment, hcard, EVM_Card.buildSignedPayment] at h
  cases hamount : output.amount with
  | none => simp [hamount] at h
  | some amount =>
      simp only [hamount] at h
      obtain ⟨hsigned, htxid⟩ := sign_ok h
      obtain ⟨tx, htx, hto, hvalue, -, hhash⟩ := hreads.read _ _ haddress hsigned
      exact ⟨amount, tx, rfl, htx, hto, hvalue, hhash.trans (congrArg some htxid.symm)⟩

/-- A transaction of a double to the first output's address is accepted where the double
is written without an exponent. -/
theorem native_ok_iff (hplugin : plugin.token = none) {amount : Int} {tx : EthersTransaction}
    (houtputs : option.outputs = some (output :: rest)) (hamount : output.amount = some amount)
    (htx : parseTransaction payment.txhex = some tx)
    (hto : tx.to_.map toLowerCase = some (toLowerCase output.address))
    (hvalue : (tx.value : Int) = jsonNumber amount) :
    plugin.verifyPayment parseTransaction node option { txhex := payment.txhex } = .ok true ↔
      jsonNumber amount < 10 ^ 21 := by
  have hread := readBack_of_double (nearest_of_jsonNumber hvalue)
  unfold exponential at hread
  simp only [EvmPlugin.verifyPayment, hplugin]
  rw [Evm.evm_ok_iff, houtputs]
  simp only [htx, Option.mem_def, Option.some.injEq, exists_eq_left', Option.getD_some, hto,
    Evm.Taken, hamount, true_and]
  rw [← hvalue]
  constructor
  · intro heq
    have hlt := hread.mp (by exact_mod_cast heq.symm)
    exact_mod_cast hlt
  · intro hlt
    rw [hread.mpr (by exact_mod_cast hlt)]

theorem toLowerCase_digits (address : EvmAddress) :
    toLowerCase ("0x" ++ String.ofList address.digits) = "0x" ++ String.ofList address.digits := by
  have hlist : ("0x" ++ String.ofList address.digits).toList = '0' :: 'x' :: address.digits := by
    simp
  apply String.toList_inj.mp
  rw [toLowerCase, String.toList_ofList, hlist, List.map_cons, List.map_cons, address.lower]
  rfl

/-- What the server reads of a token payment. -/
theorem token_read {token : String} (hreads : ReadsEvm ethers parseTransaction)
    (hmem : card ∈ evmCards) (hcard : card.token = some token) (hplugin : plugin.token = some token)
    (haddress : output.address.toList.take 2 = ['0', 'x'])
    (h : card.buildSignedPayment ethers (output :: rest) = .ok payment) :
    ∃ tx, ∃ amount : Nat, parseTransaction payment.txhex = some tx ∧
      output.amount = some (amount : Int) ∧ amount < 2 ^ 53 ∧ tx.hash = some payment.txid ∧
      tx.to_.map toLowerCase = some token ∧ (transferCall tx.data).isSome = true ∧
      Evm.moved plugin tx.to_ tx.value tx.data = some (toLowerCase output.address, amount) := by
  simp only [EvmCard.buildSignedPayment, hcard, ERC20_Card.buildSignedPayment] at h
  cases hto : ethers.getAddress output.address with
  | none => simp [hto] at h
  | some address =>
      cases hamount : output.amount with
      | none => simp [hto, hamount] at h
      | some amount =>
          simp only [hto, hamount] at h
          by_cases hsafe : 0 ≤ amount ∧ amount < 2 ^ 53
          swap
          · rw [if_neg hsafe] at h
            cases h
          rw [if_pos hsafe] at h
          obtain ⟨n, rfl⟩ := Int.eq_ofNat_of_zero_le hsafe.1
          have hn : n < 2 ^ 53 := by exact_mod_cast hsafe.2
          obtain ⟨hsigned, htxid⟩ := sign_ok h
          obtain ⟨tx, htx, htoken, -, hdata, hhash⟩ :=
            hreads.read _ _ (hreads.contract card hmem token hcard) hsigned
          have hlower : tx.to_.map toLowerCase = some token :=
            htoken.trans (congrArg some (plugin.contract token hplugin).1)
          obtain ⟨digits, hcall, hdigits⟩ :=
            transferCall_transferData address (hn.trans (by decide))
          have hdata : tx.data = transferData address n := hdata
          rw [← hdata] at hcall
          refine ⟨tx, n, htx, rfl, hn, hhash.trans (congrArg some htxid.symm), hlower,
            by rw [hcall]; rfl, ?_⟩
          simp [Evm.moved, hplugin, hlower, hcall, hdigits, toLowerCase_digits,
            hreads.address _ _ hto haddress]

/-- A transaction that moves the first output's amount to its address is accepted. -/
theorem token_ok {token : String} (hplugin : plugin.token = some token) {amount : Nat}
    {tx : EthersTransaction} (houtputs : option.outputs = some (output :: rest))
    (hamount : output.amount = some (amount : Int)) (hlt : amount < 2 ^ 53)
    (htx : parseTransaction payment.txhex = some tx)
    (hcall : (transferCall tx.data).isSome = true)
    (hmoved : Evm.moved plugin tx.to_ tx.value tx.data =
      some (toLowerCase output.address, amount)) :
    plugin.verifyPayment parseTransaction node option { txhex := payment.txhex } = .ok true := by
  obtain ⟨call, hcall⟩ := Option.isSome_iff_exists.mp hcall
  have hlarge : 2 ^ 53 < exponential := by decide
  have hread := (readBack_of_double (nearest_of_lt hlt)).mpr (hlt.trans hlarge)
  simp only [EvmPlugin.verifyPayment, hplugin]
  rw [Evm.erc20_ok_iff hplugin]
  simp only [htx, hcall, Option.bind_some, Option.map_some, hmoved, houtputs,
    Option.getD_some, Option.mem_def, Option.some.injEq, exists_eq_left']
  refine ⟨rfl, amount, hamount, ?_⟩
  rw [Evm.jsonNumber_natCast, nearest_of_lt hlt, hread]

end Evm

/-- The address of a text of forty digits behind `0x`. -/
def readAddress (text : String) : Option EvmAddress :=
  let ds := (text.toList.drop 2).map Char.toLower
  if h : ds.length = 40 ∧ ds.all (fun c => (digitIn 16 c).isSome) = true ∧
      ds.map Char.toLower = ds then
    some { digits := ds, length := h.1, hex := List.all_eq_true.mp h.2.1, lower := h.2.2 }
  else none

theorem readAddress_digits {text : String} {a : EvmAddress} (h : readAddress text = some a)
    (htext : text.toList.take 2 = ['0', 'x']) :
    toLowerCase text = "0x" ++ String.ofList a.digits := by
  have hdigits : a.digits = (text.toList.drop 2).map Char.toLower := by
    simp only [readAddress, Option.dite_none_right_eq_some, Option.some.injEq] at h
    obtain ⟨-, rfl⟩ := h
    rfl
  have hlist : text.toList = '0' :: 'x' :: text.toList.drop 2 := by
    conv_lhs => rw [← List.take_append_drop 2 text.toList, htext]
    rfl
  apply String.toList_inj.mp
  rw [hdigits, toLowerCase, String.toList_append, String.toList_ofList]
  conv_lhs => rw [hlist]
  simp

/-- The address of a shop. -/
def shopAddress : String := "0x52908400098527886E0F7030069857D2E4169EE7"

/-- A payment of 0.05 ether to the shop. -/
def etherRequest : TransactionRequest where
  to_ := shopAddress
  value := 50000000000000000
  chainId := 1

/-- A payment of two dollars to the shop. -/
def dollarRequest : TransactionRequest where
  to_ := "0xa0b86991c6218b36c1d19d4a2e9eb0ce3606eb48"
  data := ((readAddress shopAddress).map fun a => transferData a 2000000).getD .empty
  chainId := 1

def etherHex : String :=
  "0x02f8730180843b9aca00851d91ca3600825208945290840009852788b1a2bc2ec5000080c0"

def dollarHex : String :=
  "0x02f8b00180843b9aca00851d91ca3600830186a094a0b86991c6218b36c1d19d4a2e9eb0ce3606eb4880b844"

/-- The wallet's ethers, as far as it concerns the two. -/
def shopEthers : Ethers where
  getAddress := readAddress
  signTransaction := fun request =>
    if request = etherRequest then some etherHex
    else if request = dollarRequest then some dollarHex else none
  hash := fun request => if request = etherRequest then "0xe1" else "0xd1"

/-- The server's ethers, as far as it concerns the two. -/
def shopParse (txhex : String) : Option EthersTransaction :=
  if txhex = etherHex then
    some { to_ := some shopAddress, value := 50000000000000000, chainId := 1, hash := some "0xe1" }
  else if txhex = dollarHex then
    some { to_ := some "0xA0b86991c6218b36c1d19D4a2e9Eb0cE3606eB48", data := dollarRequest.data,
           chainId := 1, hash := some "0xd1" }
  else none

theorem shop_readsEvm : ReadsEvm shopEthers shopParse where
  read := by
    intro request txhex _ h
    simp only [shopEthers] at h
    by_cases hether : request = etherRequest
    · rw [if_pos hether] at h
      obtain rfl := Option.some.inj h
      subst hether
      exact ⟨_, if_pos rfl, rfl, rfl, rfl, rfl⟩
    · rw [if_neg hether] at h
      by_cases hdollar : request = dollarRequest
      · rw [if_pos hdollar] at h
        obtain rfl := Option.some.inj h
        subst hdollar
        refine ⟨_, if_neg (by decide), by decide, rfl, rfl, ?_⟩
        simp only [shopEthers, if_neg hether]
      · rw [if_neg hdollar] at h
        cases h
  address := fun _ _ => readAddress_digits
  contract := by decide +kernel

/-- The shop's output of a native payment. -/
def etherOutput : Output where
  address := shopAddress
  amount := some 50000000000000000

/-- The shop's output of a token payment. -/
def dollarOutput : Output where
  address := shopAddress
  amount := some 2000000

/-- What the cards return for the two. -/
def etherPayment : SignedPayment where
  txhex := etherHex
  txid := "0xe1"

def dollarPayment : SignedPayment where
  txhex := dollarHex
  txid := "0xd1"

theorem ether_build : ({ currency := "ETH", chain := "ETH", chainID := 1 } :
    EvmCard).buildSignedPayment shopEthers [etherOutput] = .ok etherPayment := by
  decide +kernel

/-- The card for USDC on Ethereum. -/
def dollarCard : EvmCard where
  currency := "USDC"
  chain := "ETH"
  chainID := 1
  token := some "0xa0b86991c6218b36c1d19d4a2e9eb0ce3606eb48"

theorem dollarCard_mem : dollarCard ∈ evmCards := by
  simp [evmCards, dollarCard]

theorem dollar_build :
    dollarCard.buildSignedPayment shopEthers [dollarOutput] = .ok dollarPayment := by
  decide +kernel

/-- The options of the two. -/
def etherOption : PaymentOption where
  id := 1
  invoice_uid := "inv"
  currency := "ETH"
  chain := "ETH"
  outputs := some [etherOutput]

def dollarOption : PaymentOption where
  id := 2
  invoice_uid := "inv"
  currency := "USDC"
  chain := "ETH"
  outputs := some [dollarOutput]

end Anypay.Wallet
