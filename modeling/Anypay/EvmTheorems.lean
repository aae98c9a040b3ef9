/-
Anypay.EvmTheorems — when an EVM plugin's verification is right.

`Pays` says what a submission must be: for the plugin's own chain, and moving, in
the plugin's asset, exactly the amount of EVERY output to that output's address.
`verifyPayment` looks at the first output only, reads the value through a double
(and, in a transaction submitted raw, through that double's text), never at the
chain id, and looks a hash up on Polygon. `Exact` is where all this makes no
difference, and `verifyPayment_iff` that it is exactly there.

`Taken read m outputs`: a transfer `m` is taken for a payment when its value is
read by `read`. Every path of the code is that with some `read` (`…_ok_iff`), so
one comparison of `Taken` with paying (`taken_iff_paid`) serves them all.
-/
import Anypay.Chains.Evm
import Anypay.Db.Rules

namespace Anypay

open Double

namespace Evm

/-! ## Texts and numbers -/

theorem toLower_toLower (c : Char) : c.toLower.toLower = c.toLower := by
  delta Char.toLower
  split
  · split
    · rename_i h h'
      simp only [ge_iff_le, UInt32.le_iff_toNat_le, UInt32.toNat_add, seval] at h h'
      omega
    · rfl
  · rfl

@[simp] theorem toLowerCase_toLowerCase (text : String) :
    toLowerCase (toLowerCase text) = toLowerCase text := by
  have htwice : Char.toLower ∘ Char.toLower = Char.toLower := funext toLower_toLower
  simp [toLowerCase, htwice]

/-- A run of digits of the base is a number. -/
theorem digits_isSome {base : Nat} {cs : List Char} (hne : cs ≠ [])
    (h : ∀ c ∈ cs, (digitIn base c).isSome = true) : ∃ n, digits base cs = some n := by
  have hfold : ∀ (cs : List Char) (n : Nat), (∀ c ∈ cs, (digitIn base c).isSome = true) →
      ∃ m, cs.foldl (fun acc c => acc.bind fun n => (digitIn base c).map (n * base + ·))
        (some n) = some m := by
    intro cs
    induction cs with
    | nil => exact fun n _ => ⟨n, rfl⟩
    | cons c cs ih =>
        intro n hall
        obtain ⟨d, hd⟩ := Option.isSome_iff_exists.mp (hall c List.mem_cons_self)
        simp only [List.foldl_cons, Option.bind_some, hd, Option.map_some]
        exact ih _ fun c' hc' => hall c' (List.mem_cons_of_mem c hc')
  unfold digits
  split
  · exact absurd rfl hne
  · exact hfold cs 0 h

/-- The amount of a transfer is a number. -/
theorem transferCall_amount {input : Calldata} {address amount : String}
    (h : transferCall input = some (address, amount)) : ∃ v, hexToDec amount = some v := by
  unfold transferCall at h
  split at h
  · cases h
  rename_i hcall
  cases h
  have hlength : input.text.toList.length = 138 := by
    rw [String.length_toList]
    exact not_not.mp (not_or.mp hcall).1
  unfold hexToDec slice
  rw [String.toList_ofList]
  refine digits_isSome (fun hnil => ?_) fun c hc => input.hex c ?_
  · have hzero := congrArg List.length hnil
    simp [hlength] at hzero
  · have hdrop : c ∈ input.text.toList.drop 74 := by
      rw [List.take_of_length_le (by omega)] at hc
      exact hc
    exact (List.drop_sublist_drop_left input.text.toList (by decide)).mem hdrop

/-- The value a double's text is read back as: the double, or from 10^21 on its
leading digit. -/
def readBack (value : Nat) : Nat :=
  if nearest value < exponential then nearest value
  else leadingDigit (shortest (nearest value))

theorem parseInt_render (value : Nat) :
    parseInt (render (nearest value)) = some (readBack value) := by
  unfold readBack
  split
  · rename_i h
    exact parseInt_render_of_lt (nearest_nearest value) h
  · rename_i h
    exact parseInt_render_of_ge (Nat.not_lt.mp h)

theorem sameAmount_iff {output : Output} {n : Nat} :
    sameAmount output (some n) = true ↔ ∃ a ∈ output.amount, jsonNumber a = n := by
  unfold sameAmount
  cases output.amount with
  | none => simp
  | some a => simp

/-! ## What a transaction pays -/

/-- The address and the amount of the plugin's asset that a transaction moves:
the value sent, or a call of the token's `transfer`. -/
def moved (plugin : EvmPlugin) (to_ : Option String) (value : Nat) (input : Calldata) :
    Option (String × Nat) :=
  match plugin.token with
  | none => to_.map fun to_ => (toLowerCase to_, value)
  | some token =>
      if to_.map toLowerCase = some token then
        (transferCall input).bind fun (address, amount) =>
          (hexToDec amount).map fun value => (toLowerCase address, value)
      else none

/-- A transfer of exactly what an output asks for, to its address. -/
def Paid (m : String × Nat) (output : Output) : Prop :=
  m.1 = toLowerCase output.address ∧ output.amount = some (m.2 : Int)

/-- What is on the EVM chains, by chain id: the transactions, and which of them
were reverted. -/
structure Chains where
  node : Nat → String → Option ChainTransaction
  reverted : Nat → String → Bool := fun _ _ => false

/-- A signed transaction for a chain: one that names it, or none. -/
def SignedFor (chainID : Nat) (transaction : EthersTransaction) : Prop :=
  transaction.chainId = chainID ∨ transaction.chainId = 0

/-- The hash that is looked up. -/
def hashOf (transaction : Transaction) : String :=
  orElse transaction.txid transaction.txhex

/-- A submission, a signed transaction or the hash of one, pays an option. -/
def Pays (plugin : EvmPlugin) (parseTransaction : ParseTransaction) (chains : Chains)
    (option : PaymentOption) (transaction : Transaction) : Prop :=
  match parseTransaction transaction.txhex with
  | some tx =>
      ∃ m ∈ moved plugin tx.to_ tx.value tx.data,
        SignedFor plugin.chainID tx ∧ ∀ output ∈ option.outputs.getD [], Paid m output
  | none =>
      ∃ tx ∈ chains.node plugin.chainID (hashOf transaction),
        ∃ m ∈ moved plugin tx.to_ tx.value tx.input,
          chains.reverted plugin.chainID (hashOf transaction) = false ∧
          ∀ output ∈ option.outputs.getD [], Paid m output

/-! ## What is taken for a payment -/

/-- The first output asks for the address, and for the amount that is read. -/
def Taken (read : Nat → Nat) (m : String × Nat) : List Output → Prop
  | [] => False
  | output :: _ =>
      m.1 = toLowerCase output.address ∧ ∃ a ∈ output.amount, jsonNumber a = read m.2

/-- To take a transfer for a payment is right: not to the first output; or of
another amount, and not read as the one asked for; or of that amount, and then
it is read back exactly where it is on the right chain and every other output
asks for the same. -/
def Decides (own : Prop) (read : Nat → Nat) (m : String × Nat) : List Output → Prop
  | [] => ¬ own
  | output :: rest =>
      m.1 = toLowerCase output.address → ∀ a ∈ output.amount,
        (a ≠ m.2 → jsonNumber a ≠ read m.2) ∧
        (a = m.2 → (nearest m.2 = read m.2 ↔ own ∧ ∀ output' ∈ rest, Paid m output'))

theorem jsonNumber_natCast (n : Nat) : jsonNumber (n : Int) = (nearest n : Int) := rfl

theorem taken_iff_paid {own : Prop} {read : Nat → Nat} {m : String × Nat}
    {outputs : List Output} :
    (Taken read m outputs ↔ own ∧ ∀ output ∈ outputs, Paid m output) ↔
      Decides own read m outputs := by
  cases outputs with
  | nil => simp [Taken, Decides]
  | cons output rest =>
      simp only [Taken, Decides, List.forall_mem_cons, Paid]
      by_cases haddress : m.1 = toLowerCase output.address
      swap
      · simp [haddress]
      cases hamount : output.amount with
      | none => simp
      | some a =>
          simp only [haddress, true_and, true_implies, Option.mem_def, Option.some.injEq,
            exists_eq_left', forall_eq']
          by_cases ha : a = m.2
          · subst ha
            simp [jsonNumber_natCast]
          · simp [ha]

/-! ## The paths of the code -/

theorem except_ok_true {b : Bool} : (Except.ok b : Except Failure Bool) = .ok true ↔ b = true := by
  simp

theorem evm_ok_iff {parseTransaction : ParseTransaction} {option : PaymentOption}
    {transaction : Transaction} :
    EVM.verifyPayment parseTransaction option transaction = .ok true ↔
      ∃ tx ∈ parseTransaction transaction.txhex,
        Taken readBack ((tx.to_.map toLowerCase).getD "undefined", tx.value)
          (option.outputs.getD []) := by
  unfold EVM.verifyPayment EVM.parsePayments
  cases option.outputs with
  | none => simp [Taken]
  | some outputs =>
      cases hparse : parseTransaction transaction.txhex with
      | none => simp [except_bind_ok]
      | some tx =>
          have haddress : toLowerCase ((tx.to_.map toLowerCase).getD "undefined") =
              (tx.to_.map toLowerCase).getD "undefined" := by
            cases tx.to_ with
            | none => rfl
            | some to_ => exact toLowerCase_toLowerCase to_
          have hamount : (parseText (some tx.value)).bind (fun n => parseInt (render n)) =
              some (readBack tx.value) := by
            simp only [parseText, Option.bind_some, parseInt_toDigits, parseInt_render]
          cases outputs with
          | nil => simp [except_bind_ok, Taken]
          | cons output rest =>
              simp only [except_bind_ok, Except.ok.injEq, exists_eq_left', hamount, haddress,
                Bool.and_eq_true, sameAmount_iff, beq_iff_eq, Option.mem_def, Option.some.injEq,
                Option.getD_some, Taken]
              exact and_comm

/-- The transaction Polygon has under a hash is taken for a payment. -/
def Looked (plugin : EvmPlugin) (node : Nat → String → Option ChainTransaction)
    (hash : String) (outputs : List Output) : Prop :=
  ∃ tx ∈ node ERC20.polygon hash,
    ∃ m ∈ moved plugin tx.to_ tx.value tx.input, Taken nearest m outputs

variable {plugin : EvmPlugin} {token : String}

/-- A call of the token's `transfer` moves what its data say. -/
theorem moved_of_call (htoken : plugin.token = some token) {input : Calldata}
    {address amount : String} (hcall : transferCall input = some (address, amount)) :
    ∃ v, hexToDec amount = some v ∧ ∀ to_ value (P : String × Nat → Prop),
      (∃ m ∈ moved plugin to_ value input, P m) ↔
        to_.map toLowerCase = some token ∧ P (toLowerCase address, v) := by
  obtain ⟨v, hv⟩ := transferCall_amount hcall
  refine ⟨v, hv, fun to_ value P => ?_⟩
  by_cases hto : to_.map toLowerCase = some token
  · simp [moved, htoken, hcall, hv, hto]
  · simp [moved, htoken, hto]

theorem moved_of_no_call (htoken : plugin.token = some token) {to_ : Option String}
    {value : Nat} {input : Calldata} (hcall : transferCall input = none) :
    moved plugin to_ value input = none := by
  simp [moved, htoken, hcall]

/-- A contract is not called "null". -/
theorem symbol_iff (htoken : IsContract token) {to_ : Option String} :
    toLowerCase (stringOf to_) = token ↔ to_.map toLowerCase = some token := by
  cases to_ with
  | none =>
      have hnull : toLowerCase "null" ≠ token := by
        rintro rfl
        exact absurd htoken.2 (by decide)
      simp [stringOf, hnull]
  | some to_ => simp [stringOf]

/-- A transfer in the transaction submitted settles the matter, for some first
output. -/
theorem verifyTransaction_call (htoken : plugin.token = some token)
    {parseTransaction : ParseTransaction} {txhex : String} {tx : EthersTransaction}
    (htx : parseTransaction txhex = some tx) {call : String × String}
    (hcall : transferCall tx.data = some call) (output : Output) (rest : List Output) :
    ∃ verified,
      ERC20.verifyTransaction plugin parseTransaction (some output) txhex = .ok verified ∧
      (verified = true ↔ ∃ m ∈ moved plugin tx.to_ tx.value tx.data,
        Taken readBack m (output :: rest)) := by
  obtain ⟨address, amount⟩ := call
  obtain ⟨v, hv, hmoved⟩ := moved_of_call htoken hcall
  have hcontract : IsContract token := plugin.contract token (by simp [htoken])
  have hread : parseInt (render (toNumber (hexToDec amount))) = some (readBack v) := by
    rw [hv]
    exact parseInt_render v
  unfold ERC20.verifyTransaction ERC20.parseERC20Transfer
  simp only [htx, hcall, bind, Except.bind, hread, htoken, Option.map_some,
    hcontract.1]
  refine ⟨_, rfl, ?_⟩
  rw [hmoved]
  simp only [Bool.and_eq_true, beq_iff_eq, Option.some.injEq, symbol_iff hcontract, sameAmount_iff,
    Taken]
  tauto

theorem verifyHash_ok_iff (htoken : plugin.token = some token)
    {node : Nat → String → Option ChainTransaction} {hash : String} {outputs : List Output} :
    ERC20.verifyHash plugin node outputs.head? hash = .ok true ↔
      Looked plugin node hash outputs := by
  unfold ERC20.verifyHash ERC20.fetchERC20Transfer Looked
  cases hnode : node ERC20.polygon hash with
  | none => simp [except_bind_ok]
  | some tx =>
      simp only [Option.mem_def, Option.some.injEq, exists_eq_left']
      cases hcall : transferCall tx.input with
      | none => simp [except_bind_ok, moved_of_no_call htoken hcall]
      | some call =>
          obtain ⟨address, amount⟩ := call
          obtain ⟨v, hv, hmoved⟩ := moved_of_call htoken hcall
          have hread : parseText (hexToDec amount) = some (nearest v) := by
            rw [hv, parseText, Option.bind_some, parseInt_toDigits]
          have hsplit := hmoved tx.to_ tx.value fun m => Taken nearest m outputs
          simp only [Option.mem_def] at hsplit
          rw [hsplit]
          cases tx.to_ with
          | none => simp [except_bind_ok]
          | some to_ =>
              simp only [except_bind_ok, Except.ok.injEq, exists_eq_left', hread, htoken,
                Option.map_some, Option.some.injEq]
              by_cases hto : toLowerCase to_ = token
              swap
              · simp [hto]
              cases outputs with
              | nil => simp [hto, Taken]
              | cons output rest =>
                  simp [hto, sameAmount_iff, Taken, and_comm]

/-- A transaction that could not be looked up is not taken. -/
theorem fetched_iff (htoken : plugin.token = some token)
    {node : Nat → String → Option ChainTransaction} {hash : String} (outputs : List Output) :
    (match ERC20.verifyHash plugin node outputs.head? hash with
      | .ok verified => Except.ok verified
      | .error _ => .ok false : Except Failure Bool) = .ok true ↔
    Looked plugin node hash outputs := by
  rw [← verifyHash_ok_iff htoken]
  cases ERC20.verifyHash plugin node outputs.head? hash <;> simp

theorem erc20_ok_iff (htoken : plugin.token = some token)
    {parseTransaction : ParseTransaction} {node : Nat → String → Option ChainTransaction}
    {option : PaymentOption} {transaction : Transaction} :
    ERC20.verifyPayment plugin parseTransaction node option transaction = .ok true ↔
      match (parseTransaction transaction.txhex).bind fun tx =>
        (transferCall tx.data).map fun _ => tx with
      | some tx => ∃ m ∈ moved plugin tx.to_ tx.value tx.data,
          Taken readBack m (option.outputs.getD [])
      | none => Looked plugin node (hashOf transaction) (option.outputs.getD []) := by
  have hfetch : ∀ outputs : List Output, _ ↔ Looked plugin node (hashOf transaction) outputs :=
    fetched_iff htoken
  have hnothing : ∀ hash, ¬ Looked plugin node hash [] := by
    rintro hash ⟨tx, -, m, -, htaken⟩
    exact htaken
  unfold ERC20.verifyPayment
  cases option.outputs with
  | none =>
      simp only [Option.getD_none]
      split
      · simp [Taken]
      · simp [hnothing]
  | some outputs =>
      simp only [Option.getD_some]
      cases hparse : parseTransaction transaction.txhex with
      | none =>
          simp only [ERC20.verifyTransaction, hparse, Option.bind_none]
          exact hfetch outputs
      | some tx =>
          cases hcall : transferCall tx.data with
          | none =>
              simp only [ERC20.verifyTransaction, ERC20.parseERC20Transfer, hparse, hcall,
                Option.bind_some, Option.map_none, bind, Except.bind]
              exact hfetch outputs
          | some call =>
              simp only [Option.bind_some, hcall, Option.map_some]
              cases outputs with
              | nil =>
                  have herror : ERC20.verifyTransaction plugin parseTransaction none
                      transaction.txhex = .error .typeError := by
                    simp [ERC20.verifyTransaction, ERC20.parseERC20Transfer, hparse, hcall,
                      bind, Except.bind]
                  rw [List.head?_nil, herror]
                  have hno := (hfetch []).not.mpr (hnothing _)
                  simp only [List.head?_nil] at hno
                  exact iff_of_false hno (by simp [Taken])
              | cons output rest =>
                  obtain ⟨verified, hok, htrue⟩ :=
                    verifyTransaction_call htoken hparse hcall output rest
                  rw [List.head?_cons, hok, ← htrue]
                  simp

/-! ## Where it is right -/

/-- The submissions whose verification says whether they pay. -/
def Exact (plugin : EvmPlugin) (parseTransaction : ParseTransaction) (chains : Chains)
    (option : PaymentOption) (transaction : Transaction) : Prop :=
  let outputs := option.outputs.getD []
  let hash := hashOf transaction
  match parseTransaction transaction.txhex with
  | some tx =>
      (∀ m ∈ moved plugin tx.to_ tx.value tx.data,
        Decides (SignedFor plugin.chainID tx) readBack m outputs) ∧
      -- a contract creation, and an option to be paid to "undefined"
      (plugin.token = none → tx.to_ = none →
        ¬ Taken readBack ("undefined", tx.value) outputs) ∧
      -- no transfer, so the hash that came with it is looked up
      (plugin.token ≠ none → transferCall tx.data = none →
        ¬ Looked plugin chains.node hash outputs)
  | none =>
      if plugin.token = none then ¬ Pays plugin parseTransaction chains option transaction
      else if plugin.chainID = ERC20.polygon then
        ∀ tx ∈ chains.node ERC20.polygon hash, ∀ m ∈ moved plugin tx.to_ tx.value tx.input,
          Decides (chains.reverted ERC20.polygon hash = false) nearest m outputs
      else
        Looked plugin chains.node hash outputs ↔
          Pays plugin parseTransaction chains option transaction

/-- Two readings of one transfer, where there is one. -/
theorem exists_moved_iff {x : Option (String × Nat)} {own : Prop} {read : Nat → Nat}
    {outputs : List Output} :
    ((∃ m ∈ x, Taken read m outputs) ↔
      ∃ m ∈ x, own ∧ ∀ output ∈ outputs, Paid m output) ↔
      ∀ m ∈ x, Decides own read m outputs := by
  cases x with
  | none => simp
  | some m => simp only [Option.mem_def, Option.some.injEq, exists_eq_left', forall_eq',
      taken_iff_paid]

/-- Verification is right exactly there. -/
theorem verifyPayment_iff (plugin : EvmPlugin) (parseTransaction : ParseTransaction)
    (chains : Chains) (option : PaymentOption) (transaction : Transaction) :
    (plugin.verifyPayment parseTransaction chains.node option transaction = .ok true ↔
      Pays plugin parseTransaction chains option transaction) ↔
    Exact plugin parseTransaction chains option transaction := by
  unfold EvmPlugin.verifyPayment
  cases htoken : plugin.token with
  | none =>
      simp only [evm_ok_iff]
      unfold Exact Pays
      cases hparse : parseTransaction transaction.txhex with
      | none => simp [htoken]
      | some tx =>
          simp only [htoken, ne_eq, not_true_eq_false, false_implies, and_true, true_implies,
            Option.mem_def, Option.some.injEq, exists_eq_left']
          cases hto : tx.to_ with
          | none => simp [moved, htoken]
          | some to_ =>
              have hmoved : moved plugin (some to_) tx.value tx.data =
                  some (toLowerCase to_, tx.value) := by
                simp [moved, htoken]
              rw [hmoved]
              simp only [Option.some.injEq, exists_eq_left', forall_eq', reduceCtorEq,
                false_implies, and_true, Option.map_some, Option.getD_some]
              exact taken_iff_paid
  | some token =>
      simp only [erc20_ok_iff htoken]
      unfold Exact Pays
      cases hparse : parseTransaction transaction.txhex with
      | some tx =>
          simp only [htoken, ne_eq, reduceCtorEq, not_false_eq_true, true_implies, false_implies,
            true_and, Option.bind_some]
          cases hcall : transferCall tx.data with
          | none => simp [moved_of_no_call htoken hcall]
          | some call =>
              simp only [Option.map_some, reduceCtorEq, false_implies, and_true]
              exact exists_moved_iff
      | none =>
          simp only [htoken, reduceCtorEq, if_false, Option.bind_none]
          split
          · rename_i hchain
            rw [hchain]
            unfold Looked
            cases chains.node ERC20.polygon (hashOf transaction) with
            | none => simp
            | some tx =>
                simp only [Option.mem_def, Option.some.injEq, exists_eq_left', forall_eq']
                exact exists_moved_iff
          · rfl

/-! ## A thousand MATIC, and a payment on the wrong chain -/

/-- An invoice for a thousand MATIC. -/
def thousand : PaymentOption where
  id := 1
  invoice_uid := "i"
  currency := "MATIC"
  chain := "MATIC"
  outputs := some [{ address := "0x5a", amount := some (10 ^ 21) }]

/-- Two outputs of one MATIC each. -/
def shared : PaymentOption where
  id := 1
  invoice_uid := "i"
  currency := "MATIC"
  chain := "MATIC"
  outputs := some [{ address := "0x5a", amount := some (10 ^ 18) },
    { address := "0xfee", amount := some (10 ^ 18) }]

/-- A transfer signed for a chain. -/
def signed (chainId value : Nat) : EthersTransaction where
  to_ := some "0x5A"
  value := value
  chainId := chainId
  hash := some "0x1"

theorem thousand_refused :
    -- the exact amount is refused
    (MATIC.verifyPayment (fun _ => some (signed 137 (10 ^ 21))) (fun _ _ => none) thousand
      { txhex := "0x02" } = .ok false ∧
    Pays MATIC (fun _ => some (signed 137 (10 ^ 21))) ⟨fun _ _ => none, fun _ _ => false⟩
      thousand { txhex := "0x02" }) ∧
    -- the first of two outputs is enough, on whatever chain
    (MATIC.verifyPayment (fun _ => some (signed 1 (10 ^ 18))) (fun _ _ => none) shared
      { txhex := "0x02" } = .ok true ∧
    ¬ Pays MATIC (fun _ => some (signed 1 (10 ^ 18))) ⟨fun _ _ => none, fun _ _ => false⟩
      shared { txhex := "0x02" }) := by
  refine ⟨⟨by decide +kernel, ?_⟩, by decide +kernel, ?_⟩
  · refine ⟨("0x5a", 10 ^ 21), rfl, .inl rfl, ?_⟩
    intro output houtput
    obtain rfl := List.mem_singleton.mp houtput
    exact ⟨by decide, rfl⟩
  · rintro ⟨m, -, howns, -⟩
    rcases howns with h | h
    · exact absurd h (by decide)
    · exact absurd h (by decide)

end Evm

end Anypay
