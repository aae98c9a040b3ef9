/-
Anypay.OthersTheorems — what XRP, SOL and XMR let through as a payment.

A verification is SAFE for an option and a submission when true means paid: the
transaction, as its chain library decodes it, delivers to every output's address
at least its amount (`Delivers`), and so no run of `submitPayment` settles an
invoice with it that it does not pay (`NeverSettles`). XRP looks at the first
output and not at the flags, the other two at nothing that counts; `Paying` says
what submissions that leaves. The step to `submitPayment` is
`wp_submitPayment_settlements`: it settles with verified transactions only.
-/
import Anypay.Chains.Others
import Anypay.SettleTheorems

namespace Anypay

open Double Store Async Proc

namespace Others

/-! ## Delivering -/

/-- The registered plugins outside the UTXO and EVM families. -/
inductive Chain where
  | XRP
  | SOL
  | XMR
  deriving DecidableEq

def Chain.name : Chain → String
  | XRP => "XRP"
  | SOL => "SOL"
  | XMR => "XMR"

def Chain.verifyPayment (libraries : Libraries) (option : PaymentOption)
    (transaction : Transaction) : Chain → Except Failure Bool
  | XRP => XRP.verifyPayment libraries option transaction
  | SOL => SOL.verifyPayment libraries option transaction
  | XMR => XMR.verifyPayment libraries option transaction

/-- What is due for an amount of an output, in the units delivered. Amounts of
SOL count whole SOL, its plugin having no decimals. -/
def Chain.due : Chain → Int → Int
  | SOL, amount => amount * 1000000000
  | _, amount => amount

/-- Drops a transaction of XRP delivers for certain. -/
def dropsTo (decoded : XrplTransaction) (address : String) : Nat :=
  if decoded.TransactionType = "Payment" ∧ decoded.Destination = some address ∧
      decoded.Flags.testBit tfPartialPayment = false then decoded.Amount.getD 0
  else 0

/-- Lamports a transaction of Solana transfers. -/
def lamportsTo (transaction : SolanaTransaction) (address : String) : Nat :=
  ((transaction.transfers.filter fun t => t.1 == address).map Prod.snd).sum

/-- What a submission delivers to an address. -/
def Chain.delivered (libraries : Libraries) (transaction : Transaction) (address : String) :
    Chain → Nat
  | XRP => ((libraries.xrpl transaction.txhex).map fun tx => dropsTo tx address).getD 0
  | SOL => ((libraries.solana transaction.txhex).map fun tx => lamportsTo tx address).getD 0
  | XMR =>
      (libraries.check_tx_key (transaction.txid.getD "undefined")
        (transaction.txkey.getD "undefined") address).getD 0

/-- Every output is delivered. -/
def Delivers (libraries : Libraries) (chain : Chain) (option : PaymentOption)
    (transaction : Transaction) : Prop :=
  ∀ output ∈ option.outputs.getD [], ∀ amount ∈ output.amount,
    chain.due amount ≤ chain.delivered libraries transaction output.address

/-! ## Safety -/

/-- True means paid. -/
def TrueMeansPaid (libraries : Libraries) (chain : Chain) (option : PaymentOption)
    (transaction : Transaction) : Prop :=
  chain.verifyPayment libraries option transaction = .ok true →
    Delivers libraries chain option transaction

/-- No run of `submitPayment` settles with the transaction what it does not pay:
on a server whose plugin of the chain verifies so, for an invoice whose option
there is this one, among whatever other transactions. -/
def NeverSettles (libraries : Libraries) (chain : Chain) (option : PaymentOption)
    (transaction : Transaction) : Prop :=
  ∀ (env : Env) (payment : SubmitPaymentRequest) (plugin : Plugin) (w : World)
    (o : Nat → Answer),
    find env payment.currency (orElse payment.chain payment.currency) = .ok plugin →
    (∀ option transaction c, plugin.verifyPayment option transaction c =
      chain.verifyPayment libraries option transaction) →
    orElse payment.chain payment.currency = chain.name →
    (∀ r ∈ w.paymentOptions.rows, r.invoice_uid = payment.invoice_uid →
      r.currency = payment.currency → r.chain = chain.name → r = option) →
    ∀ settlement ∈ ((submitPayment env payment).exec o w).2.settlements,
      settlement ∈ w.settlements ∨
      (Broadcast option transaction settlement.transaction →
        Delivers libraries chain option transaction)

theorem broadcast_txhex {option : PaymentOption} {transaction transaction' : Transaction}
    (h : Broadcast option transaction transaction') : transaction'.txhex = transaction.txhex := by
  rcases h with rfl | ⟨-, txid, rfl⟩
  · rfl
  · rfl

/-- What a chain's verification reads of a submission survives the broadcast. -/
theorem verifyPayment_congr {libraries : Libraries} {chain : Chain} {option : PaymentOption}
    {transaction transaction' submitted : Transaction} (hchain : option.chain = chain.name)
    (h : Broadcast option transaction submitted) (h' : Broadcast option transaction' submitted) :
    chain.verifyPayment libraries option transaction =
      chain.verifyPayment libraries option transaction' := by
  have hhex : transaction.txhex = transaction'.txhex := (broadcast_txhex h).symm.trans (broadcast_txhex h')
  cases chain with
  | XRP => simp only [Chain.verifyPayment, XRP.verifyPayment, hhex]
  | SOL => simp only [Chain.verifyPayment, SOL.verifyPayment, SOL.validateTransaction, hhex]
  | XMR =>
      have hsame : transaction = transaction' := by
        rcases h with rfl | ⟨hxrp, -⟩
        · rcases h' with rfl | ⟨hxrp, -⟩
          · rfl
          · exact absurd (hxrp.symm.trans hchain) (by decide)
        · exact absurd (hxrp.symm.trans hchain) (by decide)
      rw [hsame]

theorem TrueMeansPaid.neverSettles {libraries : Libraries} {chain : Chain}
    {option : PaymentOption} {transaction : Transaction}
    (h : TrueMeansPaid libraries chain option transaction) :
    NeverSettles libraries chain option transaction := by
  intro env payment plugin w o hplugin hverifies hchain honly settlement hmem
  have hend : SettledOnlyBy (Passed payment plugin w) w
      ((submitPayment env payment).exec o w).2 :=
    wp_exec_state (wp_submitPayment_settlements hplugin) (anyAnswer o)
  rcases hend settlement hmem with hold | hpassed
  · exact .inl hold
  · right
    intro hbroadcast
    obtain ⟨option', hmem', huid, hcurrency, hchain', transaction', -, hbroadcast', c, hc⟩ :=
      hpassed
    obtain rfl := honly option' hmem' huid hcurrency (hchain'.trans hchain)
    apply h
    rw [verifyPayment_congr (hchain'.trans hchain) hbroadcast hbroadcast',
      ← hverifies option' transaction' c]
    exact hc

/-! ## What is let through -/

/-- The submissions that pay, or are not taken for a payment. On XRP: no payment
to the first output's address of what is read as its amount; or one without the
flag, of at least every amount asked for, all for that address. On Solana: what
does not decode, or transfers every amount. On Monero: what pays every amount by
the wallet's word. -/
def Paying (libraries : Libraries) (option : PaymentOption) (transaction : Transaction) :
    Chain → Prop
  | .XRP =>
      transaction.txhex ≠ "" → ∀ decoded ∈ libraries.xrpl transaction.txhex,
      decoded.TransactionType = "Payment" → ∀ drops ∈ decoded.Amount,
      ∀ first ∈ (option.outputs.getD []).head?, decoded.Destination = some first.address →
      (∃ a ∈ first.amount, jsonNumber a = nearest drops) →
      ∀ output ∈ option.outputs.getD [], ∀ amount ∈ output.amount, 0 < amount →
        output.address = first.address ∧ amount ≤ drops ∧
        decoded.Flags.testBit tfPartialPayment = false
  | .SOL =>
      ∀ decoded ∈ libraries.solana transaction.txhex,
      ∀ output ∈ option.outputs.getD [], ∀ amount ∈ output.amount,
        amount * 1000000000 ≤ lamportsTo decoded output.address
  | .XMR =>
      ∀ output ∈ option.outputs.getD [], ∀ amount ∈ output.amount, 0 < amount →
        ∃ received ∈ libraries.check_tx_key (transaction.txid.getD "undefined")
          (transaction.txkey.getD "undefined") output.address, amount ≤ (received : Int)

variable {libraries : Libraries} {option : PaymentOption} {transaction : Transaction}

theorem xrp_ok_iff : XRP.verifyPayment libraries option transaction = .ok true ↔
    transaction.txhex ≠ "" ∧ ∃ decoded ∈ libraries.xrpl transaction.txhex,
      decoded.TransactionType = "Payment" ∧ ∃ drops ∈ decoded.Amount,
      ∃ first ∈ (option.outputs.getD []).head?, decoded.Destination = some first.address ∧
        ∃ a ∈ first.amount, jsonNumber a = nearest drops := by
  unfold XRP.verifyPayment XRP.parsePayments
  by_cases hempty : transaction.txhex = ""
  · simp [hempty]
  simp only [hempty, if_false, ne_eq, not_false_eq_true, true_and]
  cases libraries.xrpl transaction.txhex with
  | none => simp
  | some decoded =>
      simp only [Option.mem_def, Option.some.injEq, exists_eq_left']
      by_cases htype : decoded.TransactionType = "Payment"
      swap
      · simp [htype]
      simp only [htype, not_true_eq_false, if_false, true_and]
      cases option.outputs.getD [] with
      | nil => simp
      | cons first rest =>
          simp only [List.head?_cons, Option.some.injEq, exists_eq_left']
          by_cases haddress : decoded.Destination = some first.address
          swap
          · simp [haddress]
          simp only [haddress, not_true_eq_false, if_false, true_and, Except.ok.injEq]
          unfold sameAmount
          cases first.amount with
          | none => simp
          | some a =>
              cases decoded.Amount with
              | none => simp
              | some drops => simp

theorem sol_ok_iff : SOL.verifyPayment libraries option transaction = .ok true ↔
    ∃ decoded, libraries.solana transaction.txhex = some decoded := by
  unfold SOL.verifyPayment SOL.validateTransaction SOL.decode
  cases libraries.solana transaction.txhex with
  | none => simp [except_bind_ok]
  | some decoded => simp [except_bind_ok, SOL.unmatched]

theorem xmr_ok : XMR.verifyPayment libraries option transaction = .ok true := by
  unfold XMR.verifyPayment
  split
  · rfl
  · rfl

/-- What a payment to `first` delivers to an address. -/
theorem le_dropsTo {decoded : XrplTransaction} {first address : String} {drops : Nat}
    {amount : Int} (htype : decoded.TransactionType = "Payment")
    (hdestination : decoded.Destination = some first) (hdrops : decoded.Amount = some drops) :
    amount ≤ dropsTo decoded address ↔ (0 < amount → address = first ∧ amount ≤ drops ∧
      decoded.Flags.testBit tfPartialPayment = false) := by
  unfold dropsTo
  simp only [htype, hdestination, hdrops, Option.some.injEq, true_and, Option.getD_some]
  split
  · rename_i h
    obtain ⟨rfl, hflag⟩ := h
    simp only [hflag, true_and, and_true]
    omega
  · rename_i h
    constructor
    · intro hle hpos
      omega
    · intro himp
      by_contra hgt
      obtain ⟨haddress, -, hflag⟩ := himp (by omega)
      exact h ⟨haddress.symm, hflag⟩

theorem xrp_trueMeansPaid_iff : TrueMeansPaid libraries .XRP option transaction ↔
    Paying libraries option transaction .XRP := by
  simp only [TrueMeansPaid, Chain.verifyPayment, xrp_ok_iff, Delivers, Chain.due,
    Chain.delivered, Paying]
  constructor
  · intro h hhex decoded hdecoded htype drops hdrops first hfirst hdestination hread output
      houtput amount hamount
    have hpaid := h ⟨hhex, decoded, hdecoded, htype, drops, hdrops, first, hfirst,
      hdestination, hread⟩ output houtput amount hamount
    rw [Option.mem_def.mp hdecoded] at hpaid
    exact (le_dropsTo htype hdestination hdrops).mp hpaid
  · rintro h ⟨hhex, decoded, hdecoded, htype, drops, hdrops, first, hfirst, hdestination, hread⟩
      output houtput amount hamount
    rw [Option.mem_def.mp hdecoded]
    exact (le_dropsTo htype hdestination hdrops).mpr
      (h hhex decoded hdecoded htype drops hdrops first hfirst hdestination hread output houtput
        amount hamount)

/-- What the wallet does not know of was not received. -/
theorem le_received {received : Option Nat} {amount : Int} :
    amount ≤ (received.getD 0 : Nat) ↔ (0 < amount → ∃ n ∈ received, amount ≤ (n : Int)) := by
  cases received with
  | none => simp
  | some n =>
      simp only [Option.getD_some, Option.mem_def, Option.some.injEq, exists_eq_left']
      omega

theorem trueMeansPaid_iff (chain : Chain) : TrueMeansPaid libraries chain option transaction ↔
    Paying libraries option transaction chain := by
  cases chain with
  | XRP => exact xrp_trueMeansPaid_iff
  | SOL =>
      simp only [TrueMeansPaid, Chain.verifyPayment, sol_ok_iff, Delivers, Chain.due,
        Chain.delivered, Paying]
      cases libraries.solana transaction.txhex with
      | none => simp
      | some decoded => simp
  | XMR =>
      simp only [TrueMeansPaid, Chain.verifyPayment, xmr_ok, true_implies, Delivers, Chain.due,
        Chain.delivered, Paying, le_received]

/-- True means paid, and nothing unpaid is settled, for exactly these
submissions. -/
theorem verifyPayment_safe_iff (libraries : Libraries) (chain : Chain) (option : PaymentOption)
    (transaction : Transaction) :
    (TrueMeansPaid libraries chain option transaction ∧
      NeverSettles libraries chain option transaction) ↔
    Paying libraries option transaction chain := by
  rw [← trueMeansPaid_iff]
  constructor
  · exact fun h => h.1
  · exact fun h => ⟨h, h.neverSettles⟩

/-! ## Something for nothing -/

/-- An invoice for one SOL. -/
def oneSol : PaymentOption where
  id := 1
  invoice_uid := "i"
  currency := "SOL"
  chain := "SOL"
  outputs := some [{ address := "shop", amount := some 1 }]

/-- A library that decodes every text as a transaction without transfers. -/
def noTransfers : Libraries where
  solana := fun _ => some {}

def solana : Plugin where
  currency := "SOL"
  chain := "SOL"
  decimals := 0
  verifyPayment := fun option transaction _ => SOL.verifyPayment noTransfers option transaction

/-- A submission of such a transaction, with an id of the client's making. -/
def nothing : Transaction := { txhex := "00", txid := some "t" }

def nothingRequest : SubmitPaymentRequest where
  currency := "SOL"
  invoice_uid := "i"
  transactions := [nothing]

def unpaidSol : World where
  invoices := .single { id := 1, uid := "i", status := .unpaid }
  paymentOptions := .single oneSol

theorem nothing_settles :
    ¬ TrueMeansPaid noTransfers .SOL oneSol nothing ∧
    ¬ NeverSettles noTransfers .SOL oneSol nothing ∧
    (((submitPayment { plugins := [("SOL", solana)] } nothingRequest).exec
      (fun _ => {}) unpaidSol).2.invoices.rows.map fun r => r.status) = [.confirming] := by
  have hunpaid : ¬ Delivers noTransfers .SOL oneSol nothing := by
    intro h
    exact absurd (h _ (List.mem_singleton_self _) 1 rfl) (by decide)
  refine ⟨fun h => hunpaid (h rfl), fun h => hunpaid ?_, by decide +kernel⟩
  have hrun : (((submitPayment { plugins := [("SOL", solana)] } nothingRequest).exec
      (fun _ => {}) unpaidSol).2.settlements.map fun settlement => settlement.transaction) =
      [nothing] := by
    decide +kernel
  have hmem : nothing ∈ ((submitPayment { plugins := [("SOL", solana)] } nothingRequest).exec
      (fun _ => {}) unpaidSol).2.settlements.map fun settlement => settlement.transaction := by
    rw [hrun]
    exact List.mem_singleton_self _
  obtain ⟨settlement, hsettlement, htransaction⟩ := List.mem_map.mp hmem
  have honly : ∀ r ∈ unpaidSol.paymentOptions.rows, r = oneSol :=
    fun r hr => List.mem_singleton.mp hr
  rcases h { plugins := [("SOL", solana)] } nothingRequest solana unpaidSol (fun _ => {}) rfl
    (fun _ _ _ => rfl) rfl (fun r hr _ _ _ => honly r hr) settlement hsettlement with hold | hnew
  · exact absurd hold List.not_mem_nil
  · exact hnew (.inl htransaction)

end Others

end Anypay
