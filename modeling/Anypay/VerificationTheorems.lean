/-
Anypay.VerificationTheorems — what a verified transaction pays.

`verifyOutputs_ok` says what every copy of the verification checks: for each
output asked for, SOME output of the transaction pays exactly that. Two equal
outputs asked for are therefore met by one, so an accepted transaction pays
every address what is asked for it just where no positive output is asked for
twice (`paidInFull_iff`).
-/
import Anypay.Db.Rules
import Anypay.Store.Totals
import Anypay.Verification

namespace Anypay.Verification

open Store

/-! ## The copies -/

/-- The functions that verify a transaction by its outputs. -/
inductive Copy where
  | pay
  | plugin
  | bch
  | btc
  | fb

/-- An address as a copy compares it. -/
def Copy.norm : Copy → String → String
  | .btc | .fb => id
  | _ => stripPrefix

/-- The address a copy looks for. -/
def Copy.target (addressOf : String → Option String) :
    Copy → PaymentOutput → Except Failure (Option String)
  | .btc | .fb => Bitcoinjs.targetAddress { fromHex := fun _ => none, fromOutputScript := addressOf }
  | _ => targetAddress addressOf

/-- A copy accepts a transaction; `decode` and `addressOf` are its library. -/
inductive Accepts (decode : String → Option BitcoreTransaction)
    (addressOf : String → Option String) (option : PaymentOption) (txhex : String) :
    Copy → Prop
  | pay (env : Env) (plugin : Plugin)
      (hfind : find env (orElse (some option.chain) option.currency)
        (orElse (some option.chain) option.currency) = .ok plugin)
      (hdecode : plugin.bitcore = some decode) (haddress : plugin.addressOf = addressOf)
      (h : verifyPayment env option txhex = .ok true) : Accepts decode addressOf option txhex .pay
  | plugin (plugin : Plugin) (transaction : Transaction) (rest : List Transaction)
      (htxhex : transaction.txhex = txhex)
      (hdecode : plugin.bitcore = some decode) (haddress : plugin.addressOf = addressOf)
      (h : plugin.validateUnsignedTx option (transaction :: rest) = .ok true) :
      Accepts decode addressOf option txhex .plugin
  | bch (plugin : Plugin) (transaction : Transaction) (rest : List Transaction)
      (htxhex : transaction.txhex = txhex)
      (hdecode : plugin.bitcore = some decode) (haddress : plugin.addressOf = addressOf)
      (h : BCH.validateUnsignedTx plugin option (transaction :: rest) = .ok true) :
      Accepts decode addressOf option txhex .bch
  | btc (transaction : Transaction) (rest : List Transaction)
      (htxhex : transaction.txhex = txhex)
      (h : BTC.validateUnsignedTx { fromHex := decode, fromOutputScript := addressOf } option
        (transaction :: rest) = .ok true) :
      Accepts decode addressOf option txhex .btc
  | fb (transaction : Transaction) (rest : List Transaction)
      (htxhex : transaction.txhex = txhex)
      (h : FB.validateUnsignedTx { fromHex := decode, fromOutputScript := addressOf } option
        (transaction :: rest) = .ok true) :
      Accepts decode addressOf option txhex .fb

/-- The library reads no negative amount. -/
def Unsigned (decode : String → Option BitcoreTransaction) : Prop :=
  ∀ txhex tx, decode txhex = some tx → ∀ output, some output ∈ tx.outputs → 0 ≤ output.amount

/-! ## What is asked for, and what is paid -/

/-- The outputs an option asks for. -/
def required (option : PaymentOption) : List PaymentOutput :=
  match buildOutputs option with
  | .ok outputs => outputs
  | .error _ => []

/-- Who an output is for: the address of its script where it has one, else its
own. -/
def Copy.payee (copy : Copy) (addressOf : String → Option String) (output : PaymentOutput) :
    Option String :=
  match nonEmpty output.script with
  | some script => (addressOf script).map copy.norm
  | none => some (copy.norm output.address)

/-- What an option asks for, under the addresses it is for. -/
def Copy.owed (copy : Copy) (addressOf : String → Option String) (option : PaymentOption) :
    List (Entry (Option String)) :=
  (required option).map fun output =>
    { key := copy.payee addressOf output, amount := output.amount.getD 0 }

/-- What an option asks for, under the addresses the verification looks for. -/
def Copy.asked (copy : Copy) (addressOf : String → Option String) (option : PaymentOption) :
    List (Entry (Option String)) :=
  (required option).map fun output =>
    { key := (copy.target addressOf output).toOption.join, amount := output.amount.getD 0 }

/-- What a transaction pays. -/
def Copy.paid (copy : Copy) (tx : BitcoreTransaction) : List (Entry (Option String)) :=
  tx.outputs.filterMap fun o =>
    o.map fun output => { key := some (copy.norm output.address), amount := output.amount }

/-- An output some transaction can have: it has an address, and its amount is a
number of base units. -/
def Copy.Matchable (copy : Copy) (addressOf : String → Option String)
    (output : PaymentOutput) : Prop :=
  (∃ a, copy.target addressOf output = .ok (some a)) ∧
    ∃ n : Int, 0 ≤ n ∧ output.amount = some (n : Rat)

/-- An output that a transaction with these entries has. -/
def Copy.Met (copy : Copy) (addressOf : String → Option String)
    (paid : List (Entry (Option String))) (output : PaymentOutput) : Prop :=
  ∃ a, ∃ n : Int, copy.target addressOf output = .ok (some a) ∧
    output.amount = some (n : Rat) ∧ { key := some a, amount := (n : Rat) } ∈ paid

/-! ## Prefixes -/

theorem stripPrefix_contains (s : String) : (stripPrefix s).toList.contains ':' = false := by
  unfold stripPrefix
  split
  case isTrue _ =>
      simp only [String.toList_ofList, List.contains_eq_mem, decide_eq_false_iff_not]
      intro hmem
      have hne := List.all_eq_true.mp (List.all_takeWhile ..) _ hmem
      simp at hne
  case isFalse h => simpa using h

theorem stripPrefix_eq {s : String} (h : s.toList.contains ':' = false) : stripPrefix s = s := by
  simp only [stripPrefix, h, Bool.false_eq_true, if_false]

/-! ## What a copy checks -/

theorem verifyOutput_ok {outputs : List TransactionOutput} {address : Option String}
    {amount : Option Rat} : verifyOutput outputs address amount = .ok () ↔
    ∃ output ∈ outputs, address = some output.address ∧ amount = some (output.amount : Rat) := by
  unfold verifyOutput
  constructor
  · intro h
    split at h
    case isFalse => cases h
    case isTrue hany =>
      obtain ⟨output, hmem, hboth⟩ := List.any_eq_true.mp hany
      simp only [Bool.and_eq_true, beq_iff_eq] at hboth
      exact ⟨output, hmem, hboth.1.symm, hboth.2.symm⟩
  · rintro ⟨output, hmem, rfl, rfl⟩
    rw [if_pos (List.any_eq_true.mpr ⟨output, hmem, by simp⟩)]

theorem verifyOutputs_ok {txOutputs : List TransactionOutput}
    {target : PaymentOutput → Except Failure (Option String)} {outputs : List PaymentOutput} :
    verifyOutputs txOutputs target outputs = .ok true ↔
    ∀ output ∈ outputs, ∃ paid ∈ txOutputs, target output = .ok (some paid.address) ∧
      output.amount = some (paid.amount : Rat) := by
  induction outputs with
  | nil => simp [verifyOutputs]
  | cons output outputs ih =>
      rw [List.forall_mem_cons, ← ih]
      simp only [verifyOutputs, except_bind_ok]
      constructor
      · rintro ⟨address, htarget, _, hverify, hrest⟩
        obtain ⟨paid, hmem, rfl, hamount⟩ := verifyOutput_ok.mp hverify
        exact ⟨⟨paid, hmem, htarget, hamount⟩, hrest⟩
      · rintro ⟨⟨paid, hmem, htarget, hamount⟩, hrest⟩
        exact ⟨some paid.address, htarget, (), verifyOutput_ok.mpr ⟨paid, hmem, rfl, hamount⟩,
          hrest⟩

/-- The outputs of a transaction as a copy compares them. -/
def Copy.outputs : Copy → BitcoreTransaction → List TransactionOutput
  | .btc | .fb => fun tx => tx.outputs.filterMap id
  | _ => addressedOutputs

theorem Copy.paid_eq (copy : Copy) (tx : BitcoreTransaction) :
    copy.paid tx = (copy.outputs tx).map fun output =>
      { key := some output.address, amount := output.amount } := by
  cases copy <;>
    simp [Copy.paid, Copy.outputs, Copy.norm, addressedOutputs, List.map_filterMap,
      Option.map_map, Function.comp_def]

section Copies

variable {decode : String → Option BitcoreTransaction} {option : PaymentOption}
  {tx : BitcoreTransaction}

theorem verifyPayment_ok {env : Env} {plugin : Plugin} {txhex : String}
    (hfind : find env (orElse (some option.chain) option.currency)
      (orElse (some option.chain) option.currency) = .ok plugin)
    (hdecode : plugin.bitcore = some decode) (htx : decode txhex = some tx) :
    verifyPayment env option txhex = .ok true ↔ ∃ outputs, buildOutputs option = .ok outputs ∧
      verifyOutputs (addressedOutputs tx) (targetAddress plugin.addressOf) outputs = .ok true := by
  simp only [verifyPayment, decodeTransaction, hfind, hdecode, htx]
  exact except_bind_ok (x := buildOutputs option)

theorem validateUnsignedTx_ok {plugin : Plugin} {transaction : Transaction}
    {rest : List Transaction} (hdecode : plugin.bitcore = some decode)
    (htx : decode transaction.txhex = some tx) :
    plugin.validateUnsignedTx option (transaction :: rest) = .ok true ↔
    ∃ outputs, buildOutputs option = .ok outputs ∧
      verifyOutputs (addressedOutputs tx) (targetAddress plugin.addressOf) outputs = .ok true := by
  simp only [Plugin.validateUnsignedTx, Plugin.decode, hdecode, htx]
  exact except_bind_ok (x := buildOutputs option)

theorem btc_validateUnsignedTx_ok {addressOf : String → Option String}
    {transaction : Transaction} {rest : List Transaction}
    (htx : decode transaction.txhex = some tx) :
    BTC.validateUnsignedTx { fromHex := decode, fromOutputScript := addressOf } option
      (transaction :: rest) = .ok true ↔
    ∃ outputs, buildOutputs option = .ok outputs ∧
      verifyOutputs (tx.outputs.filterMap id) (Copy.btc.target addressOf) outputs = .ok true := by
  simp only [BTC.validateUnsignedTx, Bitcoinjs.parsePayments, htx]
  exact except_bind_ok (x := buildOutputs option)

/-- A copy that could read the transaction accepts it where the loop does. -/
theorem accepts_iff {addressOf : String → Option String} {txhex : String}
    (htx : decode txhex = some tx) (copy : Copy) :
    Accepts decode addressOf option txhex copy ↔ ∃ outputs, buildOutputs option = .ok outputs ∧
      verifyOutputs (copy.outputs tx) (copy.target addressOf) outputs = .ok true := by
  constructor
  · rintro (⟨env, p, hfind, hdecode, rfl, h⟩ | ⟨p, t, rest, rfl, hdecode, rfl, h⟩ |
      ⟨p, t, rest, rfl, hdecode, rfl, h⟩ | ⟨t, rest, rfl, h⟩ | ⟨t, rest, rfl, h⟩)
    · exact (verifyPayment_ok hfind hdecode htx).mp h
    · exact (validateUnsignedTx_ok hdecode htx).mp h
    · exact (validateUnsignedTx_ok hdecode htx).mp h
    · exact (btc_validateUnsignedTx_ok htx).mp h
    · exact (btc_validateUnsignedTx_ok htx).mp h
  · intro h
    let plugin : Plugin :=
      { currency := "", chain := "", decimals := 8, bitcore := some decode, addressOf }
    cases copy with
    | pay =>
        let chain := orElse (some option.chain) option.currency
        let env : Env := { plugins := [(pluginKey chain chain, plugin)] }
        have hfind : find env chain chain = .ok plugin := by
          simp [find, env]
        exact .pay env plugin hfind rfl rfl ((verifyPayment_ok hfind rfl htx).mpr h)
    | plugin =>
        exact .plugin plugin { txhex } [] rfl rfl rfl ((validateUnsignedTx_ok rfl htx).mpr h)
    | bch =>
        exact .bch plugin { txhex } [] rfl rfl rfl ((validateUnsignedTx_ok rfl htx).mpr h)
    | btc => exact .btc { txhex } [] rfl ((btc_validateUnsignedTx_ok htx).mpr h)
    | fb => exact .fb { txhex } [] rfl ((btc_validateUnsignedTx_ok htx).mpr h)

end Copies

section Sums

variable {copy : Copy} {addressOf : String → Option String} {option : PaymentOption}
  {tx : BitcoreTransaction}

/-- The loop accepts the outputs that are all met. -/
theorem verifyOutputs_met {outputs : List PaymentOutput} :
    verifyOutputs (copy.outputs tx) (copy.target addressOf) outputs = .ok true ↔
    ∀ output ∈ outputs, copy.Met addressOf (copy.paid tx) output := by
  rw [verifyOutputs_ok]
  refine forall₂_congr fun output _ => ?_
  simp only [Copy.Met, Copy.paid_eq, List.mem_map]
  constructor
  · rintro ⟨paid, hmem, htarget, hamount⟩
    exact ⟨paid.address, paid.amount, htarget, hamount, paid, hmem, rfl⟩
  · rintro ⟨a, n, htarget, hamount, paid, hmem, heq⟩
    simp only [Entry.mk.injEq, Option.some.injEq, Int.cast_inj] at heq
    obtain ⟨rfl, rfl⟩ := heq
    exact ⟨paid, hmem, htarget, hamount⟩

theorem Copy.Met.entry {paid : List (Entry (Option String))} {output : PaymentOutput}
    (h : copy.Met addressOf paid output) :
    { key := (copy.target addressOf output).toOption.join,
      amount := output.amount.getD 0 } ∈ paid := by
  obtain ⟨a, n, htarget, hamount, hmem⟩ := h
  rw [htarget, hamount]
  exact hmem

theorem paid_nonneg {decode : String → Option BitcoreTransaction} {txhex : String}
    (hunsigned : Unsigned decode) (htx : decode txhex = some tx) :
    ∀ e ∈ copy.paid tx, 0 ≤ e.amount := by
  intro e he
  simp only [Copy.paid, List.mem_filterMap, Option.map_eq_some_iff] at he
  obtain ⟨o, ho, output, rfl, rfl⟩ := he
  have hpos := hunsigned txhex tx htx output ho
  change (0 : ℚ) ≤ (output.amount : ℚ)
  exact_mod_cast hpos

theorem Copy.Met.matchable {paid : List (Entry (Option String))} {output : PaymentOutput}
    (hpos : ∀ e ∈ paid, 0 ≤ e.amount) (h : copy.Met addressOf paid output) :
    copy.Matchable addressOf output := by
  obtain ⟨a, n, htarget, hamount, hmem⟩ := h
  have hn : (0 : ℚ) ≤ (n : ℚ) := hpos _ hmem
  exact ⟨⟨a, htarget⟩, n, by exact_mod_cast hn, hamount⟩

theorem outputAddress_ok {output : PaymentOutput} {a : String}
    (h : outputAddress addressOf output = .ok a) :
    copy.payee addressOf output = some (copy.norm a) := by
  unfold outputAddress at h
  unfold Copy.payee
  cases hscript : nonEmpty output.script with
  | none =>
      rw [hscript] at h
      obtain rfl := Except.ok.inj h
      rfl
  | some script =>
      rw [hscript] at h
      simp only at h ⊢
      cases hof : addressOf script with
      | none => simp only [hof] at h; cases h
      | some address =>
          simp only [hof] at h
          obtain rfl := Except.ok.inj h
          rfl

/-- A target comes from an address of the output, and is compared as it is. -/
theorem target_ok {output : PaymentOutput} {a : String}
    (h : copy.target addressOf output = .ok (some a)) :
    copy.norm a = a ∧ ∃ address, outputAddress addressOf output = .ok address := by
  cases haddress : outputAddress addressOf output with
  | error e =>
      cases copy <;>
        simp [Copy.target, targetAddress, Bitcoinjs.targetAddress, haddress, Except.map] at h
  | ok address =>
      refine ⟨?_, address, rfl⟩
      cases copy with
      | btc | fb => rfl
      | pay | plugin | bch =>
          simp only [Copy.target, targetAddress, haddress, Except.map, Except.ok.injEq] at h
          split at h
          case isTrue _ =>
              split at h
              case isTrue _ =>
                  obtain rfl := Option.some.inj h
                  exact stripPrefix_eq (stripPrefix_contains _)
              case isFalse _ => cases h
          case isFalse hcolon =>
              obtain rfl := Option.some.inj h
              exact stripPrefix_eq (by simpa using hcolon)

/-- Without scripts what is looked for is what is owed. -/
theorem asked_eq_owed (h : ∀ output ∈ required option, nonEmpty output.script = none) :
    copy.asked addressOf option = copy.owed addressOf option := by
  refine List.map_congr_left fun output hmem => ?_
  have haddress : outputAddress addressOf output = .ok output.address := by
    simp only [outputAddress, h output hmem]
  have htarget : copy.target addressOf output = .ok (some (copy.norm output.address)) := by
    cases copy with
    | btc | fb =>
        simp only [Copy.target, Bitcoinjs.targetAddress, haddress]
        rfl
    | pay | plugin | bch =>
        simp only [Copy.target, targetAddress, haddress, Copy.norm, Except.map]
        cases hcolon : output.address.toList.contains ':' with
        | true => rfl
        | false =>
            rw [stripPrefix_eq hcolon]
            rfl
  rw [htarget, outputAddress_ok haddress]
  rfl

/-- Outputs that can be matched are for someone. -/
theorem owed_key (h : ∀ output ∈ required option, copy.Matchable addressOf output) :
    ∀ e ∈ copy.owed addressOf option, e.key ≠ none := by
  intro e he
  obtain ⟨output, hmem, rfl⟩ := List.mem_map.mp he
  obtain ⟨⟨a, htarget⟩, -⟩ := h output hmem
  obtain ⟨-, address, haddress⟩ := target_ok htarget
  rw [outputAddress_ok haddress]
  exact Option.some_ne_none _

theorem asked_nonneg (h : ∀ output ∈ required option, copy.Matchable addressOf output) :
    ∀ e ∈ copy.asked addressOf option, 0 ≤ e.amount := by
  intro e he
  obtain ⟨output, hmem, rfl⟩ := List.mem_map.mp he
  obtain ⟨-, n, hn, hamount⟩ := h output hmem
  rw [hamount]
  change (0 : ℚ) ≤ (n : ℚ)
  exact_mod_cast hn

theorem owed_amounts :
    (copy.owed addressOf option).map Entry.amount =
      (copy.asked addressOf option).map Entry.amount := by
  simp [Copy.owed, Copy.asked]

/-- The transaction that pays each entry once. -/
def payingOnce (entries : List (Entry (Option String))) : BitcoreTransaction where
  hash := "once"
  outputs := entries.map fun e => e.key.map fun address => { address, amount := e.amount.num }

/-- Paying once what is asked for pays just that. -/
theorem paid_payingOnce (h : ∀ output ∈ required option, copy.Matchable addressOf output) :
    copy.paid (payingOnce (copy.asked addressOf option).dedup) =
      (copy.asked addressOf option).dedup := by
  have hentry : ∀ e ∈ (copy.asked addressOf option).dedup,
      ((e.key.map fun address => ({ address, amount := e.amount.num } : TransactionOutput)).map
        fun output => ({ key := some (copy.norm output.address), amount := output.amount } :
          Entry (Option String))) = some e := by
    intro e he
    obtain ⟨output, hmem, rfl⟩ := List.mem_map.mp (List.mem_dedup.mp he)
    obtain ⟨⟨a, htarget⟩, n, hn, hamount⟩ := h output hmem
    rw [htarget, hamount]
    change some ({ key := some (copy.norm a), amount := ((n : ℚ).num : ℚ) } :
      Entry (Option String)) = some { key := some a, amount := (n : ℚ) }
    rw [(target_ok htarget).1, Rat.num_intCast]
  rw [Copy.paid, payingOnce, List.filterMap_map]
  calc (copy.asked addressOf option).dedup.filterMap _
      = (copy.asked addressOf option).dedup.filterMap some := List.filterMap_congr hentry
    _ = (copy.asked addressOf option).dedup := List.filterMap_some

/-- It is accepted. -/
theorem accepts_payingOnce {outputs : List PaymentOutput}
    (hbuild : buildOutputs option = .ok outputs)
    (h : ∀ output ∈ required option, copy.Matchable addressOf output) :
    Accepts (fun _ => some (payingOnce (copy.asked addressOf option).dedup)) addressOf option ""
      copy := by
  refine (accepts_iff rfl copy).mpr ⟨outputs, hbuild, verifyOutputs_met.mpr ?_⟩
  rw [paid_payingOnce h]
  intro output hmem
  have hin : output ∈ required option := by
    simpa only [required, hbuild] using hmem
  obtain ⟨⟨a, htarget⟩, n, -, hamount⟩ := h output hin
  refine ⟨a, n, htarget, hamount, List.mem_dedup.mpr ?_⟩
  have hentry : (⟨(copy.target addressOf output).toOption.join, output.amount.getD 0⟩ :
      Entry (Option String)) ∈ copy.asked addressOf option := List.mem_map_of_mem hin
  rw [htarget, hamount] at hentry
  exact hentry

theorem unsigned_payingOnce (h : ∀ output ∈ required option, copy.Matchable addressOf output) :
    Unsigned fun _ => some (payingOnce (copy.asked addressOf option).dedup) := by
  intro _ tx htx output hmem
  obtain rfl := Option.some.inj htx
  obtain ⟨e, he, heq⟩ := List.mem_map.mp hmem
  obtain ⟨address, -, rfl⟩ := Option.map_eq_some_iff.mp heq
  exact Rat.num_nonneg.mpr (asked_nonneg h e (List.mem_dedup.mp he))

end Sums

/-! ## Paid in full -/

/-- A copy verifies payments of an option: what it accepts pays every address
what the option asks for it, repeated outputs counted as often as they are
listed. -/
def PaidInFull (copy : Copy) (addressOf : String → Option String) (option : PaymentOption) :
    Prop :=
  ∀ decode, Unsigned decode → ∀ txhex tx, decode txhex = some tx →
    Accepts decode addressOf option txhex copy →
    ∀ a, total (some a) (copy.owed addressOf option) ≤ total (some a) (copy.paid tx)

/-- What a copy accepts pays every address what the option asks for it just
where some output cannot be matched at all, or no positive amount is looked for
twice under one address and every address is looked for what is for it. -/
theorem paidInFull_iff (copy : Copy) (addressOf : String → Option String)
    (option : PaymentOption) : PaidInFull copy addressOf option ↔
    (∃ output ∈ required option, ¬ copy.Matchable addressOf output) ∨
    (ListedOnce (copy.asked addressOf option) ∧
      ∀ a, total a (copy.owed addressOf option) = total a (copy.asked addressOf option)) := by
  constructor
  · intro h
    by_cases hmatch : ∃ output ∈ required option, ¬ copy.Matchable addressOf output
    · exact .inl hmatch
    · right
      have hall : ∀ output ∈ required option, copy.Matchable addressOf output :=
        fun output hmem => by_contra fun hno => hmatch ⟨output, hmem, hno⟩
      refine (covered_iff owed_amounts (asked_nonneg hall)).mp fun a => ?_
      cases a with
      | none =>
          rw [total_eq_zero (owed_key hall)]
          exact total_nonneg (fun e he => asked_nonneg hall e (List.mem_dedup.mp he)) none
      | some a =>
          cases hbuild : buildOutputs option with
          | error e => simp [Copy.owed, Copy.asked, required, hbuild]
          | ok outputs =>
              have hpays := h _ (unsigned_payingOnce hall) "" _ rfl
                (accepts_payingOnce hbuild hall) a
              rwa [paid_payingOnce hall] at hpays
  · rintro h decode hunsigned txhex tx htx haccepts a
    obtain ⟨outputs, hbuild, hloop⟩ := (accepts_iff htx copy).mp haccepts
    have hrequired : required option = outputs := by
      simp only [required, hbuild]
    have hmet : ∀ output ∈ required option, copy.Met addressOf (copy.paid tx) output := by
      rw [hrequired]
      exact verifyOutputs_met.mp hloop
    have hpaid : ∀ e ∈ copy.paid tx, 0 ≤ e.amount := paid_nonneg hunsigned htx
    have hall : ∀ output ∈ required option, copy.Matchable addressOf output :=
      fun output hmem => (hmet output hmem).matchable hpaid
    rcases h with ⟨output, hmem, hno⟩ | ⟨honce, hsame⟩
    · exact absurd (hall output hmem) hno
    · rw [hsame (some a)]
      refine honce.total_le (asked_nonneg hall) hpaid (fun e he => ?_) (some a)
      obtain ⟨output, hmem, rfl⟩ := List.mem_map.mp he
      exact (hmet output hmem).entry

/-! ## An output paid once for two -/

/-- A template that pays one address the same amount twice. -/
def twice : PaymentOption where
  id := 1
  invoice_uid := "i"
  currency := "BCH"
  chain := "BCH"
  outputs := some [{ address := "bitcoincash:qshop", amount := some 5000 },
    { address := "bitcoincash:qshop", amount := some 5000 }]

/-- A transaction that pays it once. -/
def once : BitcoreTransaction where
  hash := "t"
  outputs := [none, some { address := "bitcoincash:qshop", amount := 5000 }]

def bch : Plugin where
  currency := "BCH"
  chain := "BCH"
  decimals := 8
  bitcore := some fun _ => some once

theorem half_paid :
    verifyPayment { plugins := [("BCH", bch)] } twice "00" = .ok true ∧
    BCH.validateUnsignedTx bch twice [{ txhex := "00" }] = .ok true ∧
    total (some "qshop") (Copy.bch.paid once) = 5000 ∧
    total (some "qshop") (Copy.bch.owed bch.addressOf twice) = 10000 ∧
    ¬ PaidInFull .bch bch.addressOf twice := by
  have hpay : verifyPayment { plugins := [("BCH", bch)] } twice "00" = .ok true := by
    decide +kernel
  have hbch : BCH.validateUnsignedTx bch twice [{ txhex := "00" }] = .ok true := by
    decide +kernel
  have hpaid : total (some "qshop") (Copy.bch.paid once) = 5000 := by decide +kernel
  have howed : total (some "qshop") (Copy.bch.owed bch.addressOf twice) = 10000 := by
    decide +kernel
  refine ⟨hpay, hbch, hpaid, howed, fun h => ?_⟩
  have hunsigned : Unsigned fun _ => some once := by
    intro _ tx htx output hmem
    obtain rfl := Option.some.inj htx
    simp only [once, List.mem_cons, reduceCtorEq, Option.some.injEq, List.not_mem_nil, or_false,
      false_or] at hmem
    subst hmem
    decide
  have hle := h _ hunsigned "00" once rfl
    (.bch bch { txhex := "00" } [] rfl rfl rfl hbch) "qshop"
  rw [hpaid, howed] at hle
  norm_num at hle

end Anypay.Verification
