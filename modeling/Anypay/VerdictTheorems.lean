/-
Anypay.VerdictTheorems — what the verdict of the output check depends on.

Every copy of the check turns the transaction into a list of outputs and looks
for each output asked for in that list (`verdict_eq`). So only membership counts
(`Check.Accepts.mono`): the order of either list is nothing to it, more outputs
paid or fewer asked for never spoil a verdict. The copies differ in how they read
a transaction and how they cut a prefix; where the addresses asked for are plain
and what was read is the same, so is the verdict, refusals included.
-/
import Anypay.VerificationTheorems

namespace Anypay.Verdict

open Verification

/-- A copy of the check, with the library it runs on. -/
inductive Check where
  | pay (env : Env)
  | plugin (p : Plugin)
  | bch (p : Plugin)
  | btc (bitcoin : Bitcoinjs)
  | fb (bitcoin : Bitcoinjs)

/-- What it says of a transaction. All but `verifyPayment` of `lib/pay` are given
a list, and read its first. -/
def Check.verdict (check : Check) (option : PaymentOption) (transaction : Transaction)
    (rest : List Transaction) : Except Failure Bool :=
  match check with
  | .pay env => verifyPayment env option transaction.txhex
  | .plugin p => p.validateUnsignedTx option (transaction :: rest)
  | .bch p => BCH.validateUnsignedTx p option (transaction :: rest)
  | .btc bitcoin => BTC.validateUnsignedTx bitcoin option (transaction :: rest)
  | .fb bitcoin => FB.validateUnsignedTx bitcoin option (transaction :: rest)

def Check.Accepts (check : Check) (option : PaymentOption) (transaction : Transaction)
    (rest : List Transaction) : Prop :=
  check.verdict option transaction rest = .ok true

/-- The chain `lib/pay` looks its library up under. -/
def chainOf (option : PaymentOption) : String := orElse (some option.chain) option.currency

/-- The transaction its library decodes. -/
def Check.decode (check : Check) (option : PaymentOption) (txhex : String) :
    Option BitcoreTransaction :=
  match check with
  | .pay env => (decodeTransaction env (chainOf option) txhex).toOption
  | .plugin p | .bch p => (p.decode txhex).toOption
  | .btc bitcoin | .fb bitcoin => bitcoin.fromHex txhex

/-- The outputs it has of a decoded transaction, those it compares. -/
def Check.outputs (check : Check) (tx : BitcoreTransaction) : List TransactionOutput :=
  match check with
  | .pay _ | .plugin _ | .bch _ => addressedOutputs tx
  | .btc _ | .fb _ => tx.outputs.filterMap id

/-- The address it looks for. -/
def Check.target (check : Check) (option : PaymentOption) (output : PaymentOutput) :
    Except Failure (Option String) :=
  match check with
  | .pay env =>
      match find env (chainOf option) (chainOf option) with
      | .ok p => targetAddress p.addressOf output
      | .error e => .error e
  | .plugin p | .bch p => targetAddress p.addressOf output
  | .btc bitcoin | .fb bitcoin => bitcoin.targetAddress output

section

variable {check other : Check} {option : PaymentOption} {transaction transaction' : Transaction}
  {rest rest' : List Transaction} {tx tx' : BitcoreTransaction}

theorem toOption_eq_some {α : Type} {x : Except Failure α} {a : α}
    (h : x.toOption = some a) : x = .ok a := by
  cases x with
  | error e => cases h
  | ok b =>
      obtain rfl := Option.some.inj h
      rfl

theorem find_of_decode {env : Env} {currency txhex : String}
    (h : decodeTransaction env currency txhex = .ok tx) :
    ∃ plugin, find env currency currency = .ok plugin := by
  unfold decodeTransaction at h
  cases hfind : find env currency currency with
  | error e =>
      rw [hfind] at h
      cases h
  | ok plugin => exact ⟨plugin, rfl⟩

/-- Every copy is the loop over what is asked for, on its own reading. -/
theorem verdict_eq (h : check.decode option transaction.txhex = some tx) :
    check.verdict option transaction rest = (buildOutputs option).bind fun outputs =>
      verifyOutputs (check.outputs tx) (check.target option) outputs := by
  cases check with
  | pay env =>
      have hdecode : decodeTransaction env (chainOf option) transaction.txhex = .ok tx :=
        toOption_eq_some h
      obtain ⟨plugin, hfind⟩ := find_of_decode hdecode
      unfold chainOf at hdecode hfind
      have htarget : (Check.pay env).target option = targetAddress plugin.addressOf := by
        funext output
        simp only [Check.target, chainOf, hfind]
      rw [htarget]
      simp only [Check.verdict, verifyPayment, hdecode, hfind]
      rfl
  | plugin p | bch p =>
      have hdecode : p.decode transaction.txhex = .ok tx := toOption_eq_some h
      simp only [Check.verdict, BCH.validateUnsignedTx, Plugin.validateUnsignedTx, hdecode]
      rfl
  | btc bitcoin | fb bitcoin =>
      have hdecode : bitcoin.fromHex transaction.txhex = some tx := h
      simp only [Check.verdict, FB.validateUnsignedTx, BTC.validateUnsignedTx,
        Bitcoinjs.parsePayments, hdecode]
      rfl

/-- It accepts where every output asked for is among those paid. -/
theorem accepts_iff (h : check.decode option transaction.txhex = some tx) :
    check.Accepts option transaction rest ↔ ∃ outputs, buildOutputs option = .ok outputs ∧
      ∀ output ∈ outputs, ∃ paid ∈ check.outputs tx,
        check.target option output = .ok (some paid.address) ∧
          output.amount = some (paid.amount : Rat) := by
  unfold Check.Accepts
  rw [verdict_eq h]
  simp only [← verifyOutputs_ok]
  exact except_bind_ok (x := buildOutputs option)

/-! ## More paid, less asked for -/

/-- An output a check has, it also has of a transaction that pays more. -/
theorem outputs_mono (hsub : ∀ output ∈ tx.outputs, output ∈ tx'.outputs) :
    ∀ output ∈ check.outputs tx, output ∈ check.outputs tx' := by
  intro output hmem
  cases check <;>
  · simp only [Check.outputs, addressedOutputs, List.mem_filterMap] at hmem ⊢
    obtain ⟨o, ho, heq⟩ := hmem
    exact ⟨o, hsub o ho, heq⟩

/-- A verdict is kept where the transaction has at least those outputs and the
option asks for at most these. -/
theorem Check.Accepts.mono {option' : PaymentOption}
    (h : check.Accepts option transaction rest)
    (hdecode : check.decode option transaction.txhex = some tx)
    (hdecode' : check.decode option' transaction'.txhex = some tx')
    (hpaid : ∀ output ∈ tx.outputs, output ∈ tx'.outputs)
    (hasked : ∀ outputs, buildOutputs option = .ok outputs →
      ∃ outputs', buildOutputs option' = .ok outputs' ∧ ∀ output ∈ outputs', output ∈ outputs)
    (htarget : check.target option' = check.target option) :
    check.Accepts option' transaction' rest' := by
  obtain ⟨outputs, hbuild, hall⟩ := (accepts_iff hdecode).mp h
  obtain ⟨outputs', hbuild', hsub⟩ := hasked outputs hbuild
  refine (accepts_iff hdecode').mpr ⟨outputs', hbuild', fun output hmem => ?_⟩
  obtain ⟨paid, hin, hfor, hamount⟩ := hall output (hsub output hmem)
  rw [htarget]
  exact ⟨paid, outputs_mono hpaid paid hin, hfor, hamount⟩

/-- The same option, a transaction that pays at least as much. -/
theorem Check.Accepts.pays (h : check.Accepts option transaction rest)
    (hdecode : check.decode option transaction.txhex = some tx)
    (hdecode' : check.decode option transaction'.txhex = some tx')
    (hpaid : ∀ output ∈ tx.outputs, output ∈ tx'.outputs) :
    check.Accepts option transaction' rest' :=
  h.mono hdecode hdecode' hpaid
    (fun outputs hbuild => ⟨outputs, hbuild, fun _ hmem => hmem⟩) rfl

/-- The option with other outputs. -/
def asking (option : PaymentOption) (outputs : List Output) : PaymentOption :=
  { option with outputs := some outputs }

@[simp] theorem decode_asking (outputs : List Output) :
    check.decode (asking option outputs) = check.decode option := by
  cases check <;> rfl

@[simp] theorem target_asking (outputs : List Output) :
    check.target (asking option outputs) = check.target option := by
  cases check <;> rfl

/-- The same transaction, an option that asks for no more. -/
theorem Check.Accepts.asks {outs outs' : List Output}
    (h : check.Accepts (asking option outs) transaction rest)
    (hdecode : check.decode option transaction.txhex = some tx)
    (hsub : ∀ output ∈ outs', output ∈ outs) :
    check.Accepts (asking option outs') transaction rest := by
  have hread : ∀ outputs, check.decode (asking option outputs) transaction.txhex = some tx := by
    simpa using hdecode
  refine h.mono (hread outs) (hread outs') (fun _ hmem => hmem) ?_ (by simp)
  intro outputs hbuild
  simp only [buildOutputs, asking, Except.ok.injEq] at hbuild
  subst hbuild
  refine ⟨_, rfl, fun output hmem => ?_⟩
  obtain ⟨o, ho, rfl⟩ := List.mem_map.mp hmem
  exact List.mem_map_of_mem (hsub o ho)

/-! ## Plain addresses -/

/-- An output asked for by address, without a chain prefix. -/
structure Plain (output : PaymentOutput) : Prop where
  unscripted : nonEmpty output.script = none
  unprefixed : output.address.toList.contains ':' = false

/-- Every copy that can read transactions looks for a plain address as it is. -/
theorem target_plain {output : PaymentOutput} (h : Plain output)
    (hdecode : check.decode option transaction.txhex = some tx) :
    check.target option output = .ok (some output.address) := by
  have haddress : ∀ addressOf : String → Option String,
      outputAddress addressOf output = .ok output.address := by
    intro addressOf
    simp only [outputAddress, h.unscripted]
  have hbitcore : ∀ addressOf, targetAddress addressOf output = .ok (some output.address) := by
    intro addressOf
    simp only [targetAddress, haddress, Except.map, h.unprefixed, Bool.false_eq_true, if_false]
  cases check with
  | pay env =>
      obtain ⟨plugin, hfind⟩ := find_of_decode (toOption_eq_some hdecode)
      simp only [Check.target, hfind, hbitcore]
  | plugin p | bch p => exact hbitcore p.addressOf
  | btc bitcoin | fb bitcoin =>
      simp only [Check.target, Bitcoinjs.targetAddress, haddress, Except.map]

/-- The loop asks for the target of each output, and for nothing else of it. -/
theorem verifyOutputs_congr {txOutputs : List TransactionOutput}
    {target target' : PaymentOutput → Except Failure (Option String)}
    {outputs : List PaymentOutput} (h : ∀ output ∈ outputs, target output = target' output) :
    verifyOutputs txOutputs target outputs = verifyOutputs txOutputs target' outputs := by
  induction outputs with
  | nil => rfl
  | cons output outputs ih =>
      simp only [verifyOutputs]
      rw [h output List.mem_cons_self, ih fun o ho => h o (List.mem_cons_of_mem _ ho)]

/-- On the same outputs read, two copies say the same of plain addresses. -/
theorem verdict_plain (hdecode : check.decode option transaction.txhex = some tx)
    (hdecode' : other.decode option transaction'.txhex = some tx')
    (hsame : check.outputs tx = other.outputs tx')
    (hplain : ∀ output ∈ required option, Plain output) :
    check.verdict option transaction rest = other.verdict option transaction' rest' := by
  rw [verdict_eq hdecode, verdict_eq hdecode', hsame]
  unfold required at hplain
  cases hbuild : buildOutputs option with
  | error e => rfl
  | ok outputs =>
      rw [hbuild] at hplain
      refine verifyOutputs_congr fun output hmem => ?_
      rw [target_plain (hplain output hmem) hdecode, target_plain (hplain output hmem) hdecode']

end

/-! ## The outputs decide -/

/-- What a copy says of a transaction it can read is a matter of which outputs
there are. -/
structure OutputsDecide (check : Check) : Prop where
  /-- The transaction's outputs in another order. -/
  shuffled : ∀ option transaction transaction' rest rest' tx tx',
    check.decode option transaction.txhex = some tx →
    check.decode option transaction'.txhex = some tx' → tx.outputs.Perm tx'.outputs →
    (check.Accepts option transaction rest ↔ check.Accepts option transaction' rest')
  /-- More outputs, in any places. -/
  added : ∀ option transaction transaction' rest rest' tx tx',
    check.decode option transaction.txhex = some tx →
    check.decode option transaction'.txhex = some tx' → tx.outputs.Sublist tx'.outputs →
    check.Accepts option transaction rest → check.Accepts option transaction' rest'
  /-- The option's outputs in another order. -/
  reordered : ∀ option transaction rest tx outs outs',
    check.decode option transaction.txhex = some tx → outs.Perm outs' →
    (check.Accepts (asking option outs) transaction rest ↔
      check.Accepts (asking option outs') transaction rest)
  /-- Fewer outputs asked for. -/
  removed : ∀ option transaction rest tx outs outs',
    check.decode option transaction.txhex = some tx → outs'.Sublist outs →
    check.Accepts (asking option outs) transaction rest →
    check.Accepts (asking option outs') transaction rest
  /-- Another copy that has read the same outputs, of plain addresses. -/
  agreed : ∀ other : Check, ∀ option transaction transaction' rest rest' tx tx',
    check.decode option transaction.txhex = some tx →
    other.decode option transaction'.txhex = some tx' → check.outputs tx = other.outputs tx' →
    (∀ output ∈ required option, Plain output) →
    check.verdict option transaction rest = other.verdict option transaction' rest'

/-- **Outputs decide**: of every copy of the check. -/
theorem outputs_decide (check : Check) : OutputsDecide check where
  shuffled := by
    intro option transaction transaction' rest rest' tx tx' hdecode hdecode' hperm
    constructor
    · intro h
      exact h.pays hdecode hdecode' fun _ hmem => hperm.mem_iff.mp hmem
    · intro h
      exact h.pays hdecode' hdecode fun _ hmem => hperm.mem_iff.mpr hmem
  added := by
    intro option transaction transaction' rest rest' tx tx' hdecode hdecode' hsub h
    exact h.pays hdecode hdecode' fun _ hmem => hsub.subset hmem
  reordered := by
    intro option transaction rest tx outs outs' hdecode hperm
    constructor
    · intro h
      exact h.asks hdecode fun _ hmem => hperm.mem_iff.mpr hmem
    · intro h
      exact h.asks hdecode fun _ hmem => hperm.mem_iff.mp hmem
  removed := by
    intro option transaction rest tx outs outs' hdecode hsub h
    exact h.asks hdecode fun _ hmem => hsub.subset hmem
  agreed := by
    intro other option transaction transaction' rest rest' tx tx' hdecode hdecode' hsame hplain
    exact verdict_plain hdecode hdecode' hsame hplain

/-- A transaction with a data script and change, besides the two outputs asked for. -/
def withChange : BitcoreTransaction where
  hash := "t"
  outputs := [none, some ⟨"b", 2⟩, some ⟨"c", 9⟩, some ⟨"a", 1⟩]

def twoPlain : PaymentOption where
  id := 1
  invoice_uid := "i"
  currency := "BTC"
  chain := "BTC"
  outputs := some [⟨"a", some 1, none⟩, ⟨"b", some 2, none⟩]

example : (Check.btc { fromHex := fun _ => some withChange, fromOutputScript := fun _ => none }
    ).verdict twoPlain { txhex := "00" } [] = .ok true := by decide +kernel

end Anypay.Verdict
