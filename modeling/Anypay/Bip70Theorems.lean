/-
Anypay.Bip70Theorems — whether a BIP70 request asks for what its option says.

`buildOutputs` chooses the script of an address by the first character of its text: the
script of a script hash where it is a 3, of a public key hash otherwise. That is right
for the script addresses of BTC and BSV, and wrong for those of BCH and DASH and for
every segwit address, whose request pays to a script nobody or another holds
(`script_address_misread`). `faithful_iff` says when a request is faithful: decoded it
is the outputs of the option, and what pays it passes `verifyPayment`.

What bitcore does is `Bitcore`: an address is a kind and a hash, which more than one
text may stand for; the library writes one of them. The bytes between
`buildOutputs` and `paymentRequestToJSON` are those of the payment protocol library.
-/
import Anypay.PaymentProtocols
import Anypay.VerificationTheorems

namespace Anypay.Bip70

open Verification

/-! ## Addresses and scripts -/

inductive Kind where
  | publicKeyHash
  | scriptHash
  | witness
  deriving DecidableEq

/-- An address: what is paid to, and its hash. -/
structure ChainAddress where
  kind : Kind
  hash : String
  deriving DecidableEq

/-- How a chain writes its addresses, and the scripts over a hash. -/
structure Chain where
  /-- The address a valid text stands for. -/
  denotes : String → Option ChainAddress
  /-- `address.toString()`. -/
  text : ChainAddress → String
  publicKeyHashOut : String → String
  scriptHashOut : String → String

/-- What bitcore makes of a chain's addresses, and of their scripts. It may read no segwit
address at all, and builds the script of a script hash for no other address. -/
structure Bitcore (chain : Chain) (library : ScriptLibrary)
    (addressOf : String → Option String) : Prop where
  buildPublicKeyHashOut : ∀ s a, chain.denotes s = some a →
    library.buildPublicKeyHashOut s = some (chain.publicKeyHashOut a.hash) ∨
      a.kind = .witness ∧ library.buildPublicKeyHashOut s = none
  buildScriptHashOut : ∀ s a, chain.denotes s = some a →
    library.buildScriptHashOut s =
      if a.kind = .scriptHash then some (chain.scriptHashOut a.hash) else none
  publicKeyHash : ∀ s a, chain.denotes s = some a → a.kind = .publicKeyHash →
    addressOf (chain.publicKeyHashOut a.hash) = some (chain.text a)
  scriptHash : ∀ s a, chain.denotes s = some a → a.kind = .scriptHash →
    addressOf (chain.scriptHashOut a.hash) = some (chain.text a)
  kind : ∀ hash t, addressOf (chain.publicKeyHashOut hash) = some t →
    ∃ a, chain.denotes t = some a ∧ a.kind = .publicKeyHash
  denotes_text : ∀ s a, chain.denotes s = some a → chain.denotes (chain.text a) = some a
  /-- The prefix of a text does not matter to what it stands for. -/
  denotes_strip : ∀ s s' a a', chain.denotes s = some a → chain.denotes s' = some a' →
    stripPrefix s = stripPrefix s' → a = a'

/-- Amounts a transaction can have. -/
def Payable (amount : Int) : Prop := 0 ≤ amount ∧ amount < 2 ^ 53

/-- Bitcore reads safe amounts only. -/
def SafeAmounts (decode : String → Option BitcoreTransaction) : Prop :=
  ∀ txhex tx, decode txhex = some tx → ∀ output, some output ∈ tx.outputs → Payable output.amount

/-- The outputs of some transaction are the requested ones. -/
def Written (decode : String → Option BitcoreTransaction) (addressOf : String → Option String)
    (requested : List ScriptOutput) : Prop :=
  ∃ txhex tx, decode txhex = some tx ∧ tx.outputs = requested.map fun output =>
    (addressOf output.script).map fun address => { address, amount := output.amount.getD 0 }

/-! ## Faithful requests -/

/-- The transaction pays every requested script its amount. -/
def Pays (addressOf : String → Option String) (requested : List ScriptOutput)
    (tx : BitcoreTransaction) : Prop :=
  ∀ output ∈ requested, ∃ amount : Int, output.amount = some amount ∧
    ((addressOf output.script).map fun address =>
      ({ address, amount } : TransactionOutput)) ∈ tx.outputs

/-- The same address, in whatever text, and the same amount. -/
def SameOutput (chain : Chain) (decoded : DecodedOutput) (output : Output) : Prop :=
  chain.denotes decoded.address = chain.denotes output.address ∧ decoded.amount = output.amount

/-- Decoded, the request is these outputs, and a transaction that pays it is accepted for
the option. -/
def Faithful (env : Env) (scripts : Scripts) (chain : Chain)
    (decode : String → Option BitcoreTransaction) (addressOf : String → Option String)
    (option : PaymentOption) (outputs : List Output) : Prop :=
  ∃ requested, buildOutputs env scripts option = .ok requested ∧
    (∃ decoded, decodeOutputs env option.currency requested = .ok decoded ∧
      List.Forall₂ (SameOutput chain) decoded outputs) ∧
    ∀ txhex tx, decode txhex = some tx → Pays addressOf requested tx →
      verifyPayment env option txhex = .ok true

/-- The first character of the text stands for the kind the address has. -/
def RightKind (s : String) (a : ChainAddress) : Prop :=
  if s.toList.head? = some '3' then a.kind = .scriptHash else a.kind = .publicKeyHash

/-- Every amount is one a transaction can pay. -/
def AllPayable (outputs : List Output) : Prop :=
  ∀ output ∈ outputs, ∃ amount : Int, output.amount = some amount ∧ Payable amount

section Requests

variable {chain : Chain} {library : ScriptLibrary} {addressOf : String → Option String}
  {s script t : String} {a : ChainAddress}

/-! ## One output -/

/-- Of the right kind, the script is the address's own. -/
theorem scriptOf_right (h : Bitcore chain library addressOf) (hs : chain.denotes s = some a)
    (hkind : RightKind s a) : ∃ script, scriptOf (some library) s = .ok script ∧
      addressOf script = some (chain.text a) := by
  unfold RightKind at hkind
  unfold scriptOf scriptBy
  by_cases hthree : s.toList.head? = some '3'
  · rw [if_pos hthree] at hkind ⊢
    refine ⟨chain.scriptHashOut a.hash, ?_, h.scriptHash s a hs hkind⟩
    simp only [h.buildScriptHashOut s a hs, if_pos hkind]
  · rw [if_neg hthree] at hkind ⊢
    refine ⟨chain.publicKeyHashOut a.hash, ?_, h.publicKeyHash s a hs hkind⟩
    rcases h.buildPublicKeyHashOut s a hs with hbuilt | ⟨hwitness, -⟩
    · simp only [hbuilt]
    · rw [hkind] at hwitness
      cases hwitness

/-- A script that decodes to the address is of the right kind. -/
theorem rightKind_of_decoded (h : Bitcore chain library addressOf)
    (hs : chain.denotes s = some a) (hscript : scriptOf (some library) s = .ok script)
    (ht : addressOf script = some t) (hsame : chain.denotes t = some a) : RightKind s a := by
  unfold RightKind
  unfold scriptOf scriptBy at hscript
  by_cases hthree : s.toList.head? = some '3'
  · rw [if_pos hthree] at hscript ⊢
    simp only [h.buildScriptHashOut s a hs] at hscript
    by_contra hkind
    rw [if_neg hkind] at hscript
    cases hscript
  · rw [if_neg hthree] at hscript ⊢
    rcases h.buildPublicKeyHashOut s a hs with hbuilt | ⟨-, hnone⟩
    · simp only [hbuilt] at hscript
      obtain rfl := Except.ok.inj hscript
      obtain ⟨a', ha', hkind⟩ := h.kind _ _ ht
      rw [hsame] at ha'
      rw [Option.some.inj ha']
      exact hkind
    · simp only [hnone] at hscript
      cases hscript

/-! ## All outputs -/

theorem mapM_ok_iff {α β : Type} {f : α → Except Failure β} {xs : List α} {ys : List β} :
    xs.mapM f = .ok ys ↔ List.Forall₂ (fun x y => f x = .ok y) xs ys := by
  induction xs generalizing ys with
  | nil =>
      rw [List.mapM_nil, List.forall₂_nil_left_iff]
      exact ⟨fun h => (Except.ok.inj h).symm, fun h => by rw [h]; rfl⟩
  | cons x xs ih =>
      rw [List.mapM_cons, except_bind_ok]
      constructor
      · rintro ⟨y, hy, h⟩
        obtain ⟨rest, hrest, h⟩ := except_bind_ok.mp h
        obtain rfl := Except.ok.inj h
        exact .cons hy (ih.mp hrest)
      · rintro (_ | ⟨hy, hrest⟩)
        exact ⟨_, hy, except_bind_ok.mpr ⟨_, ih.mpr hrest, rfl⟩⟩

section Option

variable {env : Env} {scripts : Scripts} {option : PaymentOption} {plugin : Plugin}
  {decode : String → Option BitcoreTransaction} {outputs : List Output}
  {requested : List ScriptOutput} {decoded : List DecodedOutput}

theorem buildOutputs_ok (hfind : find env option.currency option.currency = .ok plugin)
    (hdecode : plugin.bitcore = some decode) (houtputs : option.outputs = some outputs) :
    buildOutputs env scripts option = .ok requested ↔
      List.Forall₂ (fun (o : Output) (r : ScriptOutput) =>
        scriptOf (some (scripts option.currency)) o.address = .ok r.script ∧
          r.amount = o.amount) outputs requested := by
  have hlibrary : getBitcore env scripts option.currency =
      .ok (some (scripts option.currency)) := by
    unfold getBitcore
    rw [hfind]
    show Except.ok (plugin.bitcore.map _) = _
    rw [hdecode]
    rfl
  unfold buildOutputs
  rw [hlibrary, houtputs]
  show (outputs.mapM _ : Except Failure _) = _ ↔ _
  rw [mapM_ok_iff]
  constructor
  all_goals
    apply List.Forall₂.imp
    intro o r h
  · obtain ⟨script, hscript, h⟩ := except_bind_ok.mp h
    obtain rfl := Except.ok.inj h
    exact ⟨hscript, rfl⟩
  · obtain ⟨amount, script⟩ := r
    obtain ⟨hscript, rfl⟩ := h
    exact except_bind_ok.mpr ⟨script, hscript, rfl⟩

theorem decodeOutputs_ok {currency : String} (hfind : find env currency currency = .ok plugin)
    (hdecode : plugin.bitcore = some decode) :
    decodeOutputs env currency requested = .ok decoded ↔
      List.Forall₂ (fun (r : ScriptOutput) (d : DecodedOutput) =>
        plugin.addressOf r.script = some d.address ∧ d.amount = r.amount) requested decoded := by
  unfold decodeOutputs
  rw [hfind]
  show (requested.mapM _ : Except Failure _) = _ ↔ _
  rw [mapM_ok_iff]
  simp only [hdecode]
  constructor
  all_goals
    apply List.Forall₂.imp
    intro r d h
  · cases haddress : plugin.addressOf r.script with
    | none => simp [haddress] at h
    | some address =>
        simp only [haddress] at h
        obtain rfl := Except.ok.inj h
        exact ⟨rfl, rfl⟩
  · obtain ⟨address, amount⟩ := d
    obtain ⟨haddress, rfl⟩ := h
    simp only [haddress]

/-- `verifyPayment` looks for the text of each address, without a prefix. -/
theorem accepts_payment_iff {txhex : String} {tx : BitcoreTransaction}
    (hchain : orElse (some option.chain) option.currency = option.currency)
    (hfind : find env option.currency option.currency = .ok plugin)
    (hdecode : plugin.bitcore = some decode) (houtputs : option.outputs = some outputs)
    (hplain : ∀ o ∈ outputs, nonEmpty o.script = none) (htx : decode txhex = some tx) :
    verifyPayment env option txhex = .ok true ↔ ∀ o ∈ outputs,
      ∃ paid, some paid ∈ tx.outputs ∧ stripPrefix o.address = stripPrefix paid.address ∧
        o.amount = some paid.amount := by
  have htarget : ∀ (o : Output), nonEmpty o.script = none → ∀ amount,
      targetAddress plugin.addressOf { address := o.address, amount, script := o.script } =
        .ok (some (stripPrefix o.address)) := by
    intro o hscript amount
    unfold targetAddress outputAddress
    simp only [hscript]
    show Except.ok (if o.address.toList.contains ':' then _ else _) = _
    unfold stripPrefix
    split
    · rfl
    · rfl
  rw [verifyPayment_ok (by rw [hchain]; exact hfind) hdecode htx]
  unfold Anypay.buildOutputs
  rw [houtputs]
  simp only [Except.ok.injEq, exists_eq_left', verifyOutputs_ok, List.forall_mem_map]
  refine forall₂_congr fun o ho => ?_
  rw [htarget o (hplain o ho)]
  have hcast : ∀ n : Int, (Option.map (fun n => n) (do let a ← o.amount; pure (a : ℚ))) =
      some (n : ℚ) ↔ o.amount = some n := by
    intro n
    cases o.amount with
    | none => simp
    | some m => simp
  simp only [hcast, Except.ok.injEq, Option.some.injEq, addressedOutputs, List.mem_filterMap,
    Option.map_eq_some_iff]
  constructor
  · rintro ⟨_, ⟨_, hmem, paid, rfl, rfl⟩, haddress, hamount⟩
    exact ⟨paid, hmem, haddress, hamount⟩
  · rintro ⟨paid, hmem, haddress, hamount⟩
    exact ⟨_, ⟨_, hmem, paid, rfl, rfl⟩, haddress, hamount⟩

/-! ## When a request is faithful -/

/-- What is requested of the outputs, one by one. -/
def Requested (chain : Chain) (library : ScriptLibrary) (addressOf : String → Option String) :
    List Output → List ScriptOutput → Prop :=
  List.Forall₂ fun o r => ∃ a, chain.denotes o.address = some a ∧
    scriptOf (some library) o.address = .ok r.script ∧
      addressOf r.script = some (chain.text a) ∧ r.amount = o.amount

/-- Where the first characters stand for the kinds, there is a request. -/
theorem requested_of_right (hbitcore : Bitcore chain library addressOf)
    (hvalid : ∀ o ∈ outputs, (chain.denotes o.address).isSome)
    (hright : ∀ o ∈ outputs, ∀ a, chain.denotes o.address = some a → RightKind o.address a) :
    ∃ requested, Requested chain library addressOf outputs requested := by
  induction outputs with
  | nil => exact ⟨[], .nil⟩
  | cons o outputs ih =>
      obtain ⟨requested, hrest⟩ := ih (fun x hx => hvalid x (by simp [hx]))
        fun x hx => hright x (by simp [hx])
      obtain ⟨a, ha⟩ := Option.isSome_iff_exists.mp (hvalid o (by simp))
      obtain ⟨script, hscript, haddress⟩ :=
        scriptOf_right hbitcore ha (hright o (by simp) a ha)
      exact ⟨{ amount := o.amount, script } :: requested,
        .cons ⟨a, ha, hscript, haddress, rfl⟩ hrest⟩

theorem Requested.decodes (hbitcore : Bitcore chain library addressOf)
    (h : Requested chain library addressOf outputs requested) :
    ∃ decoded, List.Forall₂ (fun (r : ScriptOutput) (d : DecodedOutput) =>
      addressOf r.script = some d.address ∧ d.amount = r.amount) requested decoded ∧
        List.Forall₂ (SameOutput chain) decoded outputs := by
  induction h with
  | nil => exact ⟨[], .nil, .nil⟩
  | @cons o r _ _ hhead _ ih =>
      obtain ⟨decoded, hdecoded, hsame⟩ := ih
      obtain ⟨a, ha, -, haddress, hamount⟩ := hhead
      refine ⟨{ address := chain.text a, amount := r.amount } :: decoded,
        .cons ⟨haddress, rfl⟩ hdecoded, .cons ⟨?_, hamount⟩ hsame⟩
      rw [ha]
      exact hbitcore.denotes_text _ a ha

/-- The requests that decode to their outputs have scripts of the right kinds. -/
theorem rightKind_all (hbitcore : Bitcore chain library addressOf)
    (hbuilt : List.Forall₂ (fun (o : Output) (r : ScriptOutput) =>
      scriptOf (some library) o.address = .ok r.script ∧ r.amount = o.amount) outputs requested)
    (hdecoded : List.Forall₂ (fun (r : ScriptOutput) (d : DecodedOutput) =>
      addressOf r.script = some d.address ∧ d.amount = r.amount) requested decoded)
    (hsame : List.Forall₂ (SameOutput chain) decoded outputs) :
    ∀ o ∈ outputs, ∀ a, chain.denotes o.address = some a → RightKind o.address a := by
  intro o ho a ha
  obtain ⟨i, hi, rfl⟩ := List.getElem_of_mem ho
  have hrequested : i < requested.length := hbuilt.length_eq ▸ hi
  have hdecoded' : i < decoded.length := hdecoded.length_eq ▸ hrequested
  have hscript := (List.Forall₂.get hbuilt hi hrequested).1
  have haddress := (List.Forall₂.get hdecoded hrequested hdecoded').1
  have hsameAddress := (List.Forall₂.get hsame hdecoded' hi).1
  exact rightKind_of_decoded hbitcore ha hscript haddress (hsameAddress.trans ha)

theorem Requested.payable (h : Requested chain library addressOf outputs requested)
    (hpayable : AllPayable outputs) :
    ∀ r ∈ requested, ∃ n : Int, r.amount = some n ∧ Payable n := by
  intro r hr
  obtain ⟨o, ho, _, _, _, _, hsame⟩ := (Async.Proc.mem_of_pointwise h).2 r hr
  rw [hsame]
  exact hpayable o ho

/-- A written transaction pays what was requested, and nothing else. -/
theorem exists_pays (hwritten : Written decode addressOf requested)
    (hamount : ∀ r ∈ requested, ∃ n : Int, r.amount = some n ∧ Payable n) :
    ∃ txhex tx, decode txhex = some tx ∧ Pays addressOf requested tx ∧
      ∀ paid, some paid ∈ tx.outputs →
        ∃ r ∈ requested, addressOf r.script = some paid.address := by
  obtain ⟨txhex, tx, htx, houtputs⟩ := hwritten
  refine ⟨txhex, tx, htx, fun r hr => ?_, fun paid hpaid => ?_⟩
  · obtain ⟨n, hn, -⟩ := hamount r hr
    refine ⟨n, hn, ?_⟩
    rw [houtputs]
    exact List.mem_map.mpr ⟨r, hr, by simp [hn]⟩
  · rw [houtputs] at hpaid
    obtain ⟨r, hr, hpaid⟩ := List.mem_map.mp hpaid
    obtain ⟨address, haddress, rfl⟩ := Option.map_eq_some_iff.mp hpaid
    exact ⟨r, hr, haddress⟩

/-- **A BIP70 request is faithful** exactly where the first character of each address stands
for the address's kind, and, if a transaction can pay the amounts at all, each address is
written as bitcore writes it, but for a prefix. -/
theorem faithful_iff (env : Env) (scripts : Scripts) (option : PaymentOption) (plugin : Plugin)
    (decode : String → Option BitcoreTransaction) (chain : Chain) (outputs : List Output)
    (hchain : orElse (some option.chain) option.currency = option.currency)
    (hfind : find env option.currency option.currency = .ok plugin)
    (hdecode : plugin.bitcore = some decode)
    (hbitcore : Bitcore chain (scripts option.currency) plugin.addressOf)
    (hsafe : SafeAmounts decode)
    (hwritten : ∀ requested, buildOutputs env scripts option = .ok requested →
      (∀ r ∈ requested, ∃ n : Int, r.amount = some n ∧ Payable n) →
      Written decode plugin.addressOf requested)
    (houtputs : option.outputs = some outputs)
    (hplain : ∀ o ∈ outputs, nonEmpty o.script = none)
    (hvalid : ∀ o ∈ outputs, (chain.denotes o.address).isSome) :
    Faithful env scripts chain decode plugin.addressOf option outputs ↔
      ∀ o ∈ outputs, ∀ a, chain.denotes o.address = some a → RightKind o.address a ∧
        (AllPayable outputs → stripPrefix o.address = stripPrefix (chain.text a)) := by
  have hbuiltIff : ∀ requested, buildOutputs env scripts option = .ok requested ↔ _ :=
    fun _ => buildOutputs_ok hfind hdecode houtputs
  constructor
  · rintro ⟨requested, hbuilt, ⟨decoded, hdecoded, hsame⟩, hverify⟩
    have hright := rightKind_all hbitcore ((hbuiltIff _).mp hbuilt)
      ((decodeOutputs_ok hfind hdecode).mp hdecoded) hsame
    refine fun o ho a ha => ⟨hright o ho a ha, fun hpayable => ?_⟩
    obtain ⟨requested', hall⟩ := requested_of_right hbitcore hvalid hright
    have hbuilt' := (hbuiltIff requested').mpr
      (hall.imp fun _ _ ⟨_, _, hscript, _, hamount⟩ => ⟨hscript, hamount⟩)
    obtain rfl : requested' = requested := Except.ok.inj (hbuilt'.symm.trans hbuilt)
    have hamount := Requested.payable hall hpayable
    obtain ⟨txhex, tx, htx, hpays, honly⟩ := exists_pays (hwritten _ hbuilt hamount) hamount
    obtain ⟨paid, hmem, haddress, -⟩ := (accepts_payment_iff hchain hfind hdecode houtputs hplain
      htx).mp (hverify txhex tx htx hpays) o ho
    obtain ⟨r, hr, hscript⟩ := honly paid hmem
    obtain ⟨o', _, a', ha', _, htext, _⟩ := (Async.Proc.mem_of_pointwise hall).2 r hr
    rw [Option.some.inj (hscript.symm.trans htext)] at haddress
    obtain rfl : a = a' := hbitcore.denotes_strip _ _ _ _ ha
      (hbitcore.denotes_text _ _ ha') haddress
    exact haddress
  · intro h
    obtain ⟨requested, hall⟩ := requested_of_right hbitcore hvalid
      fun o ho a ha => (h o ho a ha).1
    obtain ⟨decoded, hdecoded, hsame⟩ := Requested.decodes hbitcore hall
    refine ⟨requested, (hbuiltIff _).mpr
      (hall.imp fun _ _ ⟨_, _, hscript, _, hamount⟩ => ⟨hscript, hamount⟩),
      ⟨decoded, (decodeOutputs_ok hfind hdecode).mpr hdecoded, hsame⟩, ?_⟩
    intro txhex tx htx hpays
    apply (accepts_payment_iff hchain hfind hdecode houtputs hplain htx).mpr
    have hpaid : ∀ o ∈ outputs, ∃ a, ∃ n : Int, chain.denotes o.address = some a ∧
        o.amount = some n ∧ some { address := chain.text a, amount := n } ∈ tx.outputs := by
      intro o ho
      obtain ⟨r, hr, a, ha, _, htext, hamount⟩ := (Async.Proc.mem_of_pointwise hall).1 o ho
      obtain ⟨n, hn, hmem⟩ := hpays r hr
      rw [htext] at hmem
      exact ⟨a, n, ha, hamount.symm.trans hn, hmem⟩
    have hpayable : AllPayable outputs := by
      intro o ho
      obtain ⟨a, n, _, hn, hmem⟩ := hpaid o ho
      exact ⟨n, hn, hsafe txhex tx htx _ hmem⟩
    intro o ho
    obtain ⟨a, n, ha, hn, hmem⟩ := hpaid o ho
    exact ⟨_, hmem, (h o ho a ha).2 hpayable, hn⟩

end Option

end Requests

/-! ## An address of Bitcoin Cash -/

namespace Cash

/-- One hash, as a key's and as a script's. -/
def hash : String := "76a04053bda0a88bda5177b86a15c3b29f559873"

def keyAddress : String := "bitcoincash:qpm2qsznhks23z7629mms6s4cwef74vcwvy22gdx6a"

def scriptAddress : String := "bitcoincash:ppm2qsznhks23z7629mms6s4cwef74vcwvn0h829pq"

def denotes (s : String) : Option ChainAddress :=
  if s = keyAddress ∨ s = stripPrefix keyAddress then some { kind := .publicKeyHash, hash }
  else if s = scriptAddress ∨ s = stripPrefix scriptAddress then
    some { kind := .scriptHash, hash }
  else none

def chain : Chain where
  denotes
  text a := if a.kind = .scriptHash then scriptAddress else keyAddress
  publicKeyHashOut hash := "76a914" ++ hash ++ "88ac"
  scriptHashOut hash := "a914" ++ hash ++ "87"

def library : ScriptLibrary where
  buildPublicKeyHashOut s := (denotes s).map fun a => chain.publicKeyHashOut a.hash
  buildScriptHashOut s := (denotes s).bind fun a =>
    if a.kind = .scriptHash then some (chain.scriptHashOut a.hash) else none
  ofAddress s := (denotes s).map fun a =>
    if a.kind = .scriptHash then chain.scriptHashOut a.hash else chain.publicKeyHashOut a.hash

def addressOf (script : String) : Option String :=
  if script = chain.publicKeyHashOut hash then some keyAddress
  else if script = chain.scriptHashOut hash then some scriptAddress
  else none

/-- A transaction of 5000 units to the key. -/
def txhex : String :=
  "01000000000188130000000000001976a91476a04053bda0a88bda5177b86a15c3b29f55987388ac00000000"

def decode (hex : String) : Option BitcoreTransaction :=
  if hex = txhex then
    some { hash := "", outputs := [some { address := keyAddress, amount := 5000 }] }
  else none

def plugin : Plugin where
  currency := "BCH"
  chain := "BCH"
  decimals := 8
  bitcore := some decode
  addressOf

def env : Env where
  plugins := [("BCH", plugin)]

def option (address : String) : PaymentOption where
  id := 1
  invoice_uid := "inv"
  currency := "BCH"
  chain := "BCH"
  outputs := some [{ address, amount := some 5000 }]

theorem denotes_cases {s : String} {a : ChainAddress} (h : denotes s = some a) :
    ((s = keyAddress ∨ s = stripPrefix keyAddress) ∧ a = { kind := .publicKeyHash, hash }) ∨
      ((s = scriptAddress ∨ s = stripPrefix scriptAddress) ∧
        a = { kind := .scriptHash, hash }) := by
  unfold denotes at h
  split at h
  · rename_i hkey
    exact .inl ⟨hkey, (Option.some.inj h).symm⟩
  · split at h
    · rename_i hscript
      exact .inr ⟨hscript, (Option.some.inj h).symm⟩
    · cases h

theorem bitcore : Bitcore chain library addressOf where
  buildPublicKeyHashOut s a h := .inl (by
    show (denotes s).map _ = _
    rw [show denotes s = some a from h]
    rfl)
  buildScriptHashOut s a h := by
    show (denotes s).bind _ = _
    rw [show denotes s = some a from h]
    rfl
  publicKeyHash s a h hkind := by
    rcases denotes_cases h with ⟨-, rfl⟩ | ⟨-, rfl⟩
    · decide +kernel
    · cases hkind
  scriptHash s a h hkind := by
    rcases denotes_cases h with ⟨-, rfl⟩ | ⟨-, rfl⟩
    · cases hkind
    · decide +kernel
  kind hash' t h := by
    unfold addressOf at h
    split at h
    · obtain rfl := Option.some.inj h
      exact ⟨{ kind := .publicKeyHash, hash }, by decide +kernel, rfl⟩
    · split at h
      · rename_i hscript
        have hfirst := congrArg (fun s => s.toList.head?) hscript
        simp [chain, String.toList_append] at hfirst
      · cases h
  denotes_text s a h := by
    rcases denotes_cases h with ⟨-, rfl⟩ | ⟨-, rfl⟩ <;> decide +kernel
  denotes_strip s s' a a' h h' heq := by
    rcases denotes_cases h with ⟨rfl | rfl, rfl⟩ | ⟨rfl | rfl, rfl⟩ <;>
      rcases denotes_cases h' with ⟨rfl | rfl, rfl⟩ | ⟨rfl | rfl, rfl⟩ <;>
        first | rfl | exact absurd heq (by decide +kernel)

theorem safeAmounts : SafeAmounts decode := by
  intro hex tx htx output houtput
  unfold decode at htx
  split at htx
  · obtain rfl := Option.some.inj htx
    obtain rfl := Option.some.inj (List.mem_singleton.mp houtput)
    exact ⟨by decide, by decide⟩
  · cases htx

theorem scriptOf_eq {address : String} (h : address = keyAddress ∨ address = scriptAddress) :
    scriptOf (some library) address = .ok (chain.publicKeyHashOut hash) := by
  have hbuilt : (scriptOf (some library) address).toOption =
      some (chain.publicKeyHashOut hash) := by
    rcases h with rfl | rfl <;> decide +kernel
  exact ok_of_toOption hbuilt

example : (scriptOf (some library) "").toOption = none := by decide +kernel

/-- Whichever of the addresses is to be paid, the key is. -/
theorem requested_eq {address : String} (h : address = keyAddress ∨ address = scriptAddress)
    {requested : List ScriptOutput}
    (hbuilt : buildOutputs env (fun _ => library) (option address) = .ok requested) :
    requested = [{ amount := some 5000, script := chain.publicKeyHashOut hash }] := by
  have hfind : find env "BCH" "BCH" = .ok plugin := rfl
  obtain ⟨⟨amount, script⟩, rfl, hscript, hamount⟩ : ∃ r, requested = [r] ∧
      scriptOf (some library) address = .ok r.script ∧ r.amount = some 5000 := by
    have houtputs : (option address).outputs = some [{ address, amount := some 5000 }] := rfl
    have hall := (buildOutputs_ok hfind rfl houtputs).mp hbuilt
    obtain ⟨r, rest, hr, hrest, rfl⟩ := List.forall₂_cons_left_iff.mp hall
    obtain rfl := List.forall₂_nil_left_iff.mp hrest
    exact ⟨r, rfl, hr.1, hr.2⟩
  obtain rfl : some 5000 = amount := hamount.symm
  rw [scriptOf_eq h] at hscript
  obtain rfl : chain.publicKeyHashOut hash = script := Except.ok.inj hscript
  rfl

theorem written {address : String} (h : address = keyAddress ∨ address = scriptAddress)
    {requested : List ScriptOutput}
    (hbuilt : buildOutputs env (fun _ => library) (option address) = .ok requested) :
    Written decode addressOf requested := by
  rw [requested_eq h hbuilt]
  refine ⟨txhex, _, if_pos rfl, ?_⟩
  show _ = [(addressOf (chain.publicKeyHashOut hash)).map _]
  rw [show addressOf (chain.publicKeyHashOut hash) = some keyAddress from if_pos rfl]
  rfl

end Cash

/-- A request for the script address pays the key instead. -/
theorem script_address_misread : ¬ ∀ (env : Env) (scripts : Scripts) (option : PaymentOption)
    (plugin : Plugin) (decode : String → Option BitcoreTransaction) (chain : Chain)
    (outputs : List Output),
    orElse (some option.chain) option.currency = option.currency →
    find env option.currency option.currency = .ok plugin →
    plugin.bitcore = some decode →
    Bitcore chain (scripts option.currency) plugin.addressOf →
    SafeAmounts decode →
    (∀ requested, buildOutputs env scripts option = .ok requested →
      (∀ r ∈ requested, ∃ n : Int, r.amount = some n ∧ Payable n) →
      Written decode plugin.addressOf requested) →
    option.outputs = some outputs →
    (∀ o ∈ outputs, nonEmpty o.script = none) →
    (∀ o ∈ outputs, (chain.denotes o.address).isSome) →
    Faithful env scripts chain decode plugin.addressOf option outputs := by
  intro h
  obtain ⟨requested, hbuilt, ⟨decoded, hdecoded, hsame⟩, -⟩ := h Cash.env (fun _ => Cash.library)
    (Cash.option Cash.scriptAddress) Cash.plugin Cash.decode Cash.chain
    [{ address := Cash.scriptAddress, amount := some 5000 }] rfl rfl rfl Cash.bitcore
    Cash.safeAmounts (fun _ hbuilt _ => Cash.written (.inr rfl) hbuilt) rfl
    (by simp [nonEmpty]) (by decide +kernel)
  have hright := rightKind_all Cash.bitcore
    ((buildOutputs_ok (show find Cash.env "BCH" "BCH" = .ok Cash.plugin from rfl) rfl rfl).mp
      hbuilt) ((decodeOutputs_ok rfl rfl).mp hdecoded) hsame _ List.mem_cons_self
    { kind := .scriptHash, hash := Cash.hash } (by decide +kernel)
  have hprefix : ¬ Cash.scriptAddress.toList.head? = some '3' := by decide +kernel
  unfold RightKind at hright
  rw [if_neg hprefix] at hright
  cases hright

/-- A request for the key is faithful. -/
theorem faithful_key : Faithful Cash.env (fun _ => Cash.library) Cash.chain Cash.decode
    Cash.addressOf (Cash.option Cash.keyAddress)
    [{ address := Cash.keyAddress, amount := some 5000 }] := by
  refine (faithful_iff Cash.env (fun _ => Cash.library) (Cash.option Cash.keyAddress) Cash.plugin
    Cash.decode Cash.chain _ rfl rfl rfl Cash.bitcore Cash.safeAmounts
    (fun _ hbuilt _ => Cash.written (.inl rfl) hbuilt) rfl (by simp [nonEmpty])
    (by decide +kernel)).mpr ?_
  intro o ho a ha
  obtain rfl := List.mem_singleton.mp ho
  obtain rfl : { kind := .publicKeyHash, hash := Cash.hash } = a :=
    Option.some.inj ((show Cash.denotes Cash.keyAddress = _ by decide +kernel).symm.trans ha)
  refine ⟨?_, fun _ => rfl⟩
  have hprefix : ¬ Cash.keyAddress.toList.head? = some '3' := by decide +kernel
  unfold RightKind
  rw [if_neg hprefix]

end Anypay.Bip70
