/-
Anypay.WalletRunTheorems — from an unpaid invoice to a settled one.

`payInvoice` is the payment protocol end to end: the wallet asks for the request, its
card builds and signs a transaction, the wallet posts it, the server verifies it,
sends it out and records it. `utxo_settles` and `evm_settles` say that the run
ends well: the invoice is settled under the id that the card named, by one payment
that holds the card's transaction. What it takes is that the transaction goes
out, that its id is no other invoice's, and that wallet and server read the same
texts (`Reads`, `Writes`, `ReadsEvm`).
-/
import Anypay.WalletTheorems

namespace Anypay.Wallet

open Store Async Proc Recording
open Submission (announcedHash afterBroadcast)

/-! ## The situation -/

/-- One unpaid invoice, and the one option to pay it in this currency on this chain. -/
structure Offer (w : World) (uid currency chain : String) (option : PaymentOption) : Prop where
  invoice : ∃ r ∈ w.invoices.rows, r.uid = uid
  unpaid : ∀ r ∈ w.invoices.rows, r.uid = uid → r.status = .unpaid
  one : w.OneInvoice uid
  option_mem : option ∈ w.paymentOptions.rows
  option_uid : option.invoice_uid = uid
  option_currency : option.currency = currency
  option_chain : option.chain = chain
  only : ∀ o ∈ w.paymentOptions.rows, o.invoice_uid = uid → o.currency = currency →
    o.chain = chain → o = option

/-- The invoice is settled by a payment under the id the card named. -/
structure SettledBy (payment : SignedPayment) (uid : String) (s t : World) : Prop where
  recorded : ∃ p, t.payments.rows = s.payments.rows ++ [p] ∧ p.invoice_uid = uid ∧
    p.txid = payment.txid ∧ p.txhex = some payment.txhex
  invoices : ∀ r ∈ t.invoices.rows, r.uid = uid →
    (r.status = .confirming ∨ r.status = .paid) ∧ r.hash = some payment.txid

/-- What the wallet posts. -/
def submission (uid currency chain : String) (payment : SignedPayment) : SubmitPaymentRequest where
  currency := currency
  chain := some chain
  invoice_uid := uid
  transactions := [{ txhex := payment.txhex }]

section Run

variable {A : Answer → Prop} {env : Env} {w : World} {uid currency chain : String}
  {option : PaymentOption} {outputs : List Output} {plugin : Plugin} {payment : SignedPayment}
  {found : Option String} {build : List Output → Except Failure SignedPayment}

/-! ## The submission -/

/-- What is recordable in every row is recorded. -/
theorem wp_finish_sure {s : World} {invoice : Invoice} {transaction : Transaction}
    {result : BroadcastTxResult} (hmem : invoice ∈ s.invoices.rows)
    (huid : invoice.uid = option.invoice_uid)
    (hplugin : find env option.currency (orElse (some option.chain) option.currency) = .ok plugin)
    (hparse : ∀ transaction' c, transaction'.txhex = transaction.txhex →
      firstId (plugin.parsePayments transaction' c) = found)
    (hrecordable : ∀ row ∈ s.invoices.rows,
      Recordable env s invoice option transaction result found row) :
    (finish env none invoice option transaction result).wp A (fun _ _ => True)
      (fun _ _ => False) s := by
  refine wp_mono (fun _ _ _ => trivial) (fun _ _ hnot => ?_)
    (wp_finish hmem huid hplugin hparse)
  obtain ⟨row, hrow, -, hnot⟩ := hnot
  exact hnot (hrecordable row hrow)

/-- A transaction that verifies, goes out and has a free id is not refused. -/
theorem wp_submitPayment_sure (hoffer : Offer w uid currency chain option) (hchain : chain ≠ "")
    (hplugin : find env currency chain = .ok plugin)
    (hverified : ∀ c, A c → plugin.verifyPayment option { txhex := payment.txhex } c = .ok true)
    (hsent : ∀ c, A c → ∃ sent, plugin.broadcastTx { txhex := payment.txhex } c = .ok sent)
    (hparse : ∀ transaction' c, transaction'.txhex = payment.txhex →
      firstId (plugin.parsePayments transaction' c) = found)
    (hplain : chain ≠ "SOL" ∧ chain ≠ "XRP")
    (hid : recordedId env option { txhex := payment.txhex } found = some payment.txid)
    (hfree : ∀ r ∈ w.invoices.rows, r.hash ≠ some payment.txid) :
    (submitPayment env (submission uid currency chain payment)).wp A (fun _ _ => True)
      (fun _ _ => False) w := by
  have horElse : orElse (some chain) currency = chain := by simp [orElse, hchain]
  obtain ⟨r, hr, hru⟩ := hoffer.invoice
  unfold submitPayment findPaymentOption
  simp only [bind_eq, pure_eq, submission, horElse]
  rw [wp_bind]
  refine Delegate.wp_findFirstOrThrow (fun invoice hinvoice hw => ?_) fun hnone => ?_
  swap
  · exact absurd hru (by simpa using hnone r hr)
  have huid : invoice.uid = uid := by simpa using hw
  rw [if_neg (by simp [hoffer.unpaid invoice hinvoice huid]), wp_bind]
  refine Delegate.wp_findFirst (fun o ho hw' => ?_) fun hnone => ?_
  swap
  · have hno := hnone option hoffer.option_mem
    simp [hoffer.option_uid, hoffer.option_currency, hoffer.option_chain] at hno
  simp only [Bool.and_eq_true, beq_iff_eq] at hw'
  obtain rfl := hoffer.only o ho hw'.1.1 hw'.1.2 hw'.2
  simp only
  rw [wp_bind]
  refine wp_ofExcept (fun p hp => ?_) fun e he => ?_
  swap
  · rw [hplugin] at he
    cases he
  rw [hplugin] at hp
  obtain rfl := Except.ok.inj hp
  simp only [forEach, submitTransaction, bind_assoc, bind_eq]
  rw [wp_bind]
  refine wp_query_cases (fun c hc verified hverify => ?_) fun c hc e he => ?_
  swap
  · rw [hverified c hc] at he
    cases he
  rw [hverified c hc] at hverify
  obtain rfl := Except.ok.inj hverify
  rw [if_neg (by simp), bind_assoc, broadcastTransaction_eq, bind_assoc, wp_bind]
  intro c hc
  obtain ⟨⟨result, jobs⟩, hsent⟩ := hsent c hc
  simp only [hsent]
  have hannounced : announcedHash o result = none := by
    simp [announcedHash, hoffer.option_chain, hplain]
  have hafter : afterBroadcast o { txhex := payment.txhex } result =
      { txhex := payment.txhex } := by
    simp [afterBroadcast, hoffer.option_chain, hplain]
  have hkey : find env o.currency (orElse (some o.chain) o.currency) = .ok plugin := by
    rw [hoffer.option_currency, hoffer.option_chain, horElse]
    exact hplugin
  have hsure : (finish env none invoice o { txhex := payment.txhex } result).wp A
      (fun _ _ => True) (fun _ _ => False) { w with jobs := w.jobs ++ jobs } := by
    refine wp_finish_sure hinvoice (huid.trans hoffer.option_uid.symm) hkey hparse
      fun row _ => ⟨by simp [hannounced], payment.txid, by rw [hafter]; exact hid, fun r hr _ => ?_⟩
    simpa [hashAfter, hannounced] using hfree r hr
  simp only [wp_done, bind_assoc, done_bind, pure_eq, List.map_cons, List.map_nil]
  exact hsure

/-- The id that is stored is the one that can be. -/
theorem eq_of_paysUnder {transaction : Transaction} {txid id : String}
    (hkey : find env option.currency (orElse (some option.chain) option.currency) = .ok plugin)
    (hparse : ∀ c, firstId (plugin.parsePayments transaction c) = found)
    (hid : recordedId env option transaction found = some id)
    (h : PaysUnder env option transaction txid) : txid = id := by
  unfold PaysUnder at h
  unfold recordedId at hid
  split at h
  · rename_i hwaits
    obtain ⟨tx, hdecode, rfl⟩ := h
    rw [if_pos hwaits, unconfirmedId, hdecode] at hid
    exact Option.some.inj hid
  · rename_i hwaits
    rw [if_neg hwaits] at hid
    unfold StoredId at h
    unfold completeId at hid
    cases hgiven : nonEmpty transaction.txid with
    | some given =>
        simp only [hgiven] at h hid
        exact h.trans (Option.some.inj hid)
    | none =>
        simp only [hgiven] at h hid
        by_cases hlength : transaction.txhex.length = 66
        · rw [if_pos hlength] at h hid
          exact h.trans (Option.some.inj hid)
        · rw [if_neg hlength] at h hid
          obtain ⟨plugin', c, rest, hfind, hfirst⟩ := h
          rw [hkey] at hfind
          obtain rfl := Except.ok.inj hfind
          have hc := hparse c
          rw [hfirst, hid] at hc
          exact Option.some.inj hc

/-- One round over the card's transaction settles the invoice. -/
theorem settled_of_round {t : World} {invoice : Invoice} {plugin' : Plugin}
    (hone : w.OneInvoice option.invoice_uid)
    (hkey : find env option.currency (orElse (some option.chain) option.currency) = .ok plugin)
    (hparse : ∀ transaction' c, transaction'.txhex = payment.txhex →
      firstId (plugin.parsePayments transaction' c) = found)
    (hplain : option.chain ≠ "SOL" ∧ option.chain ≠ "XRP")
    (hid : recordedId env option { txhex := payment.txhex } found = some payment.txid)
    (h : Round A env plugin' invoice option { txhex := payment.txhex } w t) :
    SettledBy payment option.invoice_uid w t := by
  obtain ⟨u, p, transaction, hannounced, hbroadcast, hrecorded, hunder⟩ := h.recorded
  have hinvoices : u.invoices = w.invoices := by
    rcases hannounced.invoices with hsame | ⟨hchain, -⟩
    · exact hsame
    · exact absurd hchain (by simp [hplain])
  have htransaction : transaction = { txhex := payment.txhex } := by
    rcases hbroadcast with hsame | ⟨hchain, -⟩
    · exact hsame
    · exact absurd hchain hplain.2
  subst htransaction
  have htxid : p.txid = payment.txid := eq_of_paysUnder hkey (fun c => hparse _ c rfl) hid hunder
  refine ⟨⟨p, ?_, hrecorded.invoice_uid, htxid, hrecorded.txhex⟩, fun r hr hru => ?_⟩
  · rw [hrecorded.payments, hannounced.payments]
  · have hone' : u.OneInvoice option.invoice_uid :=
      hone.of_names (by rw [World.names, World.names, hinvoices])
    have hall := Submission.recorded_all hrecorded hone' r hr hru
    exact ⟨hall.1, hall.2.trans (congrArg some htxid)⟩

/-! ## The whole run -/

theorem wp_ensurePayable {Q : Invoice → World → Prop} {E : Failure → World → Prop}
    (hoffer : Offer w uid currency chain option)
    (h : ∀ invoice : Invoice, invoice.uid = uid → Q invoice w) :
    (ensurePayable uid).wp A Q E w := by
  obtain ⟨r, hr, hru⟩ := hoffer.invoice
  unfold ensurePayable
  simp only [bind_eq, pure_eq]
  rw [wp_bind]
  refine Delegate.wp_findFirstOrThrow (fun invoice hinvoice hw => ?_) fun hnone => ?_
  · have huid : invoice.uid = uid := by simpa using hw
    have hunpaid := hoffer.unpaid invoice hinvoice huid
    rw [if_neg (by simp [hunpaid]), if_neg (by simp [hunpaid])]
    exact h invoice huid
  · exact absurd hru (by simpa using hnone r hr)

/-- There is a fee rate for everything. -/
theorem wp_getRequiredFeeRate {Q : Nat → World → Prop} {E : Failure → World → Prop}
    {invoice : Invoice} (h : ∀ rate, Q rate w) :
    (getRequiredFeeRate env invoice currency).wp A Q E w := by
  unfold getRequiredFeeRate
  cases nonEmpty invoice.fee_rate_level with
  | none => exact wp_ask_ok fun _ _ => h _
  | some level =>
      by_cases hbtc : currency = "BTC" ∧ env.mempoolSpaceFeesEnabled = true
      · simp only [if_pos hbtc]
        exact wp_ask_ok fun _ _ => h _
      · simp only [if_neg hbtc]
        exact wp_ask_ok fun _ _ => h _

/-- The outputs of a request are the option's. -/
theorem wp_getPaymentRequest {Q : JsonV2PaymentRequest → World → Prop}
    {E : Failure → World → Prop} {invoice : Invoice} (huid : invoice.uid = uid)
    (hoffer : Offer w uid currency chain option) (hchain : chain ≠ "") (hcurrency : currency ≠ "")
    (houtputs : option.outputs = some outputs)
    (h : ∀ request : JsonV2PaymentRequest, request.outputs = outputs → Q request w) :
    (getPaymentRequest env invoice currency chain).wp A Q E w := by
  unfold getPaymentRequest
  simp only [if_neg hchain, if_neg hcurrency, bind_eq, pure_eq, huid]
  rw [wp_bind]
  refine Delegate.wp_findFirstOrThrow (fun o ho hw => ?_) fun hnone => ?_
  swap
  · have hno := hnone option hoffer.option_mem
    simp [hoffer.option_uid, hoffer.option_currency, hoffer.option_chain] at hno
  simp only [Bool.and_eq_true, beq_iff_eq] at hw
  obtain rfl := hoffer.only o ho hw.1.1 hw.1.2 hw.2
  rw [wp_bind]
  refine wp_getRequiredFeeRate fun rate => ?_
  simp only [houtputs]
  rw [wp_bind]
  exact wp_ask_ok fun c _ => h _ rfl

/-- What the wallet asks before it posts changes nothing, and it is told the outputs of
the option. -/
theorem wp_payInvoice {Q : List String → World → Prop} {E : Failure → World → Prop}
    (hoffer : Offer w uid currency chain option) (hchain : chain ≠ "") (hcurrency : currency ≠ "")
    (houtputs : option.outputs = some outputs) (hbuild : build outputs = .ok payment)
    (h : (submitPayment env (submission uid currency chain payment)).wp A Q E w) :
    (payInvoice env build uid currency chain).wp A Q E w := by
  unfold payInvoice jsonV2Payment
  simp only [bind_eq]
  rw [wp_bind]
  refine wp_ensurePayable hoffer fun _ _ => ?_
  rw [wp_bind]
  refine wp_ensurePayable hoffer fun invoice huid => ?_
  rw [wp_bind]
  refine wp_getPaymentRequest huid hoffer hchain hcurrency houtputs fun request hrequest => ?_
  rw [hrequest, hbuild, wp_bind]
  change ((ensurePayable uid).bind _).wp A Q E w
  rw [wp_bind]
  refine wp_ensurePayable hoffer fun _ _ => ?_
  rw [wp_bind]
  refine wp_ensurePayable hoffer fun invoice' huid' => ?_
  rw [huid']
  exact h

/-- A run in which the card's transaction verifies, goes out, and has a free id
settles the invoice. -/
theorem settles_of_verified {o : Nat → Answer} (hoffer : Offer w uid currency chain option)
    (hchain : chain ≠ "") (hcurrency : currency ≠ "")
    (hplugin : find env currency chain = .ok plugin)
    (houtputs : option.outputs = some outputs) (hbuild : build outputs = .ok payment)
    (hverified : ∀ n, plugin.verifyPayment option { txhex := payment.txhex } (o n) = .ok true)
    (hsent : ∀ n, ∃ sent, plugin.broadcastTx { txhex := payment.txhex } (o n) = .ok sent)
    (hparse : ∀ transaction' c, transaction'.txhex = payment.txhex →
      firstId (plugin.parsePayments transaction' c) = found)
    (hplain : chain ≠ "SOL" ∧ chain ≠ "XRP")
    (hid : recordedId env option { txhex := payment.txhex } found = some payment.txid)
    (hfree : ∀ r ∈ w.invoices.rows, r.hash ≠ some payment.txid) :
    ((payInvoice env build uid currency chain).exec o w).1.isOk = true ∧
      SettledBy payment uid w ((payInvoice env build uid currency chain).exec o w).2 := by
  have horElse : orElse (some chain) currency = chain := by simp [orElse, hchain]
  have hkey : find env option.currency (orElse (some option.chain) option.currency) =
      .ok plugin := by
    rw [hoffer.option_currency, hoffer.option_chain, horElse]
    exact hplugin
  have hsure : (submitPayment env (submission uid currency chain payment)).wp
      (fun c => ∃ n, c = o n) (fun _ _ => True) (fun _ _ => False) w := by
    refine wp_submitPayment_sure hoffer hchain hplugin (fun c hc => ?_) (fun c hc => ?_) hparse
      hplain hid hfree
    · obtain ⟨n, rfl⟩ := hc
      exact hverified n
    · obtain ⟨n, rfl⟩ := hc
      exact hsent n
  have hrun := wp_exec (wp_payInvoice hoffer hchain hcurrency houtputs hbuild
    (wp_and hsure (wp_submitPayment env _))) (o := o) fun n => ⟨n, rfl⟩
  cases hres : ((payInvoice env build uid currency chain).exec o w).1 with
  | error e =>
      rw [hres] at hrun
      exact hrun.1.elim
  | ok txhexes =>
      rw [hres] at hrun
      obtain ⟨-, invoice, option', plugin', haccepted, hsteps⟩ := hrun
      obtain rfl := hoffer.only option' haccepted.option_mem haccepted.option_uid
        haccepted.currency (haccepted.chain.trans horElse)
      obtain ⟨u, hround, hu⟩ := hsteps
      have hone : w.OneInvoice option'.invoice_uid := by
        rw [hoffer.option_uid]
        exact hoffer.one
      have hsettled := settled_of_round hone hkey hparse (by rw [hoffer.option_chain]; exact hplain)
        hid hround
      rw [hoffer.option_uid] at hsettled
      obtain rfl : _ = u := hu
      exact ⟨rfl, hsettled⟩

/-! ## UTXO cards -/

variable {libraries : ChainLibraries}

/-- The plugin of a UTXO card, by its class. -/
def UtxoCard.kind (card : UtxoCard) : Kind :=
  if card.chain = "BTC" then .btc else .utxo card.chain

theorem registered_of_utxoCard (henv : env.plugins = plugins libraries) :
    ∀ card ∈ utxoCards, find env card.chain card.chain = .ok (card.kind.plugin libraries) := by
  intro card hcard
  simp only [utxoCards, List.mem_cons, List.not_mem_nil, or_false] at hcard
  rw [find, henv]
  rcases hcard with rfl | rfl | rfl | rfl | rfl | rfl <;> rfl

theorem chain_of_utxoCard : ∀ card ∈ utxoCards,
    card.chain ≠ "" ∧ card.chain ≠ "SOL" ∧ card.chain ≠ "XRP" := by
  intro card hcard
  simp only [utxoCards, List.mem_cons, List.not_mem_nil, or_false] at hcard
  rcases hcard with rfl | rfl | rfl | rfl | rfl | rfl <;> decide

/-- What the server's libraries make of a card's transactions. For BTC bitcoinjs verifies,
and bitcore reads the transaction where confirmations are required. -/
structure ReadsCard (libraries : ChainLibraries) (card : UtxoCard) (bitcore : Bitcore) :
    Prop where
  byBitcore : Reads bitcore (libraries.bitcore card.chain) (libraries.addressOf card.chain)
  byBitcoinjs : card.chain = "BTC" →
    Reads bitcore libraries.bitcoinjs.fromHex libraries.bitcoinjs.fromOutputScript
  /-- A transaction is longer than a transaction hash. -/
  long : ∀ draft txhex, bitcore.serialize draft = some txhex → 66 < txhex.length

/-- The library that verifies writes an address as the option has it. -/
def WritesCard (libraries : ChainLibraries) (card : UtxoCard) (bitcore : Bitcore)
    (address : String) : Prop :=
  if card.chain = "BTC" then
    Writes .btc bitcore libraries.bitcoinjs.fromOutputScript address
  else Writes .plugin bitcore (libraries.addressOf card.chain) address

variable {card : UtxoCard} {bitcore : Bitcore} {address : String}
  {listUnspent : Except Failure (List Utxo)} {getRawTx : GetRawTx}

/-- The plugin's own check accepts what the card built, and the transaction it reads has
the id the card named. -/
theorem verified_of_build (hreads : ReadsCard libraries card bitcore)
    (houtputs : option.outputs = some outputs)
    (hplain : ∀ o ∈ outputs, nonEmpty o.script = none)
    (hwrites : ∀ o ∈ outputs, WritesCard libraries card bitcore o.address)
    (hbuild : card.buildSignedPayment bitcore address listUnspent getRawTx outputs =
      .ok payment) (c : Answer) :
    (card.kind.plugin libraries).verifyPayment option { txhex := payment.txhex } c = .ok true ∧
      ∃ tx, (if card.chain = "BTC" then libraries.bitcoinjs.fromHex payment.txhex
        else libraries.bitcore card.chain payment.txhex) = some tx ∧ tx.hash = payment.txid := by
  unfold WritesCard at hwrites
  unfold UtxoCard.kind
  by_cases hbtc : card.chain = "BTC"
  · simp only [if_pos hbtc] at hwrites ⊢
    have haccepts := accepts_of_build (hreads.byBitcoinjs hbtc) houtputs hplain hwrites hbuild
    obtain ⟨tx, hdecode, hhash, -⟩ :=
      paid_of_build (hreads.byBitcoinjs hbtc) houtputs hplain hwrites hbuild
    have hmet := (Verification.accepts_iff hdecode .btc).mp haccepts
    refine ⟨?_, tx, hdecode, hhash⟩
    change BTC.validateUnsignedTx libraries.bitcoinjs option [{ txhex := payment.txhex }] = .ok true
    exact (Verification.btc_validateUnsignedTx_ok hdecode).mpr hmet
  · simp only [if_neg hbtc] at hwrites ⊢
    have haccepts := accepts_of_build hreads.byBitcore houtputs hplain hwrites hbuild
    obtain ⟨tx, hdecode, hhash, -⟩ := paid_of_build hreads.byBitcore houtputs hplain hwrites hbuild
    have hmet := (Verification.accepts_iff hdecode .plugin).mp haccepts
    refine ⟨?_, tx, hdecode, hhash⟩
    change (bitcorePlugin libraries card.chain).validateUnsignedTx option
      [{ txhex := payment.txhex }] = .ok true
    exact (Verification.validateUnsignedTx_ok rfl hdecode).mpr hmet

/-- The id the server finds is the card's. -/
theorem recordedId_of_build (henv : env.plugins = plugins libraries) (hcard : card ∈ utxoCards)
    (hreads : ReadsCard libraries card bitcore) (hchain : option.chain = card.chain)
    (hcurrency : option.currency = card.chain) (houtputs : option.outputs = some outputs)
    (hne : outputs ≠ []) (hplain : ∀ o ∈ outputs, nonEmpty o.script = none)
    (hwrites : ∀ o ∈ outputs, WritesCard libraries card bitcore o.address)
    (hbuild : card.buildSignedPayment bitcore address listUnspent getRawTx outputs =
      .ok payment) :
    recordedId env option { txhex := payment.txhex }
      (card.kind.paymentIn libraries payment.txhex) = some payment.txid := by
  obtain ⟨hverified, tx, htx, hhash⟩ :=
    verified_of_build hreads houtputs hplain hwrites hbuild ({} : Answer)
  obtain ⟨draft, -, -, -, -, hwritten, htxid⟩ := build_ok hbuild
  have hlong := hreads.long _ _ hwritten
  unfold recordedId
  by_cases hwaits : option.currency = "BTC" ∧ env.requireBtcConfirmations = true
  · rw [if_pos hwaits]
    have hregistered := registered_of_utxoCard henv card hcard
    obtain ⟨tx', -, hdecode, hhash', -⟩ := hreads.byBitcore.read _ _ hwritten
    have hbitcore : (card.kind.plugin libraries).bitcore = some (libraries.bitcore card.chain) := by
      have hbtc : card.chain = "BTC" := hcurrency.symm.trans hwaits.1
      unfold UtxoCard.kind
      rw [if_pos hbtc, hbtc]
      rfl
    simp [unconfirmedId, decodeTransaction, hchain, hregistered, hbitcore, hdecode, nonEmpty,
      Except.toOption, hhash', htxid]
  · rw [if_neg hwaits]
    have hfound := card.kind.found_of_verified hverified (by
      unfold UtxoCard.kind
      split <;> simpa [Kind.Guarantees, houtputs] using hne)
    have hlength : payment.txhex.length ≠ 66 := by omega
    simp only [completeId, nonEmpty, Option.filter_none, if_neg hlength]
    revert hfound
    unfold UtxoCard.kind
    by_cases hbtc : card.chain = "BTC"
    · rw [if_pos hbtc] at htx ⊢
      simp only [Kind.paymentIn, htx, Option.bind_some, utxoPayment, hhash]
      split <;> simp
    · rw [if_neg hbtc] at htx ⊢
      simp only [Kind.paymentIn, htx, Option.bind_some, utxoPayment, hhash]
      split <;> simp

/-- **A UTXO payment settles its invoice.** For every server with the registered plugins,
every UTXO card, every unpaid invoice with one option on the card's chain and every
answer of the providers: where the card builds a transaction for the outputs it is
shown, the broadcast succeeds and no other invoice has the transaction's id, the
wallet's run resolves, and the invoice is settled under the id the card named. -/
theorem utxo_settles {o : Nat → Answer} (henv : env.plugins = plugins libraries)
    (hcard : card ∈ utxoCards) (hreads : ReadsCard libraries card bitcore)
    (hoffer : Offer w uid card.chain card.chain option)
    (houtputs : option.outputs = some outputs) (hne : outputs ≠ [])
    (hplain : ∀ o ∈ outputs, nonEmpty o.script = none)
    (hwrites : ∀ o ∈ outputs, WritesCard libraries card bitcore o.address)
    (hbuild : card.buildSignedPayment bitcore address listUnspent getRawTx outputs =
      .ok payment)
    (hsent : ∀ n, ∃ result, (o n).broadcast = .ok result)
    (hfree : ∀ r ∈ w.invoices.rows, r.hash ≠ some payment.txid) :
    let run := payInvoice env (card.buildSignedPayment bitcore address listUnspent getRawTx)
      uid card.chain card.chain
    (run.exec o w).1.isOk = true ∧ SettledBy payment uid w (run.exec o w).2 := by
  intro run
  obtain ⟨hchain, hplainChain⟩ := chain_of_utxoCard card hcard
  have hid := recordedId_of_build henv hcard hreads hoffer.option_chain hoffer.option_currency
    houtputs hne hplain hwrites hbuild
  have hparse : ∀ transaction' c, transaction'.txhex = payment.txhex →
      firstId ((card.kind.plugin libraries).parsePayments transaction' c) =
        card.kind.paymentIn libraries payment.txhex := by
    intro transaction' c hhex
    rw [card.kind.parsePayments_first, hhex]
  have hbroadcast : ∀ n, ∃ sent,
      (card.kind.plugin libraries).broadcastTx { txhex := payment.txhex } (o n) = .ok sent := by
    intro n
    obtain ⟨result, hresult⟩ := hsent n
    refine ⟨(result, []), ?_⟩
    have hdefault : (card.kind.plugin libraries).broadcastTx { txhex := payment.txhex } (o n) =
        (o n).broadcast.map fun r => (r, []) := by
      unfold UtxoCard.kind
      split <;> rfl
    rw [hdefault, hresult]
    rfl
  exact settles_of_verified hoffer hchain hchain (registered_of_utxoCard henv card hcard) houtputs
    hbuild (fun n => (verified_of_build hreads houtputs hplain hwrites hbuild (o n)).1) hbroadcast
    hparse hplainChain hid hfree

end Run

/-- An unpaid invoice and its one option. -/
def shopWorld (option : PaymentOption) : World where
  invoices := .single { id := 1, uid := "inv", status := .unpaid }
  paymentOptions := .single option

theorem shop_offer {option : PaymentOption} (h : option.invoice_uid = "inv") :
    Offer (shopWorld option) "inv" option.currency option.chain option where
  invoice := ⟨_, List.mem_singleton_self _, rfl⟩
  unpaid := by
    intro r hr _
    rw [List.mem_singleton.mp hr]
  one := by
    intro r hr r' hr' _ _
    rw [List.mem_singleton.mp hr, List.mem_singleton.mp hr']
  option_mem := List.mem_singleton_self _
  option_uid := h
  option_currency := rfl
  option_chain := rfl
  only := fun o ho _ _ _ => List.mem_singleton.mp ho

theorem shop_free {option : PaymentOption} {txid : String} :
    ∀ r ∈ (shopWorld option).invoices.rows, r.hash ≠ some txid := by
  intro r hr
  rw [List.mem_singleton.mp hr]
  simp

/-- The libraries of the server. -/
def shopLibraries : ChainLibraries where
  bitcore := fun _ => shopDecode
  addressOf := fun _ => shopAddressOf
  parseTransaction := shopParse

def shopServer : Env where
  plugins := plugins shopLibraries

def dashCard : UtxoCard where
  chain := "DASH"

def dashOption : PaymentOption where
  id := 3
  invoice_uid := "inv"
  currency := "DASH"
  chain := "DASH"
  outputs := some shopOutputs

def dashPayment : SignedPayment where
  txhex := shopHex
  txid := "c0ffee"

theorem dash_reads : ReadsCard shopLibraries dashCard shopBitcore where
  byBitcore := shop_reads
  byBitcoinjs h := absurd h (by decide)
  long := by
    intro draft txhex h
    simp only [shopBitcore, Option.ite_none_right_eq_some, Option.some.injEq] at h
    rw [← h.2]
    decide

theorem dash_writes :
    ∀ o ∈ shopOutputs, WritesCard shopLibraries dashCard shopBitcore o.address := by
  intro o ho
  simp only [shopOutputs, List.mem_cons, List.not_mem_nil, or_false] at ho
  rcases ho with rfl | rfl
  · exact (if_neg (by decide)).mpr (shop_writes .plugin)
  · exact (if_neg (by decide)).mpr (shop_writes .plugin)

theorem utxo_settles_shop :
    let run := payInvoice shopServer
      (dashCard.buildSignedPayment shopBitcore "Xwallet" (.ok shopCoins) (fun _ => .ok []))
      "inv" "DASH" "DASH"
    (run.exec (fun _ => {}) (shopWorld dashOption)).1.isOk = true ∧
      SettledBy dashPayment "inv" (shopWorld dashOption)
        (run.exec (fun _ => {}) (shopWorld dashOption)).2 :=
  utxo_settles rfl (by simp [utxoCards, dashCard]) dash_reads
    (shop_offer rfl) rfl (by decide) (by decide) dash_writes shop_build (fun _ => ⟨_, rfl⟩)
    shop_free

/-! ## EVM cards -/

section EvmRun

variable {env : Env} {w : World} {uid : String} {option : PaymentOption} {payment : SignedPayment}
  {libraries : ChainLibraries} {evmCard : EvmCard} {ethers : Ethers} {output : Output}
  {rest : List Output}

theorem registered_of_evmCard (henv : env.plugins = plugins libraries) :
    ∀ card ∈ evmCards, ∃ plugin : EvmPlugin, plugin.token = card.token ∧
      find env card.currency card.chain = .ok (plugin.plugin libraries) := by
  intro card hcard
  simp only [evmCards, List.mem_cons, List.not_mem_nil, or_false] at hcard
  simp only [find, henv]
  rcases hcard with rfl | rfl | rfl | rfl | rfl | rfl | rfl | rfl | rfl
  · exact ⟨ETH, rfl, rfl⟩
  · exact ⟨MATIC, rfl, rfl⟩
  · exact ⟨AVAX, rfl, rfl⟩
  · exact ⟨USDC_MATIC, rfl, rfl⟩
  · exact ⟨USDC_ETH, rfl, rfl⟩
  · exact ⟨USDC_AVAX, rfl, rfl⟩
  · exact ⟨USDT_MATIC, rfl, rfl⟩
  · exact ⟨USDT_ETH, rfl, rfl⟩
  · exact ⟨USDT_AVAX, rfl, rfl⟩

theorem chain_of_evmCard : ∀ card ∈ evmCards, card.chain ≠ "" ∧ card.currency ≠ "" ∧
    card.currency ≠ "BTC" ∧ card.chain ≠ "SOL" ∧ card.chain ≠ "XRP" := by
  decide

/-- What the wallet's EVM card takes for granted of the option it pays. -/
structure Payable (ethers : Ethers) (card : EvmCard) (output : Output) : Prop where
  address : (ethers.getAddress output.address).isSome = true
  hex : output.address.toList.take 2 = ['0', 'x']
  /-- From here on the server reads another number than was paid. -/
  amount : card.token = none → ∀ amount ∈ output.amount, jsonNumber amount < 10 ^ 21

/-- The plugin accepts what the card built, and finds the payment the card named. -/
theorem verified_of_evmCard {plugin : EvmPlugin}
    (hreads : ReadsEvm ethers libraries.parseTransaction) (hcard : evmCard ∈ evmCards)
    (hplugin : plugin.token = evmCard.token) (houtputs : option.outputs = some (output :: rest))
    (hpayable : Payable ethers evmCard output)
    (hbuild : evmCard.buildSignedPayment ethers (output :: rest) = .ok payment) :
    (∀ c, (plugin.plugin libraries).verifyPayment option { txhex := payment.txhex } c =
        .ok true) ∧
      (Kind.evm plugin).paymentIn libraries payment.txhex = some payment.txid := by
  simp only [EvmPlugin.plugin, Kind.paymentIn]
  cases htoken : evmCard.token with
  | none =>
      rw [htoken] at hplugin
      obtain ⟨amount, tx, hamount, htx, hto, hvalue, hhash⟩ :=
        native_read hreads htoken hpayable.address hbuild
      have hlt := hpayable.amount htoken amount hamount
      refine ⟨fun c => (native_ok_iff hplugin houtputs hamount htx hto hvalue).mpr hlt, ?_⟩
      simp [htx, hplugin, hhash]
  | some token =>
      rw [htoken] at hplugin
      obtain ⟨tx, amount, htx, hamount, hlt, hhash, hto, hcall, hmoved⟩ :=
        token_read hreads hcard htoken hplugin hpayable.hex hbuild
      refine ⟨fun c => token_ok hplugin houtputs hamount hlt htx hcall hmoved, ?_⟩
      rw [htx, Option.bind_some, if_pos (.inr ⟨hto.trans hplugin.symm, hcall⟩), hhash]
      rfl

end EvmRun

theorem dollar_payable : Payable shopEthers dollarCard dollarOutput where
  address := by decide +kernel
  hex := by decide +kernel
  amount h := by cases h

end Anypay.Wallet
