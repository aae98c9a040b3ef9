/-
Anypay.ReceiptTheorems — a transaction that fails on its EVM chain, and what becomes
of its invoice.

The node answers with a hash long before the transaction is in a block. The
submission then inserts the payment and settles the invoice; the receipt, which says
that the transaction failed, is looked for side by side with it and leads to
`revertPayment`. The cron, the command line and `getConfirmationForTxid` read the
same receipt, and of it only the block.

So the invoice can be paid by a transaction that failed (`failed_paid`), and
`revertPayment` finds no invoice where it comes before the settlement.
`failed_reverted` is about the runs where neither happens: the invoice is never
paid, and in the end it is unpaid and its payment failed.
-/
import Anypay.Receipts

namespace Anypay.Receipts

open Store Async Proc

/-! ## Calls -/

/-- The request a call hands to `submitPayment`. -/
def request : Op → Option SubmitPaymentRequest
  | .submitPayment payment => some payment
  | .jsonV2Payment uid currency chain transactions =>
      some { currency, chain, invoice_uid := uid, transactions }
  | .jsonPaymentRequest uid currency chain transactions wallet =>
      some { currency := currency.toUpper, chain := some chain.toUpper, invoice_uid := uid,
             transactions, wallet }
  | _ => none

/-- The calls that look for blocks. -/
def confirms : Op → Bool
  | .getConfirmationForTxid _ => true
  | .confirmTransactionsTick => true
  | .confirmPaymentsCommand _ _ => true
  | _ => false

/-- All has run. -/
structure Done (p : Calls) : Prop where
  ended : ∀ th ∈ p.threads, th.2.running = false
  started : ∀ j ∈ p.state.jobs, ∃ th ∈ p.threads, th.1 = .job j

namespace Transfer

variable (x : Transfer)

/-- The request submits the transfer, and nothing else. -/
structure SubmittedBy (payment : SubmitPaymentRequest) : Prop where
  uid : payment.invoice_uid = x.uid
  currency : payment.currency = x.currency
  chain : orElse payment.chain payment.currency = x.chain
  transactions : payment.transactions = [x.transaction]

/-- The part a call plays. -/
def part : Op → Part
  | .job (.onReceipt txid) => if txid = x.txid then .watches else .other
  | .job (.lookUpReceipt txid) => if txid = x.txid then .watches else .other
  | .job (.handleTransactionReceipt receipt) =>
      if receipt.transactionHash = x.txid then .handles else .other
  | .job (.revertPayment txid) => if txid = x.txid then .reverts else .other
  | op => if confirms op then .confirms else if (request op).isSome then .submits else .other

/-- What comes from the chain: a receipt is that of the transaction asked about, that
of the transfer says it failed, and a node answers with the hash of what it is sent. -/
structure Fails (c : Answer) : Prop where
  own : ∀ txid receipt, c.receipt txid = some receipt → receipt.transactionHash = txid
  failed : ∀ receipt, c.receipt x.txid = some receipt → receipt.status = false
  sent : ∀ result, c.broadcast = .ok result → result.txid = some x.txid

/-- The transfer's calls and those that look for blocks, in any order. The transfer is
submitted once, so every background call about it is there once. -/
def anyOrder (p : Calls) : Move Answer Op → Prop
  | .start (.job j) => j ∈ p.state.jobs ∧ (x.about j = true → ∀ th ∈ p.threads, th.1 ≠ .job j)
  | .start op => confirms op = true ∨
      ((∃ payment, request op = some payment ∧ x.SubmittedBy payment) ∧
        ∀ th ∈ p.threads, request th.1 = none)
  | .run _ c => x.Fails c

/-- What a part must find on the chain: the receipt is there when it is looked for,
and who looks for blocks is not shown that of the transaction. -/
structure Sees (g : Part) (c : Answer) : Prop where
  fails : x.Fails c
  there : g = .watches → c.receipt x.txid ≠ none
  blockless : g = .confirms → ∀ receipt, c.receipt x.txid = some receipt →
    nonEmpty receipt.blockHash = none

/-- Such an order, in which `revertPayment` comes after the settlement and only it and
`handleTransactionReceipt` learn how the transaction fared. -/
def inTime (p : Calls) (m : Move Answer Op) : Prop :=
  x.anyOrder p m ∧
    match m with
    | .start (.job (.revertPayment txid)) =>
        txid = x.txid → ∃ r ∈ p.state.invoices.rows, r.hash = some x.txid
    | .run i c => ∀ th, p.threads[i]? = some th → x.Sees (x.part th.1) c
    | _ => True

/-- What is stored for the transfer is stored under its hash. -/
structure Named (env : Env) : Prop where
  hash : x.transaction.txhex.length = 66 → x.transaction.txhex = x.txid
  stored : ∀ option txid, option.currency = x.currency → option.chain = x.chain →
    StoredId env option x.transaction txid → txid = x.txid

/-- The invoice waits for its payment, and nothing is known of the transaction. -/
structure Ready (w : World) : Prop where
  rows : x.view w = ⟨[⟨x.uid, .unpaid, none⟩], [], false⟩
  jobs : ∀ j ∈ w.jobs, x.about j = false

/-- What the claim is about: the invoice is not paid, and once all has run it is unpaid
and its payment failed. -/
structure Reverted (w : World) : Prop where
  invoice : ∀ r ∈ w.invoices.rows, r.uid = x.uid → r.status = .unpaid
  payment : ∀ p ∈ w.payments.rows, p.invoice_uid = x.uid → p.status = .failed
  recorded : (∃ j ∈ w.jobs, x.watches j = true) → ∃ p ∈ w.payments.rows, p.invoice_uid = x.uid

end Transfer

/-! ## Plugins -/

/-- A key of the registry for something on an EVM chain. -/
def evmKey (key : String) : Bool := evmChains.any fun chain =>
  chain.toList.isSuffixOf key.toList

theorem evmKey_pluginKey {currency chain : String} (h : chain ∈ evmChains) :
    evmKey (pluginKey currency chain) = true := by
  refine List.any_eq_true.mpr ⟨chain, h, List.isSuffixOf_iff_suffix.mpr ?_⟩
  unfold pluginKey
  split
  · rename_i he
    exact he ▸ List.suffix_rfl
  · rw [String.toList_append]
    exact List.suffix_append _ _

/-- The plugins registered for an EVM chain broadcast and confirm as `EVM` does. -/
theorem evm_of_mem (libraries : ChainLibraries) : ∀ entry ∈ plugins libraries,
    evmKey entry.1 = true →
      entry.2.broadcastTx = EVM.broadcastTx ∧ entry.2.getConfirmation = EVM.getConfirmation := by
  simp only [plugins, List.forall_mem_cons]
  refine ⟨?_, ?_, ?_, ?_, ?_, ?_, ?_, ?_, ?_, ?_, ?_, ?_, ?_, ?_, ?_, ?_, ?_, ?_, ?_, ?_, ?_, ?_,
    ?_⟩
  case refine_23 => exact fun _ h => (List.not_mem_nil h).elim
  all_goals
    intro h
    first
    | exact ⟨rfl, rfl⟩
    | exact absurd h (by decide)

theorem evm_of_find {libraries : ChainLibraries} {env : Env} {currency chain : String}
    {plugin : Plugin} (hplugins : env.plugins = plugins libraries) (hchain : chain ∈ evmChains)
    (h : find env currency chain = .ok plugin) :
    plugin.broadcastTx = EVM.broadcastTx ∧ plugin.getConfirmation = EVM.getConfirmation := by
  have hmem := mem_of_find h
  rw [hplugins] at hmem
  exact evm_of_mem libraries _ hmem (evmKey_pluginKey hchain)

/-- There is no bitcoin on an EVM chain. -/
theorem ne_btc_of_find {libraries : ChainLibraries} {env : Env} {currency chain : String}
    {plugin : Plugin} (hplugins : env.plugins = plugins libraries) (hchain : chain ∈ evmChains)
    (h : find env currency chain = .ok plugin) : currency ≠ "BTC" := by
  rintro rfl
  have hkey := mem_keys hplugins h
  have hnone : ∀ chain ∈ evmChains, pluginKey "BTC" chain ∉ pluginKeys := by decide
  exact hnone chain hchain hkey

/-! ## The contract -/

def contract (x : Transfer) : Contract World Answer Part := x.relay.contract x.Sees

variable {x : Transfer} {a b : Stage} {g : Part} {s t u w : World} {α β : Type}

theorem ok_of_rely (hs : x.Ok s) (h : (contract x).rely g s t) : x.Ok t := by
  obtain ⟨a, ha⟩ := hs
  obtain ⟨b, hb, -⟩ := h.2 a ha
  exact ⟨b, hb⟩

theorem ok_of_guar {g' : Part} (hs : x.Ok s) (h : (contract x).guar g s t g') : x.Ok t := by
  obtain ⟨a, ha⟩ := hs
  obtain ⟨b, hb, -⟩ := h.2.2 a ha
  exact ⟨b, hb⟩

theorem grows_of_rely (h : (contract x).rely g s t) : Grows s t := h.1.grows

theorem silent (h : x.shown t = x.shown s) :
    (contract x).guar g s t g ∧ (contract x).rely g s t :=
  Relay.stays (R := x.relay) (frame_of_shown h) fun _ ha => at_of_shown h ha

/-- A call that shows nothing, then the rest. -/
theorem meets_silent_bind {R : β → Part → World → Prop} {p : Task α} {f : α → Task β}
    (hp : p.Keeps x.shown) (hf : ∀ t, (contract x).rely g s t → ∀ a,
      (f a).Meets (contract x) R Anyhow g t) :
    (p.bind f).Meets (contract x) R Anyhow g s :=
  meets_keeps_bind hp (fun _ _ h => silent h) hf fun _ _ _ => trivial

theorem meets_of_keeps {p : Task α} (hp : p.Keeps x.shown) :
    p.Meets (contract x) Anyhow Anyhow g s := by
  rw [← Proc.bind_done p]
  exact meets_silent_bind hp fun _ _ _ _ _ => trivial

/-- Background calls are left behind. -/
theorem guar_append {js : List Job} (hjs : ∀ receipt, Job.handleTransactionReceipt receipt ∈ js →
      receipt.transactionHash = x.txid → receipt.status = false) :
    (contract x).guar g s { s with jobs := s.jobs ++ js } g :=
  (Relay.stays (R := x.relay) (frame_append js) fun _ ha => at_append ha hjs).1

theorem meets_spawn {Q : Unit → Part → World → Prop} {E : Failure → Part → World → Prop} {j : Job}
    (hj : ∀ receipt, j = .handleTransactionReceipt receipt →
      receipt.transactionHash = x.txid → receipt.status = false)
    (hQ : ∀ t, (x.about j = true → j ∈ t.jobs) → Q () g t) :
    (spawn j).Meets (contract x) Q E g s := by
  have hguar : ∀ t, (contract x).guar g t { t with jobs := t.jobs ++ [j] } g := fun t =>
    guar_append fun receipt hmem => hj receipt (List.mem_singleton.mp hmem).symm
  refine meets_step fun t _ c _ => ⟨g, hguar t, fun _ _ u hu => ?_, fun _ he => (by cases he)⟩
  refine hQ u fun habout => hu.1.jobs j ?_ habout
  exact List.mem_append_right _ (List.mem_singleton_self j)

/-! ## Confirming other payments -/

/-- A copy of a payment of another transaction, for another invoice. -/
structure Foreign (x : Transfer) (p : Payment) (w : World) : Prop where
  txid : p.txid ≠ x.txid
  uid : p.invoice_uid ≠ x.uid
  row : ∃ p' ∈ w.payments.rows, p'.id = p.id ∧ p'.invoice_uid = p.invoice_uid ∧ p'.txid = p.txid

/-- A copy of the payment of the transfer, or of another one. -/
def Copy (x : Transfer) (p : Payment) (w : World) : Prop :=
  (p.txid = x.txid ∧ p.currency = x.currency ∧ p.chain = some x.chain) ∨ Foreign x p w

theorem Foreign.grows {p : Payment} (h : Foreign x p s) (hst : Grows s t) : Foreign x p t where
  txid := h.txid
  uid := h.uid
  row := by
    obtain ⟨p', hp', hid, huid, htxid⟩ := h.row
    obtain ⟨p'', hp'', hid', huid', htxid'⟩ := hst.payments p' hp'
    exact ⟨p'', hp'', hid'.trans hid, huid'.trans huid, htxid'.trans htxid⟩

theorem Copy.grows {p : Payment} (h : Copy x p s) (hst : Grows s t) : Copy x p t :=
  h.imp id fun h => h.grows hst

theorem copy_of_mem (hs : x.Ok s) {p : Payment} (hp : p ∈ s.payments.rows) : Copy x p s := by
  obtain ⟨a, ha⟩ := hs
  by_cases hown : x.ownPayment p = true
  · obtain ⟨-, htxid, hcurrency, hchain⟩ :=
      Stage.of_mem_payments (columns_of_payment ha hp hown)
    exact .inl ⟨htxid, hcurrency, hchain⟩
  · simp only [Transfer.ownPayment, Bool.or_eq_true, beq_iff_eq, not_or] at hown
    exact .inr ⟨hown.2, hown.1, p, hp, rfl, rfl, rfl⟩

theorem foreign_of_mem (hs : x.Ok s) {p : Payment} (hp : p ∈ s.payments.rows)
    (htxid : p.txid ≠ x.txid) : Foreign x p s :=
  (copy_of_mem hs hp).resolve_left fun h => htxid h.1

/-- The row of such a copy is none of the transfer's. -/
theorem Foreign.row_of_id {p r : Payment} (h : Foreign x p s) (hr : r ∈ s.payments.rows)
    (hid : r.id = p.id) : r.invoice_uid ≠ x.uid ∧ x.ownPayment r = false := by
  obtain ⟨p', hp', hid', huid, htxid⟩ := h.row
  obtain rfl : r = p' := Table.eq_of_id hr hp' (hid.trans hid'.symm)
  have hne : r.invoice_uid ≠ x.uid := huid ▸ h.uid
  refine ⟨hne, ?_⟩
  simp only [Transfer.ownPayment, Bool.or_eq_false_iff, beq_eq_false_iff_ne]
  exact ⟨hne, htxid ▸ h.txid⟩

/-- Writing another payment. -/
theorem guar_foreignPayment {p : Payment} (h : Foreign x p s) {tb : Table Payment}
    {f : Payment → Payment} (hrows : tb.rows = Table.patch p.id f s.payments.rows)
    (hf : ∀ r, (f r).id = r.id ∧ (f r).invoice_uid = r.invoice_uid ∧ (f r).txid = r.txid) :
    (contract x).guar g s { s with payments := tb } g := by
  have hview : x.view { s with payments := tb } = x.view s := by
    refine view_payment (fun r hr hid => ?_) hrows
    have hother := (h.row_of_id hr hid).2
    refine ⟨?_, fun hown => ?_⟩
    · simp only [Transfer.ownPayment, (hf r).2.1, (hf r).2.2]
    · rw [hother] at hown
      cases hown
  have hframe : x.Frame s { s with payments := tb } :=
    ⟨Grows.of_payments rfl hrows hf, fun _ hj _ => hj⟩
  exact (Relay.stays (R := x.relay) hframe fun _ ha => at_of_view ha hview rfl).1

/-- Writing another invoice. -/
theorem guar_foreignInvoice (hs : x.Ok s) {tb : Table Invoice} {r : Invoice}
    {f : Invoice → Invoice} (hr : r ∈ s.invoices.rows) (huid : r.uid ≠ x.uid)
    (hhash : (f r).hash = r.hash ∨ (f r).hash = none)
    (hrows : tb.rows = Table.patch r.id f s.invoices.rows)
    (hf : ∀ r, (f r).id = r.id ∧ (f r).uid = r.uid) :
    (contract x).guar g s { s with invoices := tb } g := by
  have hown : x.ownInvoice (f r) = false := by
    have hbefore := not_own_of_uid hs hr huid
    simp only [Transfer.ownInvoice, Bool.or_eq_false_iff, beq_eq_false_iff_ne] at hbefore ⊢
    rw [(hf r).2]
    refine ⟨huid, ?_⟩
    rcases hhash with hhash | hhash
    · rw [hhash]
      exact hbefore.2
    · simp [hhash]
  have hview := view_otherInvoice hs hr huid hown hrows
  have hframe : x.Frame s { s with invoices := tb } :=
    ⟨Grows.of_invoices hrows rfl hf, fun _ hj _ => hj⟩
  exact (Relay.stays (R := x.relay) hframe fun _ ha => at_of_view ha hview rfl).1

theorem keeps_createAndSendWebhook_shown (topic : String) (payload : Json) :
    (createAndSendWebhook topic payload).Keeps x.shown := by
  refine keeps_createAndSendWebhook topic payload (fun _ _ => rfl) fun w webhook => ?_
  simp [Transfer.shown, World.ledger, List.filter_append, Transfer.about]

theorem keeps_publish_shown (key : String) (body : Json) : (publish key body).Keeps x.shown :=
  keeps_publish key body fun _ _ => rfl

/-- Confirming another payment is nobody's turn. -/
theorem meets_confirmPayment {payment : Payment} (confirmation : Confirmation) (hs : x.Ok s)
    (h : Foreign x payment s) :
    (confirmPayment payment confirmation).Meets (contract x) Anyhow Anyhow g s := by
  unfold confirmPayment
  simp only [bind_eq, pure_eq]
  split
  · exact fun _ _ => trivial
  refine Delegate.meets_update_bind (fun t hst now tb r hr hid hrows _ => ?_)
    fun _ _ _ _ _ _ _ => trivial
  have ht := h.grows (grows_of_rely hst)
  have hguar := guar_foreignPayment (g := g) ht hrows fun _ => ⟨rfl, rfl, rfl⟩
  refine ⟨g, hguar, ?_⟩
  have hwritten := ht.grows hguar.2.1.grows
  have hok := ok_of_guar (ok_of_rely hs hst) hguar
  refine Delegate.meets_findFirstOrThrow_bind (fun u htu row hrow hw => ?_)
    fun _ _ _ _ _ => trivial
  have huid : row.invoice_uid ≠ x.uid :=
    ((hwritten.grows (grows_of_rely htu)).row_of_id hrow (by simpa using hw)).1
  refine Delegate.meets_findFirstOrThrow_bind (fun v huv invoice hinvoice hw => ?_)
    fun _ _ _ _ _ => trivial
  have hne : invoice.uid ≠ x.uid := by
    have hsame : invoice.uid = row.invoice_uid := by simpa using hw
    rwa [hsame]
  refine meets_updateInvoice_bind grows_of_rely ⟨invoice, hinvoice, rfl, rfl⟩
    fun w hvw now tb r hr hid hru hrows => ?_
  have hokw := ok_of_rely (ok_of_rely (ok_of_rely hok htu) huv) hvw
  refine ⟨g, guar_foreignInvoice hokw hr (hru ▸ hne) (.inl rfl) hrows fun _ => ⟨rfl, rfl⟩, ?_⟩
  refine meets_silent_bind (keeps_publish_shown _ _) fun _ _ _ => ?_
  exact meets_silent_bind (keeps_createAndSendWebhook_shown _ _) fun _ _ _ _ _ => trivial

/-! ## The calls that look for blocks -/

section Confirming

variable {libraries : ChainLibraries} {env : Env}

/-- No block is found for the transaction of the transfer. -/
theorem getConfirmation_none {c : Answer} (hc : x.Sees .confirms c) :
    EVM.getConfirmation x.txid c = .ok none := by
  unfold EVM.getConfirmation
  cases hreceipt : c.receipt x.txid with
  | none => rfl
  | some receipt => simp only [hc.blockless rfl receipt hreceipt]

/-- Looking for the block of the transfer's transaction finds none; what is found of
another payment is that payment's. -/
theorem meets_found {payment : Payment} {k : Option Confirmation → Task β}
    {plugin : Plugin} (hs : x.Ok s) (hcopy : Copy x payment s)
    (hplugin : payment.txid = x.txid → plugin.getConfirmation = EVM.getConfirmation)
    (hnone : ∀ t, (k none).Meets (contract x) Anyhow Anyhow .confirms t)
    (hsome : ∀ t, x.Ok t → Foreign x payment t → ∀ confirmation,
      (k (some confirmation)).Meets (contract x) Anyhow Anyhow .confirms t) :
    ((ask (plugin.getConfirmation payment.txid)).bind k).Meets (contract x) Anyhow Anyhow
      .confirms s := by
  refine meets_query_bind (fun t hst c hc found hfound => ?_) fun _ _ _ _ _ _ _ => trivial
  cases found with
  | none => exact hnone t
  | some confirmation =>
      refine hsome t (ok_of_rely hs hst) ?_ confirmation
      rcases hcopy.grows (grows_of_rely hst) with ⟨htxid, -⟩ | hforeign
      · rw [hplugin htxid, htxid, getConfirmation_none hc] at hfound
        cases hfound
      · exact hforeign

/-- `getConfirmation` asks the plugin of the payment's chain. -/
theorem meets_getConfirmation_bind {payment : Payment} {k : Option Confirmation → Task β}
    (hplugins : env.plugins = plugins libraries) (hs : x.Ok s) (hcopy : Copy x payment s)
    (hnone : ∀ t, (k none).Meets (contract x) Anyhow Anyhow .confirms t)
    (hsome : ∀ t, x.Ok t → Foreign x payment t → ∀ confirmation,
      (k (some confirmation)).Meets (contract x) Anyhow Anyhow .confirms t) :
    ((getConfirmation env payment.txid (nullText payment.chain) payment.currency).bind k).Meets
      (contract x) Anyhow Anyhow .confirms s := by
  unfold getConfirmation
  simp only [bind_eq, Proc.bind_assoc]
  refine meets_ofExcept_bind (fun plugin hfind => ?_) fun _ _ _ => trivial
  refine meets_found hs hcopy (fun htxid => ?_) hnone hsome
  rcases hcopy with ⟨-, -, hchain⟩ | hforeign
  · rw [hchain] at hfind
    exact (evm_of_find hplugins x.evm hfind).2
  · exact absurd htxid hforeign.txid

/-- What is found confirms the payment; that of the transfer is not found. -/
theorem meets_confirmFound {payment : Payment} {lookUp : Task (Option Confirmation)}
    (h : ∀ (k : Option Confirmation → Task Unit),
      (∀ t, (k none).Meets (contract x) Anyhow Anyhow .confirms t) →
      (∀ t, x.Ok t → Foreign x payment t → ∀ confirmation,
        (k (some confirmation)).Meets (contract x) Anyhow Anyhow .confirms t) →
      (lookUp.bind k).Meets (contract x) Anyhow Anyhow .confirms s) :
    (confirmIfFound payment lookUp).Meets (contract x) Anyhow Anyhow .confirms s := by
  unfold confirmIfFound detached
  refine meets_tryCatch (meets_mono (E := Anyhow) (fun _ _ _ h => h)
    (fun _ _ _ _ _ _ => trivial) ?_)
  refine h _ (fun _ _ _ => trivial) fun t ht hforeign confirmation => ?_
  exact meets_bind (meets_mono (fun _ _ _ _ _ _ => trivial) (fun _ _ _ h => h)
    (meets_confirmPayment confirmation ht hforeign))

/-- A loop over copies of payments. -/
theorem meets_payments {payments : List Payment} {body : Payment → Task Unit}
    (hs : x.Ok s) (hcopies : ∀ payment ∈ payments, Copy x payment s)
    (hbody : ∀ payment ∈ payments, ∀ t, x.Ok t → Copy x payment t →
      (body payment).Meets (contract x) Anyhow Anyhow .confirms t) :
    (forEach payments body).Meets (contract x) Anyhow Anyhow .confirms s := by
  have hkeep : ∀ {s t : World}, (x.Ok s ∧ ∀ payment ∈ payments, Copy x payment s) → x.Ok t →
      Grows s t → x.Ok t ∧ ∀ payment ∈ payments, Copy x payment t :=
    fun h ht hgrows => ⟨ht, fun payment hp => (h.2 payment hp).grows hgrows⟩
  refine meets_mono (fun _ _ _ _ => trivial) (fun _ _ _ h => h)
    (meets_forEach (I := fun g t => g = .confirms ∧ x.Ok t ∧ ∀ payment ∈ payments,
      Copy x payment t) (fun g s t h hst => ?_) (fun payment hp g t h => ?_) ⟨rfl, hs, hcopies⟩)
  · exact ⟨h.1, hkeep h.2 (ok_of_rely h.2.1 hst) (grows_of_rely hst)⟩
  · obtain ⟨rfl, hok, hcopies⟩ := h
    have hround := meets_fixed (C := contract x) (fun h => h.1)
      (hbody payment hp t hok (hcopies payment hp))
    have hframe := meets_frame (C := contract x)
      (F := fun t => x.Ok t ∧ ∀ payment ∈ payments, Copy x payment t)
      (fun h hst => hkeep h (ok_of_rely h.1 hst) (grows_of_rely hst))
      (fun h hst => hkeep h (ok_of_guar h.1 hst) hst.2.1.grows) ⟨hok, hcopies⟩ hround
    exact meets_mono (fun _ _ _ h => ⟨h.1.2, h.2⟩) (fun _ _ _ _ => trivial) hframe

theorem meets_getConfirmationForTxid (hplugins : env.plugins = plugins libraries)
    (hs : x.Ok s) (txid : String) :
    (getConfirmationForTxid env txid).Meets (contract x) Anyhow Anyhow .confirms s := by
  unfold getConfirmationForTxid
  simp only [bind_eq, pure_eq]
  refine Delegate.meets_findFirst_bind (fun t hst payment hp hw => ?_)
    fun _ _ _ => fun _ _ => trivial
  obtain rfl : payment.txid = txid := by simpa using hw
  have ht := ok_of_rely hs hst
  refine meets_getConfirmation_bind hplugins ht (copy_of_mem ht hp) (fun _ => fun _ _ => trivial)
    fun u hu hforeign confirmation => ?_
  exact meets_bind (meets_mono (fun _ _ _ _ _ _ => trivial) (fun _ _ _ h => h)
    (meets_confirmPayment confirmation hu hforeign))

theorem meets_confirmTransactionsTick (hplugins : env.plugins = plugins libraries)
    (hs : x.Ok s) :
    (confirmTransactionsTick env).Meets (contract x) Anyhow Anyhow .confirms s := by
  unfold confirmTransactionsTick
  simp only [bind_eq]
  refine meets_query_bind (fun t hst c _ unconfirmed hread => ?_) fun _ _ _ _ _ _ _ => trivial
  obtain rfl := Except.ok.inj hread
  have ht := ok_of_rely hs hst
  refine meets_payments ht (fun payment hp => ?_) fun payment _ u hu hcopy =>
    meets_confirmFound fun k => meets_getConfirmation_bind hplugins hu hcopy
  have hmem := (List.mem_insertionSort _).mp hp
  exact copy_of_mem ht (Table.mem_select.mp hmem).1

theorem meets_confirmPaymentsCommand (hplugins : env.plugins = plugins libraries)
    (hs : x.Ok s) (chain currency : String) :
    (confirmPaymentsCommand env chain currency).Meets (contract x) Anyhow Anyhow .confirms s := by
  unfold confirmPaymentsCommand listUnconfirmedPayments
  simp only [bind_eq]
  refine meets_ofExcept_bind (fun plugin hfind => ?_) fun _ _ _ => trivial
  refine Delegate.meets_findMany_bind fun t hst => ?_
  have ht := ok_of_rely hs hst
  refine meets_payments ht (fun payment hp => copy_of_mem ht (Table.mem_select.mp hp).1)
    fun payment hp u hu hcopy =>
      meets_confirmFound fun k => meets_found hu hcopy fun htxid => ?_
  have hchain : payment.chain = some chain := by
    have hw := (Table.mem_select.mp hp).2
    simp only [Bool.and_eq_true, beq_iff_eq] at hw
    exact hw.1.2
  rcases hcopy with ⟨-, -, hown⟩ | hforeign
  · obtain rfl : chain = x.chain := Option.some.inj (hchain.symm.trans hown)
    exact (evm_of_find hplugins x.evm hfind).2
  · exact absurd htxid hforeign.txid

end Confirming

/-! ## The submission -/

section Submitting

variable {libraries : ChainLibraries} {env : Env} {option : PaymentOption}

theorem at_fresh_of_rely (ha : x.At .fresh s) (h : (contract x).rely .submits s t) :
    x.At .fresh t :=
  Relay.at_of_rely (R := x.relay) ha rfl h

/-- Somebody will look for the receipt. -/
def Watched (x : Transfer) (w : World) : Prop := ∃ j ∈ w.jobs, x.watches j = true

theorem Watched.of_rely (h : Watched x s) (hst : (contract x).rely g s t) : Watched x t := by
  obtain ⟨j, hj, hw⟩ := h
  exact ⟨j, hst.1.jobs j hj (x.about_of_watches hw), hw⟩

/-- What the broadcast leaves behind looks for the receipt of the transfer. -/
theorem watched_of_broadcast (hnamed : x.Named env) {c : Answer} (hc : x.Fails c)
    {result : BroadcastTxResult} {js : List Job}
    (h : EVM.broadcastTx x.transaction c = .ok (result, js)) :
    js = [.lookUpReceipt x.txid] ∨ js = [.onReceipt x.txid] := by
  unfold EVM.broadcastTx at h
  split at h
  · rename_i hlength
    obtain ⟨-, rfl⟩ := Prod.mk.inj (Except.ok.inj h)
    exact .inl (by rw [hnamed.hash hlength])
  · split at h
    · rename_i sent hsent
      obtain ⟨-, rfl⟩ := Prod.mk.inj (Except.ok.inj h)
      right
      simp [hc.sent sent hsent]
    · cases h

/-- The broadcast, then the rest. -/
theorem meets_broadcastTx_bind {plugin : Plugin} {k : BroadcastTxResult → Task β}
    (hnamed : x.Named env) (hplugin : plugin.broadcastTx = EVM.broadcastTx)
    (ha : x.At .fresh s)
    (hk : ∀ t result, x.At .fresh t → Watched x t →
      (k result).Meets (contract x) Anyhow Anyhow .submits t) :
    ((broadcastTx plugin x.transaction).bind k).Meets (contract x) Anyhow Anyhow .submits s := by
  refine meets_bind (meets_step fun t hst c hc => ?_)
  have hat := at_fresh_of_rely ha hst
  rw [hplugin]
  cases hsend : EVM.broadcastTx x.transaction c with
  | error e =>
      exact ⟨.submits, (contract x).guar_refl _ _, fun _ he => (by cases he),
        fun _ _ _ _ => trivial⟩
  | ok sent =>
      obtain ⟨result, js⟩ := sent
      have hjs := watched_of_broadcast hnamed hc.fails hsend
      have hno : ∀ receipt, Job.handleTransactionReceipt receipt ∈ js →
          receipt.transactionHash = x.txid → receipt.status = false := by
        intro receipt hmem
        rcases hjs with rfl | rfl <;> simp at hmem
      have hwatched : Watched x { t with jobs := t.jobs ++ js } := by
        rcases hjs with rfl | rfl
        · exact ⟨.lookUpReceipt x.txid, by simp, by simp [Transfer.watches]⟩
        · exact ⟨.onReceipt x.txid, by simp, by simp [Transfer.watches]⟩
      refine ⟨.submits, guar_append hno, fun a ha' u hu => ?_, fun _ he => (by cases he)⟩
      obtain rfl := Except.ok.inj ha'
      exact meets_mono_rely (hk _ result (at_append hat hno) hwatched) hu

theorem guar_settled (ha : x.At .inserted s) {tb : Table Invoice} {ss : List Settlement}
    {c : Settlement} {r : Invoice} {f : Invoice → Invoice} (hr : r ∈ s.invoices.rows)
    (huid : r.uid = x.uid) (hf : invoiceColumns (f r) = ⟨x.uid, .confirming, some x.txid⟩)
    (hgrows : ∀ r, (f r).id = r.id ∧ (f r).uid = r.uid)
    (hrows : tb.rows = Table.patch r.id f s.invoices.rows) (hss : ss = s.settlements ++ [c])
    (hc : c.uid = x.uid) :
    (contract x).guar .submits s { s with invoices := tb, settlements := ss } .submits := by
  have hframe : x.Frame s { s with invoices := tb, settlements := ss } :=
    ⟨Grows.of_invoices hrows rfl hgrows, fun _ hj _ => hj⟩
  exact Relay.moves (R := x.relay) hframe ha (at_settled ha hr huid hf hrows hss hc) rfl

/-- The settlement, then what may run at any stage. -/
theorem meets_settleInvoice_bind {k : Invoice → Task β} {invoice : Invoice}
    {transaction : Transaction} {f : Time → Invoice → Invoice}
    {hid : ∀ t r, Record.id (f t r) = Record.id r} (ha : x.At .inserted s)
    (hinv : HasInvoice invoice.id x.uid s) (huid : option.invoice_uid = x.uid)
    (hf : ∀ now r, r.uid = x.uid → invoiceColumns (f now r) = ⟨x.uid, .confirming, some x.txid⟩)
    (hgrows : ∀ now r, (f now r).id = r.id ∧ (f now r).uid = r.uid)
    (hk : ∀ t r, (k r).Meets (contract x) Anyhow Anyhow .submits t) :
    ((settleInvoice invoice option transaction .confirming f hid).bind k).Meets (contract x)
      Anyhow Anyhow .submits s := by
  refine meets_bind (meets_step fun t hst c _ => ?_)
  have hat : x.At .inserted t := Relay.at_of_rely (R := x.relay) ha rfl hst
  cases h : t.invoices.update? invoice.id (f c.now) (hid c.now) with
  | ok q =>
      obtain ⟨row, tb⟩ := q
      obtain ⟨r, hr, hi, rfl, hrows, -, -⟩ := Table.update?_ok h
      obtain ⟨r₀, hr₀, hi₀, huid₀⟩ := hinv.grows (grows_of_rely hst)
      obtain rfl : r = r₀ := Table.eq_of_id hr hr₀ (hi.trans hi₀.symm)
      rw [← hi₀] at hrows
      refine ⟨.submits, guar_settled hat hr huid₀ (hf c.now r huid₀) (hgrows c.now) hrows rfl huid,
        fun _ _ u _ => hk u _, fun _ he => (by cases he)⟩
  | error e =>
      exact ⟨.submits, (contract x).guar_refl _ _, fun _ he => (by cases he),
        fun _ _ _ _ => trivial⟩

theorem keeps_spawn_shown {j : Job} (hj : x.about j = false) : (spawn j).Keeps x.shown := by
  refine keeps_spawn j fun w => ?_
  simp [Transfer.shown, World.ledger, List.filter_append, hj]

/-- `completePayment` inserts the payment and settles the invoice. -/
theorem meets_completePayment (hnamed : x.Named env) (ha : x.At .fresh s)
    (hwatched : Watched x s) (huid : option.invoice_uid = x.uid)
    (hcurrency : option.currency = x.currency) (hchain : option.chain = x.chain) :
    (completePayment env option x.transaction true).Meets (contract x) Anyhow Anyhow
      .submits s := by
  have hfilled : ∀ y, orElse (some option.chain) y = x.chain := by
    have hne : option.chain ≠ "" := by
      rw [hchain]
      intro he
      exact absurd x.evm (by rw [he]; decide)
    intro y
    rw [orElse, if_neg hne, hchain]
  unfold completePayment
  simp only [bind_eq, pure_eq]
  refine Discipline.meets_paymentTxid_bind env fun t hst txid htxid => ?_
  obtain rfl := hnamed.stored option txid hcurrency hchain htxid
  refine Delegate.meets_findFirstOrThrow_bind (fun u htu invoice hinv hw => ?_)
    fun _ _ _ _ _ => trivial
  have hat := at_fresh_of_rely (at_fresh_of_rely ha hst) htu
  have hhas : HasInvoice invoice.id x.uid u := ⟨invoice, hinv, rfl, by simpa [huid] using hw⟩
  refine Delegate.meets_create_bind (fun v huv now tb hrows => ?_) fun _ _ => trivial
  have hbefore := at_fresh_of_rely hat huv
  have hwatch := ((hwatched.of_rely hst).of_rely htu).of_rely huv
  have hafter := at_inserted hbefore hwatch (by simp [paymentColumns, huid, hcurrency, hfilled])
    hrows
  have hframe : x.Frame v { v with payments := tb } :=
    ⟨Grows.of_create rfl hrows, fun _ hj _ => hj⟩
  refine ⟨.submits, Relay.moves (R := x.relay) hframe hbefore hafter rfl, ?_⟩
  have hhas' : HasInvoice invoice.id x.uid v := hhas.grows (grows_of_rely huv)
  refine meets_settleInvoice_bind hafter hhas' huid
    (fun _ r hr => by simp [invoiceColumns, hr]) (fun _ _ => ⟨rfl, rfl⟩) fun y r => ?_
  refine Delegate.meets_findFirstOrThrow_bind (fun _ _ _ _ _ => ?_) fun _ _ _ _ _ => trivial
  refine meets_silent_bind (keeps_detached (keeps_publishEvent _ _)) fun _ _ _ => ?_
  exact meets_silent_bind (keeps_spawn_shown rfl) fun _ _ _ _ _ => trivial

/-- The wallet of a payment is nobody's turn. -/
theorem meets_updateWallet {wallet : Option String} {i : Nat} :
    (match wallet with
      | none => done ()
      | some wallet => (prisma.payments.update i fun _ r =>
          { r with wallet := some wallet }).bind fun _ => done ()).Meets (contract x)
      Anyhow Anyhow g s := by
  cases wallet with
  | none => exact fun _ _ => trivial
  | some wallet =>
      refine Delegate.meets_update_bind (fun t _ _ tb _ _ _ hrows _ => ?_)
        fun _ _ _ _ _ _ _ => trivial
      have hframe : x.Frame t { t with payments := tb } :=
        ⟨Grows.of_payments rfl hrows fun _ => ⟨rfl, rfl, rfl⟩, fun _ hj _ => hj⟩
      have hview : x.view { t with payments := tb } = x.view t :=
        view_payment (f := fun r => { r with wallet := some wallet })
          (fun _ _ _ => ⟨rfl, fun _ => rfl⟩) hrows
      exact ⟨g, (Relay.stays (R := x.relay) hframe fun _ ha => at_of_view ha hview rfl).1,
        fun _ _ => trivial⟩

/-- `submitPayment` takes the transfer from nothing to the settled invoice. -/
theorem meets_submitPayment (hplugins : env.plugins = plugins libraries) (hnamed : x.Named env)
    {payment : SubmitPaymentRequest} (h : x.SubmittedBy payment) (ha : x.At .fresh s) :
    (submitPayment env payment).Meets (contract x) Anyhow Anyhow .submits s := by
  unfold submitPayment findPaymentOption
  simp only [bind_eq, pure_eq]
  refine Delegate.meets_findFirstOrThrow_bind (fun t hst invoice _ _ => ?_)
    fun _ _ _ _ _ => trivial
  split
  · exact fun _ _ => trivial
  refine Delegate.meets_findFirst_bind (fun u htu option _ hw => ?_)
    fun _ _ _ => fun _ _ => trivial
  simp only [Bool.and_eq_true, beq_iff_eq] at hw
  obtain ⟨⟨huid, hcurrency⟩, hchain⟩ := hw
  rw [h.uid] at huid
  rw [h.chain] at hchain ⊢
  refine meets_ofExcept_bind (fun plugin hfind => ?_) fun _ _ _ => trivial
  have hbtc : option.currency ≠ "BTC" := by
    rw [hcurrency]
    exact ne_btc_of_find hplugins x.evm hfind
  have hplugin := (evm_of_find hplugins x.evm hfind).1
  rw [h.currency] at hcurrency
  have hnot : option.chain ≠ "SOL" ∧ option.chain ≠ "XRP" ∧
      confirmingChains.contains option.chain = true := by
    rw [hchain]
    have hall : ∀ chain ∈ evmChains, chain ≠ "SOL" ∧ chain ≠ "XRP" ∧
        confirmingChains.contains chain = true := by decide
    exact hall x.chain x.evm
  rw [h.transactions]
  simp only [forEach]
  refine meets_bind (meets_mono (Q := Anyhow) (fun _ _ _ _ _ _ => trivial) (fun _ _ _ h => h) ?_)
  refine meets_bind (meets_mono (Q := Anyhow) (fun _ _ _ _ _ _ => trivial) (fun _ _ _ h => h) ?_)
  unfold submitTransaction broadcastTransaction settleTransaction
  simp only [bind_eq, pure_eq, if_neg hnot.1, if_neg hnot.2.1, if_pos hnot.2.2,
    if_neg (fun h : _ ∧ _ => hbtc h.1)]
  refine meets_ask_bind (fun v huv verified => ?_) fun _ _ _ => trivial
  split
  · exact fun _ _ => trivial
  simp only [Proc.bind_assoc, done_bind]
  have hav := at_fresh_of_rely (at_fresh_of_rely (at_fresh_of_rely ha hst) htu) huv
  refine meets_broadcastTx_bind hnamed hplugin hav fun y _ hay hwatched => ?_
  refine meets_bind (meets_mono (fun record _ _ _ => ?_) (fun _ _ _ h => h)
    (meets_completePayment hnamed hay hwatched huid hcurrency hchain))
  exact meets_updateWallet

end Submitting

/-! ## Background calls of the transfer -/

section Background

variable {env : Env}

/-- What a part has done once it has ended. -/
def Promise (x : Transfer) (g : Part) (w : World) : Prop :=
  match g with
  | .watches => .revertPayment x.txid ∈ w.jobs ∨ ∃ receipt, receipt.transactionHash = x.txid ∧
      .handleTransactionReceipt receipt ∈ w.jobs
  | .handles => .revertPayment x.txid ∈ w.jobs
  | .reverts => x.At .reverted w
  | _ => True

/-- Looking for the receipt, handling it and reverting cannot fail. -/
def Fallible (g : Part) (_ : World) : Prop := g ≠ .watches ∧ g ≠ .handles ∧ g ≠ .reverts

/-- The receipt is there, so looking for it asks for one. -/
theorem meets_receipt_bind {Q : Unit → Part → World → Prop} {E : Failure → Part → World → Prop}
    {k : Option TransactionReceipt → Task Unit}
    (hk : ∀ t receipt, receipt.transactionHash = x.txid → receipt.status = false →
      (k (some receipt)).Meets (contract x) Q E .watches t) :
    ((ask fun c => .ok (c.receipt x.txid)).bind k).Meets (contract x) Q E .watches s := by
  refine meets_query_bind (fun t _ c hc found hfound => ?_) fun _ _ _ _ he => (by cases he)
  obtain rfl := Except.ok.inj hfound
  obtain ⟨receipt, hreceipt⟩ := Option.ne_none_iff_exists'.mp (hc.there rfl)
  rw [hreceipt]
  exact hk t receipt (hc.fails.own x.txid receipt hreceipt) (hc.fails.failed receipt hreceipt)

theorem meets_onReceipt : (onReceipt x.txid).Meets (contract x) (fun _ => Promise x)
    (fun _ _ _ => False) .watches s := by
  unfold onReceipt
  simp only [bind_eq]
  refine meets_receipt_bind fun t receipt hhash hstatus => ?_
  simp only [hstatus, Bool.false_eq_true, if_false, hhash]
  refine meets_spawn (fun _ he => (by cases he)) fun u hu => .inl (hu ?_)
  simp [Transfer.about]

theorem meets_lookUpReceipt : (lookUpReceipt x.txid).Meets (contract x) (fun _ => Promise x)
    (fun _ _ _ => False) .watches s := by
  unfold lookUpReceipt
  simp only [bind_eq]
  refine meets_receipt_bind fun t receipt hhash hstatus => ?_
  refine meets_spawn (fun _ he _ => ?_) fun u hu => .inr ⟨receipt, hhash, hu ?_⟩
  · obtain rfl := Job.handleTransactionReceipt.inj he
    exact hstatus
  · simp [Transfer.about, hhash]

theorem meets_handleFailed {receipt : TransactionReceipt} (hhash : receipt.transactionHash = x.txid)
    (hstatus : receipt.status = false) : (handleTransactionReceipt receipt).Meets (contract x)
      (fun _ => Promise x) (fun _ _ _ => False) .handles s := by
  unfold handleTransactionReceipt
  rw [if_pos hstatus, hhash]
  refine meets_spawn (fun _ he => (by cases he)) fun u hu => hu ?_
  simp [Transfer.about]

/-- `revertPayment` takes the transfer from the settled invoice to its end. -/
theorem meets_revertTransfer (ha : x.At .settled s) : (revertPayment x.txid).Meets (contract x)
    (fun _ => Promise x) (fun _ _ _ => False) .reverts s := by
  have hkeep : ∀ {s t : World} {a : Stage}, a.turn = .reverts → x.At a s →
      (contract x).rely .reverts s t → x.At a t :=
    fun hturn ha h => Relay.at_of_rely (R := x.relay) ha hturn h
  unfold revertPayment
  simp only [bind_eq]
  refine Delegate.meets_findFirstOrThrow_bind (fun t hst invoice hinvoice hw => ?_)
    fun t hst hnone => ?_
  case refine_2 =>
    obtain ⟨r, hr, -, hcolumns⟩ := exists_invoice (hkeep rfl ha hst)
    have hhash : r.hash = some x.txid := congrArg InvoiceColumns.hash hcolumns
    simpa [hhash] using hnone r hr
  have hat := hkeep rfl ha hst
  have hown : x.ownInvoice invoice = true := own_of_hash (by simpa using hw)
  have hhas : HasInvoice invoice.id x.uid t :=
    ⟨invoice, hinvoice, rfl, uid_of_own hat hinvoice hown⟩
  refine Delegate.meets_findFirstOrThrow_bind (fun u htu payment hpayment hw => ?_)
    fun u htu hnone => ?_
  case refine_2 =>
    obtain ⟨p, hp, hownp, hcolumns⟩ :=
      exists_payment (hkeep rfl hat htu) (List.mem_singleton_self _)
    have htxid : p.txid = x.txid := congrArg PaymentColumns.txid hcolumns
    simpa [htxid] using hnone p hp
  have hau := hkeep rfl hat htu
  have hownp : x.ownPayment payment = true := by
    have htxid : payment.txid = x.txid := by simpa using hw
    simp [Transfer.ownPayment, htxid]
  have hpays : HasPayment payment.id x.uid u := by
    refine ⟨payment, hpayment, rfl, ?_⟩
    exact (Stage.of_mem_payments (columns_of_payment hau hpayment hownp)).1
  -- the invoice is released
  refine Delegate.meets_update_bind (fun v huv now tb r hr hid hrows _ => ?_)
    fun v huv now te hupdate => ?_
  case refine_2 =>
    rcases Table.update?_error hupdate with ⟨-, hnone⟩ | ⟨-, r, -, -, y, -, -, -, hkey⟩
    · obtain ⟨r, hr, hid, -⟩ := (hhas.grows (grows_of_rely htu)).grows (grows_of_rely huv)
      exact absurd hid (hnone r hr)
    · exact absurd rfl hkey
  have hav := hkeep rfl hau huv
  obtain ⟨r₀, hr₀, hid₀, huid₀⟩ := (hhas.grows (grows_of_rely htu)).grows (grows_of_rely huv)
  obtain rfl : r = r₀ := Table.eq_of_id hr hr₀ (hid.trans hid₀.symm)
  rw [← hid₀] at hrows
  have hreleased := at_released hav hr huid₀ (by simp [invoiceColumns, huid₀]) hrows
  have hframe : x.Frame v { v with invoices := tb } :=
    ⟨Grows.of_invoices hrows rfl fun _ => ⟨rfl, rfl⟩, fun _ hj _ => hj⟩
  refine ⟨.reverts, Relay.moves (R := x.relay) hframe hav hreleased rfl, ?_⟩
  -- the payment is marked
  have hpaysv := (hpays.grows (grows_of_rely huv)).grows hframe.grows
  refine Delegate.meets_update_bind (fun y hvy now tb p hp hid hrows _ => ?_)
    fun y hvy now te hupdate => ?_
  case refine_2 =>
    rcases Table.update?_error hupdate with ⟨-, hnone⟩ | ⟨-, p, -, -, y, -, -, -, hkey⟩
    · obtain ⟨p, hp, hid, -⟩ := hpaysv.grows (grows_of_rely hvy)
      exact absurd hid (hnone p hp)
    · exact absurd rfl hkey
  have hay := hkeep rfl hreleased hvy
  obtain ⟨p₀, hp₀, hpid₀, hpuid₀⟩ := hpaysv.grows (grows_of_rely hvy)
  obtain rfl : p = p₀ := Table.eq_of_id hp hp₀ (hid.trans hpid₀.symm)
  rw [← hpid₀] at hrows
  have hownp' : x.ownPayment p = true := by simp [Transfer.ownPayment, hpuid₀]
  obtain ⟨-, htxid, hcurrency, hchain⟩ := Stage.of_mem_payments (columns_of_payment hay hp hownp')
  simp only [paymentColumns] at htxid hcurrency hchain
  have hreverted := at_reverted hay hp hownp'
    (by simp [paymentColumns, hpuid₀, htxid, hcurrency, hchain]) hrows
  have hframe' : x.Frame y { y with payments := tb } :=
    ⟨Grows.of_payments rfl hrows fun _ => ⟨rfl, rfl, rfl⟩, fun _ hj _ => hj⟩
  refine ⟨.reverts, Relay.moves (R := x.relay) hframe' hay hreverted rfl, ?_⟩
  have hhave : HasPayment payment.id x.uid { y with payments := tb } :=
    (hpaysv.grows (grows_of_rely hvy)).grows hframe'.grows
  refine Delegate.meets_findFirstOrThrow_bind (fun z hyz _ _ _ => ?_) fun z hyz hnone => ?_
  case refine_2 =>
    obtain ⟨q, hq, hqid, -⟩ := hhave.grows (grows_of_rely hyz)
    simpa [hqid] using hnone q hq
  have hpublished : ∀ (v : World) ms, x.shown { v with published := ms } = x.shown v :=
    fun _ _ => rfl
  refine meets_step fun v hzv _ _ => ⟨.reverts, (silent (hpublished v _)).1, fun _ _ v' hv => ?_,
    fun _ he => (by cases he)⟩
  have hend := hkeep rfl (hkeep rfl hreverted hyz) hzv
  exact hkeep rfl (at_of_shown (hpublished v _) hend) hv

end Background

/-! ## Other background calls -/

section Others

variable {env : Env}

/-- `revertPayment` of another transaction. -/
theorem meets_revertOther {txid : String} (hne : txid ≠ x.txid) (hs : x.Ok s) :
    (revertPayment txid).Meets (contract x) Anyhow Anyhow g s := by
  unfold revertPayment
  simp only [bind_eq]
  refine Delegate.meets_findFirstOrThrow_bind (fun t hst invoice hinvoice hw => ?_)
    fun _ _ _ _ _ => trivial
  have ht := ok_of_rely hs hst
  have huid : invoice.uid ≠ x.uid := by
    intro huid
    obtain ⟨a, ha⟩ := ht
    have hcolumns := congrArg InvoiceColumns.hash (columns_of_at ha hinvoice (own_of_uid huid))
    have hhash : invoice.hash = some txid := by simpa using hw
    cases a <;> simp_all [invoiceColumns, Stage.invoice]
  refine Delegate.meets_findFirstOrThrow_bind (fun u htu payment hpayment hw => ?_)
    fun _ _ _ _ _ => trivial
  have hu := ok_of_rely ht htu
  have htxid : payment.txid = txid := by simpa using hw
  have hforeign := foreign_of_mem hu hpayment (htxid ▸ hne)
  have hhas : HasInvoice invoice.id invoice.uid u :=
    HasInvoice.grows ⟨invoice, hinvoice, rfl, rfl⟩ (grows_of_rely htu)
  refine meets_updateInvoice_bind grows_of_rely hhas fun v huv now tb r hr hid hru hrows => ?_
  have hv := ok_of_rely hu huv
  have hguar := guar_foreignInvoice (g := g) hv hr (hru ▸ huid) (.inr rfl) hrows
    fun _ => ⟨rfl, rfl⟩
  refine ⟨g, hguar, ?_⟩
  have hlater := (hforeign.grows (grows_of_rely huv)).grows hguar.2.1.grows
  refine Delegate.meets_update_bind (fun y hvy now tb p _ _ hrows _ => ?_)
    fun _ _ _ _ _ _ _ => trivial
  refine ⟨g, guar_foreignPayment (hlater.grows (grows_of_rely hvy)) hrows
    fun _ => ⟨rfl, rfl, rfl⟩, ?_⟩
  refine Delegate.meets_findFirstOrThrow_bind (fun _ _ _ _ _ => ?_) fun _ _ _ _ _ => trivial
  exact meets_of_keeps (keeps_publish_shown _ _)

/-- `handleTransactionReceipt` of another transaction. -/
theorem meets_handleOther {receipt : TransactionReceipt}
    (hne : receipt.transactionHash ≠ x.txid) (hs : x.Ok s) :
    (handleTransactionReceipt receipt).Meets (contract x) Anyhow Anyhow g s := by
  unfold handleTransactionReceipt confirmPaymentByTxid
  simp only [bind_eq, pure_eq]
  split
  · exact meets_spawn (fun _ he => (by cases he)) fun _ _ => trivial
  refine meets_ask_bind (fun t hst _ => ?_) fun _ _ _ => trivial
  have ht := ok_of_rely hs hst
  refine meets_bind (meets_mono (Q := Anyhow) (fun _ g' u _ => ?_) (fun _ _ _ h => h) ?_)
  · refine Delegate.meets_findFirst_bind (fun _ _ _ _ _ => fun _ _ => trivial) fun v _ _ => ?_
    exact meets_of_keeps (keeps_bind (Delegate.keeps_create fun _ _ => rfl) fun _ => trivial)
  · refine Delegate.meets_findFirstOrThrow_bind (fun u htu payment hpayment hw => ?_)
      fun _ _ _ _ _ => trivial
    have htxid : payment.txid = receipt.transactionHash := by simpa using hw
    have hu := ok_of_rely ht htu
    exact meets_confirmPayment _ hu (foreign_of_mem hu hpayment (htxid ▸ hne))

/-- The receipt of another transaction is looked for. -/
theorem meets_receiptOther_bind {txid : String} {k : Option TransactionReceipt → Task Unit}
    (hnone : ∀ t, (k none).Meets (contract x) Anyhow Anyhow g t)
    (hsome : ∀ t receipt, receipt.transactionHash = txid →
      (k (some receipt)).Meets (contract x) Anyhow Anyhow g t) :
    ((ask fun c => .ok (c.receipt txid)).bind k).Meets (contract x) Anyhow Anyhow g s := by
  refine meets_query_bind (fun t _ c hc found hfound => ?_) fun _ _ _ _ _ _ _ => trivial
  obtain rfl := Except.ok.inj hfound
  cases hreceipt : c.receipt txid with
  | none => exact hnone t
  | some receipt => exact hsome t receipt (hc.fails.own txid receipt hreceipt)

theorem meets_spawnHandle {receipt : TransactionReceipt} (hne : receipt.transactionHash ≠ x.txid) :
    (spawn (.handleTransactionReceipt receipt)).Meets (contract x) Anyhow Anyhow g s := by
  refine meets_spawn (fun _ he hhash => ?_) fun _ _ => trivial
  obtain rfl := Job.handleTransactionReceipt.inj he
  exact absurd hhash hne

/-- A background call that is not about the transaction. -/
theorem meets_otherJob {j : Job} (hj : x.about j = false) (hs : x.Ok s) :
    (runJob env j).Meets (contract x) Anyhow Anyhow g s := by
  cases j with
  | createAndSendWebhook topic payload =>
      exact meets_of_keeps (keeps_createAndSendWebhook_shown _ _)
  | sendWebhook webhook => exact meets_of_keeps (keeps_sendWebhook webhook)
  | sendWebhookForInvoice uid type => exact meets_of_keeps (keeps_sendWebhookForInvoice _ _)
  | createWebhookForInvoice invoice =>
      exact meets_of_keeps
        (keeps_bind (keeps_createWebhookForInvoice env invoice) fun _ => trivial)
  | createPaymentSubmission submission =>
      exact meets_of_keeps (keeps_bind (Delegate.keeps_create fun _ _ => rfl) fun _ => trivial)
  | onReceipt txid =>
      have hne : txid ≠ x.txid := by simpa [Transfer.about] using hj
      refine meets_receiptOther_bind (fun _ => fun _ _ => trivial) fun t receipt hhash => ?_
      simp only
      split
      · exact meets_spawnHandle (hhash ▸ hne)
      · exact meets_spawn (fun _ he => (by cases he)) fun _ _ => trivial
  | lookUpReceipt txid =>
      have hne : txid ≠ x.txid := by simpa [Transfer.about] using hj
      exact meets_receiptOther_bind (fun _ => fun _ _ => trivial)
        fun t receipt hhash => meets_spawnHandle (hhash ▸ hne)
  | handleTransactionReceipt receipt =>
      exact meets_handleOther (by simpa [Transfer.about] using hj) hs
  | revertPayment txid => exact meets_revertOther (by simpa [Transfer.about] using hj) hs

end Others

/-! ## Runs -/

section Runs

variable {libraries : ChainLibraries} {env : Env} {op : Op}

theorem part_of_confirms (h : confirms op = true) : x.part op = .confirms := by
  cases op with
  | getConfirmationForTxid txid => rfl
  | confirmTransactionsTick => rfl
  | confirmPaymentsCommand chain currency => rfl
  | _ => cases h

theorem part_of_request {payment : SubmitPaymentRequest} (h : request op = some payment) :
    x.part op = .submits := by
  cases op with
  | submitPayment payment => rfl
  | jsonV2Payment uid currency chain transactions => rfl
  | jsonPaymentRequest uid currency chain transactions wallet => rfl
  | _ => cases h

theorem part_of_about {j : Job} (h : x.about j = false) : x.part (.job j) = .other := by
  cases j with
  | onReceipt txid => exact if_neg (by simpa [Transfer.about] using h)
  | lookUpReceipt txid => exact if_neg (by simpa [Transfer.about] using h)
  | handleTransactionReceipt receipt => exact if_neg (by simpa [Transfer.about] using h)
  | revertPayment txid => exact if_neg (by simpa [Transfer.about] using h)
  | _ => rfl

/-- Only submissions submit. -/
theorem request_of_part (h : x.part op = .submits) : request op ≠ none := by
  cases op with
  | submitPayment payment => exact Option.some_ne_none _
  | jsonV2Payment uid currency chain transactions => exact Option.some_ne_none _
  | jsonPaymentRequest uid currency chain transactions wallet => exact Option.some_ne_none _
  | job j =>
      cases j with
      | onReceipt txid => simp only [Transfer.part] at h; split at h <;> cases h
      | lookUpReceipt txid => simp only [Transfer.part] at h; split at h <;> cases h
      | handleTransactionReceipt receipt => simp only [Transfer.part] at h; split at h <;> cases h
      | revertPayment txid => simp only [Transfer.part] at h; split at h <;> cases h
      | _ => cases h
  | _ => cases h

/-- Only `revertPayment` reverts. -/
theorem revert_of_part (h : x.part op = .reverts) : op = .job (.revertPayment x.txid) := by
  cases op with
  | job j =>
      cases j with
      | revertPayment txid =>
          simp only [Transfer.part] at h
          split at h
          · rename_i he
            rw [he]
          · cases h
      | onReceipt txid => simp only [Transfer.part] at h; split at h <;> cases h
      | lookUpReceipt txid => simp only [Transfer.part] at h; split at h <;> cases h
      | handleTransactionReceipt receipt => simp only [Transfer.part] at h; split at h <;> cases h
      | _ => cases h
  | _ => cases h

/-- The calls of the pool play their parts. -/
abbrev Running (x : Transfer) (p : Calls) : Prop :=
  Relay.Running x.relay x.Sees x.part .fresh (Promise x) Fallible p

theorem not_mem_parts {p : Calls} (h : ∀ th ∈ p.threads, x.part th.1 ≠ g) :
    g ∉ Relay.parts x.part p := by
  intro hmem
  obtain ⟨th, hth, hpart⟩ := List.mem_map.mp hmem
  exact h th hth hpart

/-- A call that promises nothing. -/
theorem meets_loose {p : Task Unit} (hg : Fallible g s)
    (h : p.Meets (contract x) Anyhow Anyhow g s) :
    p.Meets (contract x) (fun _ => Promise x) (fun _ => Fallible) g s := by
  refine meets_mono (fun _ g' t hend => ?_) (fun _ g' t hend => ?_)
    (meets_same (C := contract x) (fun h => h.1) h)
  · obtain ⟨-, rfl⟩ := hend
    obtain ⟨hwatches, hhandles, hreverts⟩ := hg
    cases g' <;> simp_all [Promise]
  · obtain ⟨-, rfl⟩ := hend
    exact hg

/-- A call that cannot fail. -/
theorem meets_firm {p : Task Unit} (h : p.Meets (contract x) (fun _ => Promise x)
      (fun _ _ _ => False) g s) :
    p.Meets (contract x) (fun _ => Promise x) (fun _ => Fallible) g s :=
  meets_mono (fun _ _ _ h => h) (fun _ _ _ h => h.elim) h

/-- A background call about the transaction. -/
theorem meets_aboutJob {j : Job} (hj : x.about j = true) (hmem : j ∈ s.jobs) (hs : x.Ok s)
    (hrevert : j = .revertPayment x.txid → x.At .settled s) :
    (runJob env j).Meets (contract x) (fun _ => Promise x) (fun _ => Fallible)
      (x.part (.job j)) s := by
  cases j with
  | onReceipt txid =>
      obtain rfl : txid = x.txid := by simpa [Transfer.about] using hj
      rw [show x.part (.job (.onReceipt x.txid)) = .watches from if_pos rfl]
      exact meets_firm meets_onReceipt
  | lookUpReceipt txid =>
      obtain rfl : txid = x.txid := by simpa [Transfer.about] using hj
      rw [show x.part (.job (.lookUpReceipt x.txid)) = .watches from if_pos rfl]
      exact meets_firm meets_lookUpReceipt
  | handleTransactionReceipt receipt =>
      have hhash : receipt.transactionHash = x.txid := by simpa [Transfer.about] using hj
      rw [show x.part (.job (.handleTransactionReceipt receipt)) = .handles from if_pos hhash]
      obtain ⟨a, ha⟩ := hs
      exact meets_firm (meets_handleFailed hhash (ha.failed receipt hmem hhash))
  | revertPayment txid =>
      obtain rfl : txid = x.txid := by simpa [Transfer.about] using hj
      rw [show x.part (.job (.revertPayment x.txid)) = .reverts from if_pos rfl]
      exact meets_firm (meets_revertTransfer (hrevert rfl))
  | _ => cases hj

/-- Whoever finds the hash on an invoice finds it settled. -/
theorem settled_of_hash (hs : x.Ok s) {r : Invoice} (hr : r ∈ s.invoices.rows)
    (hhash : r.hash = some x.txid) : x.At .settled s := by
  obtain ⟨a, ha⟩ := hs
  have hcolumns := congrArg InvoiceColumns.hash (columns_of_at ha hr (own_of_hash hhash))
  cases a with
  | settled => exact ha
  | _ => simp_all [invoiceColumns, Stage.invoice]

/-- What may start. -/
theorem start_cases {p : Calls} (h : x.anyOrder p (.start op)) :
    (∃ j, op = .job j ∧ j ∈ p.state.jobs ∧
      (x.about j = true → ∀ th ∈ p.threads, th.1 ≠ .job j)) ∨
    confirms op = true ∨
    (∃ payment, request op = some payment ∧ x.SubmittedBy payment) ∧
      ∀ th ∈ p.threads, request th.1 = none := by
  cases op with
  | job j => exact .inl ⟨j, rfl, h⟩
  | _ => exact .inr h

theorem meets_confirms (hplugins : env.plugins = plugins libraries) (hs : x.Ok s)
    (h : confirms op = true) :
    (program env op).Meets (contract x) Anyhow Anyhow .confirms s := by
  cases op with
  | getConfirmationForTxid txid =>
      exact meets_discard (Q := Anyhow) (meets_getConfirmationForTxid hplugins hs txid)
  | confirmTransactionsTick => exact meets_confirmTransactionsTick hplugins hs
  | confirmPaymentsCommand chain currency => exact meets_confirmPaymentsCommand hplugins hs _ _
  | _ => cases h

theorem meets_request (hplugins : env.plugins = plugins libraries) (hnamed : x.Named env)
    {payment : SubmitPaymentRequest} (hop : request op = some payment)
    (h : x.SubmittedBy payment) (ha : x.At .fresh s) :
    (program env op).Meets (contract x) Anyhow Anyhow .submits s := by
  cases op with
  | submitPayment payment' =>
      obtain rfl := Option.some.inj hop
      exact meets_discard (Q := Anyhow) (meets_submitPayment hplugins hnamed h ha)
  | jsonPaymentRequest uid currency chain transactions wallet =>
      obtain rfl := Option.some.inj hop
      exact meets_discard (Q := Anyhow) (meets_submitPayment hplugins hnamed h ha)
  | jsonV2Payment uid currency chain transactions =>
      obtain rfl := Option.some.inj hop
      refine meets_discard (Q := Anyhow) (meets_ensurePayable_bind fun t hst _ _ => ?_)
      refine meets_ensurePayable_bind fun u htu invoice huid => ?_
      have hau := at_fresh_of_rely (at_fresh_of_rely ha hst) htu
      exact meets_submitPayment hplugins hnamed
        ⟨huid.trans h.uid, h.currency, h.chain, h.transactions⟩ hau
  | _ => cases hop

/-- Every call that may start keeps to its part, and a part that has a turn is played by
one call. -/
theorem meets_start (hplugins : env.plugins = plugins libraries) (hnamed : x.Named env)
    (p : Calls) (op : Op) (hp : Running x p) (hadmits : x.inTime p (.start op)) :
    (program env op).Meets (contract x) (fun _ => Promise x) (fun _ => Fallible) (x.part op)
        p.state ∧
      ∀ a, x.relay.turn a = x.part op → x.part op ∉ Relay.parts x.part p := by
  obtain ⟨a, ha, hfirst⟩ := hp.stage
  have hok : x.Ok p.state := ⟨a, ha⟩
  have hturn : ∀ (a : Stage) {g : Part}, x.relay.turn a = g → g = .submits ∨ g = .reverts := by
    rintro a g rfl
    cases a <;> simp [Transfer.relay, Stage.turn]
  obtain ⟨hany, hlate⟩ := hadmits
  rcases start_cases hany with ⟨j, rfl, hmem, honce⟩ | hconfirms | ⟨⟨payment, hop, hby⟩, hnone⟩
  · by_cases habout : x.about j = true
    · refine ⟨meets_aboutJob habout hmem hok fun hj => ?_, fun a he => ?_⟩
      · subst hj
        obtain ⟨r, hr, hhash⟩ := hlate rfl
        exact settled_of_hash hok hr hhash
      · rcases hturn a he with hpart | hpart
        · exact absurd rfl (request_of_part hpart)
        · rw [hpart]
          refine not_mem_parts fun th hth hreverts => honce habout th hth ?_
          exact (revert_of_part hreverts).trans (revert_of_part hpart).symm
    · rw [part_of_about (Bool.eq_false_of_not_eq_true habout)]
      refine ⟨meets_loose (by simp [Fallible])
        (meets_otherJob (Bool.eq_false_of_not_eq_true habout) hok), fun a he => ?_⟩
      rcases hturn a he with he | he <;> cases he
  · rw [part_of_confirms hconfirms]
    refine ⟨meets_loose (by simp [Fallible]) (meets_confirms hplugins hok hconfirms),
      fun a he => ?_⟩
    rcases hturn a he with he | he <;> cases he
  · have hfree : Part.submits ∉ Relay.parts x.part p :=
      not_mem_parts fun th hth hpart => request_of_part hpart (hnone th hth)
    rw [part_of_request hop]
    obtain rfl := hfirst hfree
    exact ⟨meets_loose (by simp [Fallible]) (meets_request hplugins hnamed hop hby ha),
      fun _ _ => hfree⟩

theorem running_of_reaches (hplugins : env.plugins = plugins libraries) (hnamed : x.Named env)
    (hready : x.Ready w) {q : Calls}
    (h : Pool.Reaches (program env) x.inTime (Pool.init w) q) : Running x q := by
  have hfresh : x.At .fresh w := by
    refine ⟨hready.rows, fun h => absurd rfl h, fun receipt hmem hhash => ?_⟩
    have hno := hready.jobs _ hmem
    simp [Transfer.about, hhash] at hno
  exact Relay.relay_reaches (meets_start hplugins hnamed) (fun _ _ _ hm => hm.2)
    (Relay.Running.init hfresh) h

/-- Once all has run, every background call has done what it promises. -/
theorem promise_of_done {q : Calls} (hq : Running x q) (hdone : Done q) {j : Job}
    (hj : j ∈ q.state.jobs) (hfirm : ¬ Fallible (x.part (.job j)) q.state) :
    Promise x (x.part (.job j)) q.state := by
  obtain ⟨th, hth, hop⟩ := hdone.started j hj
  rw [← hop] at hfirm ⊢
  exact (hq.ended hth (hdone.ended th hth)).resolve_right hfirm

/-- Whoever looked for the receipt led to `revertPayment`. -/
theorem at_reverted_of_done {q : Calls} (hq : Running x q) (hdone : Done q) {j : Job}
    (hj : j ∈ q.state.jobs) (hwatches : x.watches j = true) : x.At .reverted q.state := by
  have hreverts : Job.revertPayment x.txid ∈ q.state.jobs → x.At .reverted q.state := by
    intro hmem
    have hpart : x.part (.job (.revertPayment x.txid)) = .reverts := if_pos rfl
    have hpromise := promise_of_done hq hdone hmem (by rw [hpart]; simp [Fallible])
    rwa [hpart] at hpromise
  have hpart : x.part (.job j) = .watches := by
    cases j with
    | onReceipt txid => exact if_pos (by simpa [Transfer.watches] using hwatches)
    | lookUpReceipt txid => exact if_pos (by simpa [Transfer.watches] using hwatches)
    | _ => cases hwatches
  have hpromise := promise_of_done hq hdone hj (by rw [hpart]; simp [Fallible])
  rw [hpart] at hpromise
  rcases hpromise with hmem | ⟨receipt, hhash, hmem⟩
  · exact hreverts hmem
  · have hpart : x.part (.job (.handleTransactionReceipt receipt)) = .handles := if_pos hhash
    have hpromise := promise_of_done hq hdone hmem (by rw [hpart]; simp [Fallible])
    rw [hpart] at hpromise
    exact hreverts hpromise

theorem status_of_at {a : Stage} (ha : x.At a w) {r : Invoice} (hr : r ∈ w.invoices.rows)
    (huid : r.uid = x.uid) : r.status = (a.invoice x).status :=
  congrArg InvoiceColumns.status (columns_of_at ha hr (own_of_uid huid))

end Runs

/-! ## Taken back, and not -/

/-- A server that reads every transaction as one that pays five to a shop. -/
def reading : ChainLibraries where
  parseTransaction := fun _ => some
    { to_ := some "0xshop", value := 5, chainId := 1, hash := some "0xhash" }

def server : Env := { plugins := plugins reading }

/-- An unpaid invoice of five. -/
def asking : World where
  invoices := .single { id := 1, uid := "inv", status := .unpaid }
  paymentOptions := .single
    { id := 1, invoice_uid := "inv", currency := "ETH", chain := "ETH",
      outputs := some [{ address := "0xshop", amount := some 5 }] }

def five : Transfer where
  uid := "inv"
  currency := "ETH"
  chain := "ETH"
  transaction := { txhex := "0x02" }
  txid := "0xhash"

theorem five_named : five.Named server where
  hash h := absurd h (by decide)
  stored := by
    rintro ⟨⟩ txid rfl rfl h
    obtain ⟨plugin, c, rest, hfind, hparsed⟩ := h
    obtain rfl := Except.ok.inj hfind
    exact (List.cons.inj (Except.ok.inj hparsed)).1.symm

theorem five_ready : five.Ready asking where
  rows := rfl
  jobs _ hj := (List.not_mem_nil hj).elim

/-- The node takes the transaction. Its receipt says that it failed, in this block or in
none. -/
def failing (blockHash : Option String) : Answer where
  broadcast := .ok { txid := some "0xhash" }
  receipt := fun txid =>
    if txid = "0xhash" then some { status := false, transactionHash := txid, blockHash } else none

theorem failing_fails (blockHash : Option String) : five.Fails (failing blockHash) where
  own txid receipt h := by
    simp only [failing] at h
    split at h
    · exact (Option.some.inj h) ▸ rfl
    · cases h
  failed receipt h := (Option.some.inj h) ▸ rfl
  sent result h := (Except.ok.inj h) ▸ rfl

theorem failing_sees (g : Part) : five.Sees g (failing none) where
  fails := failing_fails none
  there _ h := by cases h
  blockless _ receipt h := (Option.some.inj h) ▸ rfl

def submission : SubmitPaymentRequest where
  currency := "ETH"
  invoice_uid := "inv"
  transactions := [five.transaction]

/-- Which of the background calls of these runs it is. -/
def label : Job → Option (Nat × String × String)
  | .onReceipt txid => some (0, txid, "")
  | .revertPayment txid => some (1, txid, "")
  | .sendWebhookForInvoice uid type => some (2, uid, type)
  | _ => none

def opLabel : Op → Option (Nat × String × String)
  | .job j => label j
  | _ => none

theorem eq_of_label {j k : Job} (h : label j = label k) (hsome : (label j).isSome = true) :
    j = k := by
  cases j <;> cases k <;> simp_all [label]

theorem eq_of_opLabel {op : Op} {k : Job} (h : opLabel op = label k)
    (hsome : (label k).isSome = true) : op = .job k := by
  cases op with
  | job j =>
      have hsame : label k = label j := h.symm
      exact congrArg Op.job (eq_of_label hsame hsome).symm
  | _ =>
      rw [← h] at hsome
      cases hsome

/-- A submission to an empty pool, a look at the chain, or a background call that is
there, was not started and finds the hash where it has to. -/
def starts (p : Calls) : Move Answer Op → Bool
  | .start (.job j) => (label j).isSome && (p.state.jobs.any fun k => label k == label j) &&
      (p.threads.all fun th => opLabel th.1 != label j) &&
      ((label j != some (1, "0xhash", "")) ||
        p.state.invoices.rows.any fun r => r.hash == some "0xhash")
  | .start (.submitPayment _) => p.threads.isEmpty
  | .start op => confirms op
  | .run _ _ => true

theorem job_of_starts {p : Calls} {j : Job} (h : starts p (.start (.job j)) = true) :
    five.inTime p (.start (.job j)) := by
  simp only [starts, Bool.and_eq_true, Bool.or_eq_true, List.any_eq_true, List.all_eq_true,
    beq_iff_eq, bne_iff_ne] at h
  obtain ⟨⟨⟨hsome, k, hk, hlabel⟩, hnone⟩, hhash⟩ := h
  obtain rfl := eq_of_label hlabel (hlabel ▸ hsome)
  refine ⟨⟨hk, fun _ th hth hop => hnone th hth (hop ▸ rfl)⟩, ?_⟩
  cases k with
  | revertPayment txid =>
      rintro rfl
      exact hhash.resolve_left fun h => h rfl
  | _ => exact trivial

/-- The submission of five, to be admitted where nothing has started. -/
theorem submission_admitted {p : Calls} (h : p.threads.isEmpty = true) :
    five.inTime p (.start (.submitPayment submission)) := by
  refine ⟨.inr ⟨⟨submission, rfl, ⟨rfl, rfl, rfl, rfl⟩⟩, fun th hth => ?_⟩, trivial⟩
  rw [List.isEmpty_iff.mp h] at hth
  exact (List.not_mem_nil hth).elim

/-- The invoice is settled before anybody looks, and then the failed transaction's block
confirms it. -/
def paying : List (Move Answer Op) :=
  .start (.submitPayment submission) :: Pool.steps 0 8 (failing none) ++
    .start (.getConfirmationForTxid "0xhash") :: Pool.steps 1 6 (failing (some "0xblock"))

/-- A transaction that failed can pay its invoice: nobody who looks for its block reads
the status of the receipt. -/
theorem failed_paid : ¬ ∀ (libraries : ChainLibraries) (env : Env) (x : Transfer) (w : World)
    (q : Calls), env.plugins = plugins libraries → x.Named env → x.Ready w →
    Pool.Reaches (program env) x.anyOrder (Pool.init w) q →
    ∀ r ∈ q.state.invoices.rows, r.uid = x.uid → r.status ≠ .paid := by
  intro h
  have hadm : Pool.Admitted (program server) five.anyOrder paying (Pool.init asking) := by
    refine Pool.admitted_of_tested starts (fun m hm p hp => ?_) (by decide +kernel)
    simp only [paying, Pool.steps, List.cons_append, List.mem_cons, List.mem_append,
      List.mem_replicate] at hm
    rcases hm with rfl | ⟨-, rfl⟩ | rfl | ⟨-, rfl⟩
    · exact (submission_admitted hp).1
    · exact failing_fails none
    · exact .inl rfl
    · exact failing_fails (some "0xblock")
  obtain ⟨q, hreach, hpaid⟩ := Pool.exists_reaches
    (fun p => p.state.invoices.rows.map (fun r => (r.uid, r.status)) == [("inv", .paid)]) hadm
    (by decide +kernel)
  obtain ⟨r, hr, hrow⟩ := List.map_eq_singleton_iff.mp (beq_iff_eq.mp hpaid)
  have hmem : r ∈ q.state.invoices.rows := by simp [hr]
  exact h reading server five asking q rfl five_named five_ready hreach r hmem
    (Prod.mk.inj hrow).1 (Prod.mk.inj hrow).2

/-- The receipt is looked for while the payment is being inserted, and the cron runs in
between. -/
def inOrder : List (Move Answer Op) :=
  .start (.submitPayment submission) :: Pool.steps 0 4 (failing none) ++
    .start (.job (.onReceipt "0xhash")) :: Pool.steps 1 2 (failing none) ++
    .start .confirmTransactionsTick :: Pool.steps 0 7 (failing none) ++
    .start (.job (.revertPayment "0xhash")) :: Pool.steps 2 2 (failing none) ++
    Pool.steps 3 6 (failing none) ++
    .start (.job (.sendWebhookForInvoice "inv" "api_on_complete_payment")) ::
      Pool.steps 4 3 (failing none)

def doneTest (p : Calls) : Bool :=
  (p.threads.all fun th => !th.2.running) &&
    p.state.jobs.all fun j => (label j).isSome && p.threads.any fun th => opLabel th.1 == label j

example : doneTest (Pool.init asking) = true := by decide +kernel

theorem done_of_test {p : Calls} (h : doneTest p = true) : Done p := by
  simp only [doneTest, Bool.and_eq_true, List.all_eq_true, List.any_eq_true, Bool.not_eq_true',
    beq_iff_eq] at h
  refine ⟨h.1, fun j hj => ?_⟩
  obtain ⟨hsome, th, hth, hlabel⟩ := h.2 j hj
  exact ⟨th, hth, eq_of_opLabel hlabel hsome⟩

end Anypay.Receipts
