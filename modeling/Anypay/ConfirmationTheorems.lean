/-
Anypay.ConfirmationTheorems — which answers of a provider the chains that are
not EVM chains read rightly.

`Observed` is an answer of any of them. To read it rightly is to return the
block the transaction went through in, or nothing (`ReadRightly`); and then the
cron never confirms a payment, or its invoice, for a transaction that is not in
a block or failed (`NeverUnearned`). Each family has answers it misreads, and
`Observed.Faithful` names the others.

The cron needs one invariant, `Unmoved`: it writes one payment, and the invoice
of that payment, at a time, so a payment it finds no block for stays as it was.
-/
import Anypay.Chains.Confirmation
import Anypay.LedgerTheorems
import Anypay.Confirmations

namespace Anypay

open Store Async Proc

namespace Confirmation

/-! ## The answers -/

/-- What the provider of a plugin answers to the requests of one
`getConfirmation`; none is a request that failed. -/
inductive Observed where
  /-- BCH, DASH, LTC, DOGE. -/
  | utxo (tx : Option RawTransaction) (height : Option Nat)
  | bsv (tx : Option TransactionJSON)
  | btc (response : Option MempoolStatus)
  /-- FB; `own` is where the transaction stands on Fractal Bitcoin. -/
  | fb (response : Option MempoolStatus) (own : TxStatus)
  | sol (response : Option (Option SignatureStatus × Nat)) (block : Option SolanaBlock)
  | xrp (tx : Option XrpTx) (ledger : Option XrpLedger) (latest : Option Nat)
  | xmr (tx : Option Txn) (hash : Option String) (count : Option Nat)

namespace Observed

def getConfirmation : Observed → Except Failure (Option ReadConfirmation)
  | utxo tx height => UTXOPlugin.getConfirmation tx height
  | bsv tx => BSV.getConfirmation tx
  | btc response => BTC.getConfirmation response
  | fb response _ => FB.getConfirmation response
  | sol response block => SolanaPlugin.getConfirmation response block
  | xrp tx ledger latest => XRP.getConfirmation tx ledger latest
  | xmr tx hash count => XMR.getConfirmation tx hash count

/-- Where the transaction stands on the plugin's own chain. -/
def status : Observed → TxStatus
  | utxo (some tx) (some height) => tx.status height
  | bsv (some tx) => tx.status
  | btc (some response) => response.status
  | fb _ own => own
  | sol (some (some value, _)) (some block) => value.status block
  | xrp (some tx) (some ledger) _ => tx.status ledger
  | xmr (some tx) hash _ => tx.status hash
  | _ => .unknown

/-- What the cron gets to see. A date that is invalid would be refused by the
update of the payment. -/
def stored (obs : Observed) : Except Failure (Option Confirmation) :=
  match obs.getConfirmation with
  | .error e => .error e
  | .ok none => .ok none
  | .ok (some c) =>
      match c.stored with
      | some confirmation => .ok (some confirmation)
      | none => .error (.error "Provided Date object is invalid")

/-- The answers that are read rightly. -/
def Faithful : Observed → Prop
  | utxo tx height => ∀ t ∈ tx, t.block ≠ none → height ≠ none → 0 < t.confirmations
  | bsv tx => ∀ t ∈ tx, t.block ≠ none ∧ 0 < t.confirmations.getD 0
  | btc _ => True
  | fb response own =>
      ∀ r ∈ response, ∀ b ∈ r.block,
        own = .validated { hash := b.1, height := b.2.1, time := some b.2.2 }
  | sol response block =>
      ∀ r ∈ response, ∀ v ∈ r.1, v.slot ≠ 0 → ∀ b ∈ block,
        v.err = false ∧ b.blockTime ≠ none
  -- a close time counts from 2000, so no date is ever right
  | xrp tx ledger latest => tx = none ∨ ledger = none ∨ latest = none
  | xmr _ _ _ => True

end Observed

/-! ## Reading rightly -/

/-- What is returned is the block the transaction went through in. -/
def ReadRightly (obs : Observed) : Prop :=
  ∀ c, obs.getConfirmation = .ok (some c) →
    ∃ block, obs.status = .validated block ∧ c.IsOf block

variable {obs : Observed}

/-- Where nothing is returned, nothing is misread. -/
theorem readRightly_of_nothing
    (h : obs.getConfirmation = .ok none ∨ ∃ e, obs.getConfirmation = .error e) :
    ReadRightly obs := by
  intro c hc
  rcases h with h | ⟨e, h⟩
  · rw [h] at hc
    cases hc
  · rw [h] at hc
    cases hc

theorem readRightly_iff {c : ReadConfirmation} (h : obs.getConfirmation = .ok (some c)) :
    ReadRightly obs ↔ ∃ block, obs.status = .validated block ∧ c.IsOf block := by
  constructor
  · intro hread
    exact hread c h
  · intro hblock c' hc'
    rw [h] at hc'
    cases hc'
    exact hblock

theorem utxo_readRightly (tx : Option RawTransaction) (height : Option Nat) :
    ReadRightly (.utxo tx height) ↔ (Observed.utxo tx height).Faithful := by
  rcases tx with _ | ⟨_ | ⟨hash, time⟩, confirmations⟩
  · exact iff_of_true (readRightly_of_nothing (.inr ⟨_, rfl⟩)) (by simp [Observed.Faithful])
  · exact iff_of_true (readRightly_of_nothing (.inl rfl)) (by simp [Observed.Faithful])
  cases height with
  | none =>
      exact iff_of_true (readRightly_of_nothing (.inr ⟨_, rfl⟩)) (by simp [Observed.Faithful])
  | some height =>
      rw [readRightly_iff rfl]
      simp only [Observed.status, RawTransaction.status, Observed.Faithful]
      by_cases hpos : 0 < confirmations
      · simp only [hpos, if_true]
        exact iff_of_true ⟨_, rfl, rfl, rfl, time, rfl, rfl⟩ (by simpa using hpos)
      · simp [hpos]

theorem bsv_readRightly (tx : Option TransactionJSON) :
    ReadRightly (.bsv tx) ↔ (Observed.bsv tx).Faithful := by
  rcases tx with _ | ⟨_ | ⟨hash, height, time⟩, confirmations⟩
  · exact iff_of_true (readRightly_of_nothing (.inr ⟨_, rfl⟩)) (by simp [Observed.Faithful])
  · rw [readRightly_iff rfl]
    simp [Observed.status, TransactionJSON.status, Observed.Faithful]
  · rw [readRightly_iff rfl]
    simp only [Observed.status, TransactionJSON.status, Observed.Faithful]
    by_cases hpos : 0 < confirmations.getD 0
    · simp only [hpos, if_true]
      exact iff_of_true ⟨_, rfl, rfl, rfl, time, rfl, rfl⟩ (by simpa using hpos)
    · simp [hpos]

/-- mempool.space follows the chain of Bitcoin. -/
theorem btc_readRightly (response : Option MempoolStatus) : ReadRightly (.btc response) := by
  rcases response with _ | ⟨_ | ⟨hash, height, time⟩⟩
  · exact readRightly_of_nothing (.inl rfl)
  · exact readRightly_of_nothing (.inl rfl)
  · rw [readRightly_iff rfl]
    exact ⟨_, rfl, rfl, rfl, time, rfl, rfl⟩

/-- A date tells the second it stands for. -/
theorem dateOf_inj {a b : Nat} (h : dateOf a = dateOf b) : a = b := by
  have hmul : a * 1000 = b * 1000 := h
  omega

theorem fb_readRightly (response : Option MempoolStatus) (own : TxStatus) :
    ReadRightly (.fb response own) ↔ (Observed.fb response own).Faithful := by
  rcases response with _ | ⟨_ | ⟨hash, height, time⟩⟩
  · exact iff_of_true (readRightly_of_nothing (.inl rfl)) (by simp [Observed.Faithful])
  · exact iff_of_true (readRightly_of_nothing (.inl rfl)) (by simp [Observed.Faithful])
  rw [readRightly_iff rfl]
  simp only [Observed.status, Observed.Faithful, Option.mem_def, Option.some.injEq, forall_eq']
  constructor
  · rintro ⟨⟨hash', height', time'⟩, rfl, hc⟩
    obtain ⟨time₁, rfl, hdate⟩ : ∃ t, time' = some t ∧ some (dateOf time) = some (dateOf t) :=
      hc.date
    have hhash : some hash = some hash' := hc.hash
    have hheight : some height = some height' := hc.height
    rw [Option.some.inj hhash, Option.some.inj hheight, dateOf_inj (Option.some.inj hdate)]
  · intro hown
    exact ⟨_, hown, rfl, rfl, time, rfl, rfl⟩

theorem sol_readRightly (response : Option (Option SignatureStatus × Nat))
    (block : Option SolanaBlock) :
    ReadRightly (.sol response block) ↔ (Observed.sol response block).Faithful := by
  rcases response with _ | ⟨_ | ⟨slot, err⟩, contextSlot⟩
  · exact iff_of_true (readRightly_of_nothing (.inr ⟨_, rfl⟩)) (by simp [Observed.Faithful])
  · exact iff_of_true (readRightly_of_nothing (.inl rfl)) (by simp [Observed.Faithful])
  by_cases hslot : slot = 0
  · subst hslot
    exact iff_of_true (readRightly_of_nothing (.inl rfl)) (by simp [Observed.Faithful])
  rcases block with _ | ⟨blockhash, blockTime⟩
  · have hnone : (Observed.sol (some (some ⟨slot, err⟩, contextSlot)) none).getConfirmation =
        .ok none := if_neg hslot
    exact iff_of_true (readRightly_of_nothing (.inl hnone)) (by simp [Observed.Faithful])
  have hsome : (Observed.sol (some (some ⟨slot, err⟩, contextSlot))
      (some ⟨blockhash, blockTime⟩)).getConfirmation = .ok (some _) := if_neg hslot
  rw [readRightly_iff hsome]
  simp only [Observed.status, SignatureStatus.status, Observed.Faithful, Option.mem_def,
    Option.some.injEq, forall_eq', ne_eq, hslot, not_false_eq_true, true_implies]
  cases err with
  | true => simp
  | false =>
      cases blockTime with
      | none =>
          refine iff_of_false ?_ (by simp)
          rintro ⟨block, hblock, hc⟩
          cases hblock
          obtain ⟨time, htime, -⟩ := hc.date
          cases htime
      | some time => exact iff_of_true ⟨_, rfl, rfl, rfl, time, rfl, rfl⟩ (by simp)

/-- The date of a ledger is thirty years off. -/
theorem xrp_readRightly (tx : Option XrpTx) (ledger : Option XrpLedger)
    (latest : Option Nat) :
    ReadRightly (.xrp tx ledger latest) ↔ (Observed.xrp tx ledger latest).Faithful := by
  rcases tx with _ | tx
  · exact iff_of_true (readRightly_of_nothing (.inr ⟨_, rfl⟩)) (.inl rfl)
  rcases ledger with _ | ledger
  · exact iff_of_true (readRightly_of_nothing (.inr ⟨_, rfl⟩)) (.inr (.inl rfl))
  rcases latest with _ | latest
  · exact iff_of_true (readRightly_of_nothing (.inr ⟨_, rfl⟩)) (.inr (.inr rfl))
  rw [readRightly_iff rfl]
  refine iff_of_false ?_ (by simp [Observed.Faithful])
  rintro ⟨block, hstatus, hc⟩
  obtain ⟨time, htime, hdate⟩ := hc.date
  have hblock : block = ledger.block := by
    simp only [Observed.status, XrpTx.status] at hstatus
    split at hstatus
    · cases hstatus
    · split at hstatus
      · cases hstatus
        rfl
      · cases hstatus
  subst hblock
  have hclose := dateOf_inj (Option.some.inj hdate)
  have hlater : ledger.close_time + rippleEpoch = time := Option.some.inj htime
  unfold rippleEpoch at hlater
  omega

theorem xmr_readRightly (tx : Option Txn) (hash : Option String) (count : Option Nat) :
    ReadRightly (.xmr tx hash count) := by
  rcases tx with _ | ⟨_ | ⟨height, time⟩⟩
  · exact readRightly_of_nothing (.inr ⟨_, rfl⟩)
  · exact readRightly_of_nothing (.inl rfl)
  by_cases hheight : height = 0
  · exact readRightly_of_nothing (.inl (if_pos hheight))
  rcases hash with _ | hash
  · exact readRightly_of_nothing (.inl (if_neg hheight))
  rcases count with _ | count
  · exact readRightly_of_nothing (.inr ⟨_, if_neg hheight⟩)
  · have hsome : (Observed.xmr (some ⟨some (height, time)⟩) (some hash)
        (some count)).getConfirmation = .ok (some _) := if_neg hheight
    rw [readRightly_iff hsome]
    exact ⟨_, rfl, rfl, rfl, time, rfl, rfl⟩

theorem readRightly_iff_faithful (obs : Observed) : ReadRightly obs ↔ obs.Faithful := by
  cases obs with
  | utxo tx height => exact utxo_readRightly tx height
  | bsv tx => exact bsv_readRightly tx
  | btc response => exact iff_of_true (btc_readRightly response) trivial
  | fb response own => exact fb_readRightly response own
  | sol response block => exact sol_readRightly response block
  | xrp tx ledger latest => exact xrp_readRightly tx ledger latest
  | xmr tx hash count => exact iff_of_true (xmr_readRightly tx hash count) trivial

/-! ## The cron -/

/-- Since `w` the payment has not been confirmed, and neither has its invoice,
unless by another of its payments. -/
structure Unmoved (payment : Payment) (w t : World) : Prop where
  row : ∀ r ∈ t.payments.rows, r.id = payment.id → r.status ≠ .confirmed
  owner : ∀ r ∈ t.payments.rows, r.id = payment.id → r.invoice_uid = payment.invoice_uid
  invoice : ∀ i ∈ t.invoices.rows, i.uid = payment.invoice_uid → i.status = .paid →
    (∃ i₀ ∈ w.invoices.rows, i₀.id = i.id ∧ i₀.status = .paid) ∨
    ∃ other ∈ t.payments.rows, other.id ≠ payment.id ∧
      other.invoice_uid = payment.invoice_uid ∧ other.status = .confirmed

theorem Unmoved.of_ledger {payment : Payment} {w t u : World} (h : Unmoved payment w t)
    (htu : u.ledger = t.ledger) : Unmoved payment w u := by
  simp only [World.ledger, Prod.mk.injEq] at htu
  obtain ⟨hinv, hpay, -⟩ := htu
  exact ⟨hpay ▸ h.row, hpay ▸ h.owner, by rw [hinv, hpay]; exact h.invoice⟩

/-- Confirming another payment. -/
theorem Unmoved.confirm {payment : Payment} {w t : World} (h : Unmoved payment w t)
    {i : Nat} (hi : i ≠ payment.id) {f : Payment → Payment}
    (hf : ∀ r, (f r).id = r.id ∧ (f r).invoice_uid = r.invoice_uid ∧ (f r).status = .confirmed)
    {tb : Table Payment} (hrows : tb.rows = Table.patch i f t.payments.rows) :
    Unmoved payment w { t with payments := tb } := by
  have hother : ∀ r ∈ tb.rows, r.id = payment.id → r ∈ t.payments.rows := by
    intro r hr hid
    rw [hrows, Table.patch, List.mem_map] at hr
    obtain ⟨r₀, hr₀, rfl⟩ := hr
    split at hid
    · rename_i heq
      exact absurd (heq.symm.trans ((hf r₀).1.symm.trans hid)) hi
    · rename_i hne
      rwa [if_neg hne]
  refine ⟨fun r hr hid => h.row r (hother r hr hid) hid,
    fun r hr hid => h.owner r (hother r hr hid) hid, fun x hx huid hpaid => ?_⟩
  rcases h.invoice x hx huid hpaid with hbefore | ⟨other, ho, hid, howner, hconf⟩
  · exact .inl hbefore
  · have hmem : (if Record.id other = i then f other else other) ∈ tb.rows := by
      rw [hrows]
      exact List.mem_map_of_mem ho
    refine .inr ⟨_, hmem, ?_⟩
    split
    · exact ⟨fun hc => hid ((hf other).1.symm.trans hc), (hf other).2.1.trans howner,
        (hf other).2.2⟩
    · exact ⟨hid, howner, hconf⟩

/-- The invoice of another, confirmed payment is paid. -/
theorem Unmoved.pay {payment other : Payment} {w t : World} (h : Unmoved payment w t)
    (hother : other ∈ t.payments.rows) (hid : other.id ≠ payment.id)
    (hconf : other.status = .confirmed) {x : Invoice} (hx : x ∈ t.invoices.rows)
    (huid : x.uid = other.invoice_uid) {tb : Table Invoice}
    (hrows : tb.rows =
      Table.patch x.id (fun r => { r with status := .paid }) t.invoices.rows) :
    Unmoved payment w { t with invoices := tb } := by
  refine ⟨h.row, h.owner, fun i hi hiuid hpaid => ?_⟩
  change i ∈ tb.rows at hi
  rw [hrows, Table.patch, List.mem_map] at hi
  obtain ⟨i₀, hi₀, rfl⟩ := hi
  split at hpaid
  · rename_i heq
    obtain rfl := Table.eq_of_id hi₀ hx heq
    rw [if_pos heq] at hiuid
    exact .inr ⟨other, hother, hid, huid.symm.trans hiuid, hconf⟩
  · rename_i hne
    rw [if_neg hne] at hiuid ⊢
    exact h.invoice i₀ hi₀ hiuid hpaid

variable {A : Answer → Prop} {payment : Payment} {w s : World}

theorem wp_confirmPayment_other {x : Payment} {confirmation : Confirmation}
    (hid : x.id ≠ payment.id) (hs : Unmoved payment w s) :
    (confirmPayment x confirmation).wp A (fun _ => Unmoved payment w)
      (fun _ => Unmoved payment w) s := by
  unfold confirmPayment
  split
  · exact hs
  simp only [bind_eq, pure_eq, wp_bind]
  refine Delegate.wp_update (fun now tb r _ _ hrows _ => ?_) fun _ _ _ => hs
  have hconfirmed : Unmoved payment w { s with payments := tb } := by
    refine hs.confirm hid ?_ hrows
    exact fun _ => ⟨rfl, rfl, rfl⟩
  refine Delegate.wp_findFirstOrThrow (fun p hp hpid => ?_) fun _ => hconfirmed
  have hpx : p.id = x.id := by simpa using hpid
  have hstatus : p.status = .confirmed := by
    have hmem : p ∈ tb.rows := hp
    rw [hrows, Table.patch, List.mem_map] at hmem
    obtain ⟨r₀, -, rfl⟩ := hmem
    split at hpx
    · rename_i heq
      rw [if_pos heq]
    · rename_i hne
      exact absurd hpx hne
  refine Delegate.wp_findFirstOrThrow (fun invoice hinv huid => ?_) fun _ => hconfirmed
  refine Delegate.wp_update (fun now' tb' r' _ _ hrows' _ => ?_) fun _ _ _ => hconfirmed
  have hpaid := hconfirmed.pay hp (hpx ▸ hid) hstatus hinv (by simpa using huid) hrows'
  refine wp_publish ?_
  refine wp_of_keeps (keeps_createAndSendWebhook_ledger _ _) (fun _ t ht => ?_) fun _ t ht => ?_
  · exact hpaid.of_ledger ht
  · exact hpaid.of_ledger ht

/-- One payment of the tick: the one in question, for which no block is found,
or another. -/
theorem wp_confirmIfFound {env : Env} {plugin : Plugin} {x : Payment}
    (hfind : find env payment.currency (nullText payment.chain) = .ok plugin)
    (hnone : ∀ c, A c → ∀ confirmation,
      plugin.getConfirmation payment.txid c ≠ .ok (some confirmation))
    (hx : x.id = payment.id → x = payment) (hs : Unmoved payment w s) :
    (confirmIfFound x (getConfirmation env x.txid (nullText x.chain) x.currency)).wp A
      (fun _ => Unmoved payment w) (fun _ => Unmoved payment w) s := by
  unfold confirmIfFound getConfirmation
  simp only [bind_eq, pure_eq, detached, wp_tryCatch, wp_bind]
  refine wp_ofExcept (fun plugin' hfind' => ?_) fun _ _ => hs
  refine wp_ask (fun c hc found hfound => ?_) fun _ => hs
  cases found with
  | none => exact hs
  | some confirmation =>
      have hid : x.id ≠ payment.id := by
        intro hid
        obtain rfl := hx hid
        obtain rfl := Except.ok.inj (hfind.symm.trans hfind')
        exact hnone c hc confirmation hfound
      rw [wp_bind]
      exact wp_mono (fun _ _ h => h) (fun _ _ h => h) (wp_confirmPayment_other hid hs)

/-- A tick that finds no block for a payment does not confirm it. -/
theorem wp_confirmTransactionsTick {env : Env} {plugin : Plugin}
    (hmem : payment ∈ w.payments.rows)
    (hfind : find env payment.currency (nullText payment.chain) = .ok plugin)
    (hnone : ∀ c, A c → ∀ confirmation,
      plugin.getConfirmation payment.txid c ≠ .ok (some confirmation))
    (hstatus : payment.status ≠ .confirmed) :
    (confirmTransactionsTick env).wp A (fun _ => Unmoved payment w)
      (fun _ => Unmoved payment w) w := by
  have hstart : Unmoved payment w w := by
    have heq : ∀ r ∈ w.payments.rows, r.id = payment.id → r = payment :=
      fun r hr hid => Table.eq_of_id hr hmem hid
    exact ⟨fun r hr hid => heq r hr hid ▸ hstatus, fun r hr hid => heq r hr hid ▸ rfl,
      fun i hi _ hpaid => .inl ⟨i, hi, rfl, hpaid⟩⟩
  unfold confirmTransactionsTick
  simp only [bind_eq, wp_bind]
  refine wp_query (fun c _ unconfirmed h => ?_) fun _ _ h => by cases h
  obtain rfl := Except.ok.inj h
  refine wp_forEach (fun x hx t ht => ?_) hstart
  refine wp_confirmIfFound hfind hnone (fun hid => ?_) ht
  rw [recentlyConfirming, List.mem_insertionSort, Table.mem_select] at hx
  exact Table.eq_of_id hx.1 hmem hid

/-- A payment whose transaction is not in a block of the chain, or failed, is
not confirmed by the cron, and its invoice not paid on its account. -/
def NeverUnearned (obs : Observed) : Prop :=
  ∀ (env : Env) (plugin : Plugin) (payment : Payment) (w : World) (o : Nat → Answer),
    payment ∈ w.payments.rows → payment.status ≠ .confirmed →
    find env payment.currency (nullText payment.chain) = .ok plugin →
    (∀ n, plugin.getConfirmation payment.txid (o n) = obs.stored) →
    (∀ block, obs.status ≠ .validated block) →
    Unmoved payment w ((confirmTransactionsTick env).exec o w).2

theorem ReadRightly.neverUnearned (h : ReadRightly obs) : NeverUnearned obs := by
  intro env plugin payment w o hmem hstatus hfind hanswer hunearned
  have hnothing : ∀ confirmation, obs.stored ≠ .ok (some confirmation) := by
    intro confirmation hstored
    unfold Observed.stored at hstored
    cases hread : obs.getConfirmation with
    | error e => simp [hread] at hstored
    | ok found =>
        cases found with
        | none => simp [hread] at hstored
        | some c =>
            obtain ⟨block, hblock, -⟩ := h c hread
            exact hunearned block hblock
  have hnone : ∀ c, plugin.getConfirmation payment.txid c = obs.stored → ∀ confirmation,
      plugin.getConfirmation payment.txid c ≠ .ok (some confirmation) := by
    intro c hc confirmation
    rw [hc]
    exact hnothing confirmation
  exact wp_exec_state (wp_confirmTransactionsTick hmem hfind hnone hstatus) hanswer

/-- What is returned is right, so what is recorded is, exactly where the answer
is one the plugin reads. -/
theorem confirmed_iff (obs : Observed) :
    (ReadRightly obs ∧ NeverUnearned obs) ↔ obs.Faithful := by
  rw [← readRightly_iff_faithful]
  constructor
  · exact fun h => h.1
  · exact fun h => ⟨h, h.neverUnearned⟩

/-! ## A failed transfer, a mempool, an orphan -/

/-- A transfer that failed, in a finalized block. -/
def failedTransfer : Observed :=
  .sol (some (some { slot := 250000000, err := true }, 250000031))
    (some { blockhash := "b", blockTime := some 1700000000 })

def solana : Plugin where
  currency := "SOL"
  chain := "SOL"
  decimals := 9
  getConfirmation := fun _ _ => failedTransfer.stored

/-- The payment that waits for its block. -/
def awaited : Payment where
  id := 1
  invoice_uid := "i"
  txid := "t"
  currency := "SOL"
  chain := some "SOL"
  status := .confirming

def awaiting : World where
  invoices := .single { id := 1, uid := "i", status := .confirming, hash := some "t" }
  payments := .single awaited

theorem failed_confirmed :
    failedTransfer.status =
      .failed { hash := "b", height := 250000000, time := some 1700000000 } ∧
    ¬ ReadRightly failedTransfer ∧ ¬ NeverUnearned failedTransfer ∧
    ¬ ReadRightly (.bsv (some { block := none })) ∧
    ¬ ReadRightly
      (.utxo (some { block := some ("b", 1700000000), confirmations := -1 }) (some 9)) := by
  refine ⟨rfl, ?_, fun h => ?_, ?_, ?_⟩
  · simp [readRightly_iff_faithful, failedTransfer, Observed.Faithful]
  · have hrow : (((confirmTransactionsTick { plugins := [("SOL", solana)] }).exec
        (fun _ => {}) awaiting).2.payments.rows.map fun r => (r.id, r.status)) =
        [(1, .confirmed)] := by
      decide +kernel
    have hunmoved := h { plugins := [("SOL", solana)] } solana awaited awaiting (fun _ => {})
      (List.mem_singleton_self _) nofun rfl (fun _ => rfl) nofun
    have hmem : ((1, .confirmed) : Nat × PaymentStatus) ∈
        (((confirmTransactionsTick { plugins := [("SOL", solana)] }).exec
          (fun _ => {}) awaiting).2.payments.rows.map fun r => (r.id, r.status)) := by
      rw [hrow]
      exact List.mem_singleton_self _
    obtain ⟨r, hr, heq⟩ := List.mem_map.mp hmem
    obtain ⟨hid, hstatus⟩ := Prod.mk.inj heq
    exact hunmoved.row r hr hid hstatus
  · simp [readRightly_iff_faithful, Observed.Faithful]
  · simp [readRightly_iff_faithful, Observed.Faithful]

end Confirmation

end Anypay
