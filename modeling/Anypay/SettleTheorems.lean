/-
Anypay.SettleTheorems — what paying writes, run alone.

`PayTheorems` is about payments among other calls; here one runs by itself, and
what it leaves behind is said exactly. `Recorded` is a payment that went
through: one new payment row, and one invoice row settled under the payment's
txid. `Stuck` is one that threw half way: the invoices as they were, and perhaps
the payment row all the same, since nothing takes it back.

One rule for each function, from `paymentTxid` up to `submitTransaction`
(`wp_…`); `wp_submitPayment` is the loop.
-/
import Anypay.PayTheorems

namespace Anypay

open Store Async Proc

/-! ## Outcomes -/

/-- A payment of the option went through. -/
structure Recorded (option : PaymentOption) (transaction : Transaction) (s t : World)
    (p : Payment) : Prop where
  payments : t.payments.rows = s.payments.rows ++ [p]
  id : p.id = s.payments.next
  invoice_uid : p.invoice_uid = option.invoice_uid
  txhex : p.txhex = some transaction.txhex
  status : p.status = .confirming
  /-- One row of the invoice is settled, under a hash no other row has. -/
  invoice : ∃ r ∈ s.invoices.rows, r.uid = option.invoice_uid ∧
    ∃ (f : Invoice → Invoice) (status : InvoiceStatus),
      (∀ x, Settled p.txid status x (f x)) ∧ s.invoices.taken (f r) = false ∧
      t.invoices.rows = Table.patch r.id f s.invoices.rows
  options : t.paymentOptions = s.paymentOptions

/-- A payment of the option threw. -/
structure Stuck (option : PaymentOption) (s t : World) : Prop where
  invoices : t.invoices = s.invoices
  payments : t.payments = s.payments ∨ ∃ p, t.payments.rows = s.payments.rows ++ [p] ∧
    p.invoice_uid = option.invoice_uid ∧ p.status = .confirming
  options : t.paymentOptions = s.paymentOptions

/-- The invoice of the option has this status now, and the payment's txid. -/
def SettledTo (status : InvoiceStatus) (option : PaymentOption) (s t : World) (p : Payment) :
    Prop :=
  ∃ r ∈ s.invoices.rows, r.uid = option.invoice_uid ∧ ∃ f : Invoice → Invoice,
    (∀ x, Settled p.txid status x (f x)) ∧
    t.invoices.rows = Table.patch r.id f s.invoices.rows

theorem Stuck.refl (option : PaymentOption) (s : World) : Stuck option s s :=
  ⟨rfl, .inl rfl, rfl⟩

theorem Recorded.grows {option : PaymentOption} {transaction : Transaction} {s t : World}
    {p : Payment} (h : Recorded option transaction s t p) : Grows s t := by
  obtain ⟨r, -, -, f, status, hf, -, hrows⟩ := h.invoice
  have hinvoices : Grows s { t with payments := s.payments } :=
    .of_invoices hrows rfl fun x => ⟨(hf x).id, (hf x).uid⟩
  exact hinvoices.trans (.of_create rfl h.payments)

theorem Stuck.grows {option : PaymentOption} {s t : World} (h : Stuck option s t) :
    Grows s t := by
  rcases h.payments with hpay | ⟨p, hrows, -⟩
  · exact ⟨fun r hr => ⟨r, h.invoices ▸ hr, rfl, rfl⟩, fun p hp => ⟨p, hpay ▸ hp, rfl, rfl, rfl⟩⟩
  · exact .of_create h.invoices hrows

/-! ## completePayment and handleUnconfirmedPayment -/

section Wp

variable {A : Answer → Prop} {env : Env} {option : PaymentOption} {transaction : Transaction}
  {s : World}

theorem wp_paymentTxid : (paymentTxid env option (orElse (some option.chain) option.currency)
    transaction).wp A (fun txid t => t = s ∧ StoredId env option transaction txid)
      (fun _ t => t = s) s := by
  unfold paymentTxid StoredId
  cases nonEmpty transaction.txid with
  | some given => exact ⟨rfl, rfl⟩
  | none =>
      by_cases hlen : transaction.txhex.length = 66
      · simp only [if_pos hlen]
        exact ⟨rfl, rfl⟩
      · simp only [if_neg hlen, bind_eq, wp_bind]
        refine wp_ofExcept (fun plugin hplugin => ?_) fun _ _ => rfl
        refine wp_ask (fun c _ ids hids => ?_) fun _ => rfl
        cases ids with
        | nil => exact rfl
        | cons txid rest => exact ⟨rfl, plugin, c, rest, hplugin, hids⟩

/-- The part both functions share: the payment row, then the settled invoice. -/
theorem wp_create_settle {β : Type} {r : Invoice} {txid : String} {status : InvoiceStatus}
    {mk : Time → Nat → Payment} {hmkid : ∀ t n, Record.id (mk t n) = n}
    {f : Time → Invoice → Invoice} {hid : ∀ t r, Record.id (f t r) = Record.id r}
    {k : Payment → Task β} {Q : β → World → Prop} {E : Failure → World → Prop}
    (hr : r ∈ s.invoices.rows) (huid : r.uid = option.invoice_uid)
    (hmk : ∀ now n, (mk now n).txid = txid ∧ (mk now n).invoice_uid = option.invoice_uid ∧
      (mk now n).txhex = some transaction.txhex ∧ (mk now n).status = .confirming)
    (hf : ∀ now x, Settled txid status x (f now x))
    (hk : ∀ p t, p.txid = txid → Recorded option transaction s t p →
      SettledTo status option s t p → t.published = s.published → (k p).wp A Q E t)
    (herr : ∀ e t p, t.payments.rows = s.payments.rows ++ [p] → p.id = s.payments.next →
      p.txhex = some transaction.txhex → t.published = s.published → Stuck option s t →
      E e t) :
    ((prisma.payments.create mk hmkid).bind fun p =>
      (settleInvoice r option transaction status f hid).bind fun _ => k p).wp A Q E s := by
  simp only [wp_bind]
  refine Delegate.wp_create (fun now tb hp _ => ?_) fun _ herr => ?_
  swap
  · obtain ⟨_, _, _, hne⟩ := herr
    exact absurd rfl hne
  obtain ⟨htxid, hpu, hhex, hstatus⟩ := hmk now s.payments.next
  refine wp_settleInvoice (fun now' tb' r' hr' hrid hrows _ hfree => ?_) fun _ te _ => ?_
  · obtain rfl : r' = r := Table.eq_of_id hr' hr hrid
    exact hk _ _ htxid ⟨hp, hmkid now _, hpu, hhex, hstatus,
      ⟨r', hr, huid, f now', status, fun x => htxid ▸ hf now' x, hfree, hrows⟩, rfl⟩
      ⟨r', hr, huid, f now', fun x => htxid ▸ hf now' x, hrows⟩ rfl
  · exact herr _ _ _ hp (hmkid now _) hhex rfl ⟨rfl, .inr ⟨_, hp, hpu, hstatus⟩, rfl⟩

theorem Recorded.of_same {t u : World} {p : Payment} (h : Recorded option transaction s t p)
    (htu : SameTables t u) : Recorded option transaction s u p :=
  ⟨by rw [htu.payments, h.payments], h.id, h.invoice_uid, h.txhex, h.status,
    by rw [htu.invoices]; exact h.invoice, by rw [htu.paymentOptions, h.options]⟩

/-- The settled row is there, with the payment's txid for its hash. -/
theorem Recorded.settled {t : World} {p : Payment} (h : Recorded option transaction s t p) :
    ∃ r ∈ t.invoices.rows, r.uid = option.invoice_uid ∧ r.hash = some p.txid ∧
      (r.status = .confirming ∨ r.status = .paid) := by
  obtain ⟨r, hr, huid, f, status, hf, -, hrows⟩ := h.invoice
  have hmem : f r ∈ t.invoices.rows := by
    rw [hrows]
    exact Table.mem_patch hr
  have hsettled := hf r
  exact ⟨f r, hmem, hsettled.uid.trans huid, hsettled.hash, hsettled.status_eq ▸ hsettled.pays⟩

theorem wp_completePayment {confirming : Bool} :
    (completePayment env option transaction confirming).wp A
      (fun p t => Recorded option transaction s t p ∧ StoredId env option transaction p.txid)
      (fun _ t => Stuck option s t) s := by
  unfold completePayment
  simp only [bind_eq, pure_eq]
  rw [wp_bind]
  refine wp_mono (fun txid t ht => ?_) (fun _ t ht => ht ▸ .refl option s) wp_paymentTxid
  obtain ⟨rfl, hstored⟩ := ht
  rw [wp_bind]
  refine Delegate.wp_findFirstOrThrow (fun r hr hw => ?_) fun _ => .refl option t
  refine wp_create_settle hr (by simpa using hw) (fun _ _ => ⟨rfl, rfl, rfl, rfl⟩)
    (fun now x => ⟨rfl, rfl, rfl, rfl, rfl, ?_, rfl, fun h => (by cases h),
      fun h => (by cases h)⟩)
    (fun p u htxid hrecorded _ _ => ?_) fun _ _ _ _ _ _ _ h => h
  · cases confirming <;> simp
  simp only [wp_bind]
  refine Delegate.wp_findFirstOrThrow (fun r' _ _ => ?_) fun hnone => ?_
  · have hpublish : ∀ e, (publishEvent "invoice.paid" e).Keeps World.database :=
      fun e => keeps_publishEvent _ e
    refine wp_detached (hpublish _) fun v hv => wp_spawn ?_
    have hsame : SameTables v { v with jobs := v.jobs ++
      [.sendWebhookForInvoice r'.uid "api_on_complete_payment"] } := ⟨rfl, rfl, rfl, rfl, rfl⟩
    exact ⟨hrecorded.of_same ((SameTables.of_database hv).trans hsame), htxid ▸ hstored⟩
  · obtain ⟨r', hr', huid, -⟩ := hrecorded.settled
    exact absurd huid (by simpa using hnone r' hr')

theorem wp_handleUnconfirmedPayment :
    (handleUnconfirmedPayment env option transaction).wp A
      (fun p t => Recorded option transaction s t p ∧
        UnconfirmedId env option transaction p.txid)
      (fun _ t => Stuck option s t) s := by
  unfold handleUnconfirmedPayment
  simp only [bind_eq, pure_eq]
  rw [wp_bind]
  refine wp_ofExcept (fun tx htx => ?_) fun _ _ => .refl option s
  rw [wp_bind]
  refine Delegate.wp_findFirstOrThrow (fun r hr hw => ?_) fun _ => .refl option s
  refine wp_create_settle hr (by simpa using hw) (fun _ _ => ⟨rfl, rfl, rfl, rfl⟩)
    (fun now x => ⟨rfl, rfl, rfl, rfl, rfl, .inl rfl, rfl, fun h => (by cases h),
      fun h => (by cases h)⟩)
    (fun p t htxid hrecorded _ _ => ?_) fun _ _ _ _ _ _ _ h => h
  rw [wp_bind]
  refine wp_publish ⟨hrecorded.of_same ⟨rfl, rfl, rfl, rfl, rfl⟩, ?_⟩
  exact ⟨tx, htx, htxid⟩

theorem wp_settleTransaction {invoice : Invoice} :
    (settleTransaction env invoice option transaction).wp A
      (fun p t => Recorded option transaction s t p ∧ PaysUnder env option transaction p.txid)
      (fun _ t => Stuck option s t) s := by
  unfold settleTransaction PaysUnder
  split
  · simp only [bind_eq, pure_eq, wp_bind]
    refine wp_mono (fun p t ht => ?_) (fun _ _ h => h) wp_handleUnconfirmedPayment
    exact wp_spawn ⟨ht.1.of_same ⟨rfl, rfl, rfl, rfl, rfl⟩, ht.2⟩
  · split
    · exact wp_completePayment
    · exact wp_completePayment

/-! ## submitPayment -/

/-- What the broadcast may write before the payment: on SOL and XRP the hash of
the invoice that was read. -/
structure Announced (invoice : Invoice) (option : PaymentOption) (s t : World) : Prop where
  invoices : t.invoices = s.invoices ∨ ((option.chain = "SOL" ∨ option.chain = "XRP") ∧
    ∃ h now, t.invoices.rows = Table.patch invoice.id
      (fun r => { r with hash := some h, updatedAt := now }) s.invoices.rows)
  payments : t.payments = s.payments
  options : t.paymentOptions = s.paymentOptions

theorem Announced.grows {invoice : Invoice} {t : World} (h : Announced invoice option s t) :
    Grows s t := by
  rcases h.invoices with hinv | ⟨-, h', now, hrows⟩
  · exact ⟨fun r hr => ⟨r, hinv ▸ hr, rfl, rfl⟩,
      fun p hp => ⟨p, h.payments ▸ hp, rfl, rfl, rfl⟩⟩
  · exact .of_invoices hrows h.payments fun _ => ⟨rfl, rfl⟩

/-- A broadcast leaves the tables alone; what it resolves to is what it was answered. -/
theorem wp_broadcastTx_sent {plugin : Plugin} {Q : BroadcastTxResult → World → Prop}
    {E : Failure → World → Prop}
    (hok : ∀ result t, SameTables s t →
      (∃ c jobs, A c ∧ plugin.broadcastTx transaction c = .ok (result, jobs)) → Q result t)
    (herr : ∀ e, E e s) : (broadcastTx plugin transaction).wp A Q E s := by
  refine wp_step (fun c hc a ha => ?_) fun c e he => ?_
  · cases h : plugin.broadcastTx transaction c with
    | ok x =>
        simp only [h, Except.ok.injEq] at ha ⊢
        subst ha
        exact hok x.1 _ ⟨rfl, rfl, rfl, rfl, rfl⟩ ⟨c, x.2, hc, h⟩
    | error e =>
        rw [h] at ha
        cases ha
  · cases h : plugin.broadcastTx transaction c with
    | ok x =>
        rw [h] at he
        cases he
    | error e' => exact herr e

theorem wp_broadcastTx {plugin : Plugin} {Q : BroadcastTxResult → World → Prop}
    {E : Failure → World → Prop}
    (hok : ∀ result t, SameTables s t → Q result t) (herr : ∀ e, E e s) :
    (broadcastTx plugin transaction).wp A Q E s :=
  wp_broadcastTx_sent (fun result t ht _ => hok result t ht) herr

theorem wp_broadcastTransaction {plugin : Plugin} {invoice : Invoice} :
    (broadcastTransaction plugin invoice option transaction).wp A
      (fun transaction' t => Announced invoice option s t ∧
        Broadcast option transaction transaction')
      (fun _ t => SameTables s t) s := by
  have hwrite : ∀ (h : String) t, (option.chain = "SOL" ∨ option.chain = "XRP") →
      SameTables s t → ∀ transaction', Broadcast option transaction transaction' →
      ((prisma.invoices.update invoice.id fun now r =>
        { r with hash := some h, updatedAt := now }).bind fun _ => done transaction').wp A
        (fun transaction' t => Announced invoice option s t ∧
          Broadcast option transaction transaction') (fun _ t => SameTables s t) t := by
    intro h t hchain ht transaction' htx
    rw [wp_bind]
    refine Delegate.wp_update (fun now tb r _ _ hrows _ => ?_) fun _ _ _ => ht
    refine ⟨⟨.inr ⟨hchain, h, now, ?_⟩, ht.payments, ht.paymentOptions⟩, htx⟩
    rw [← ht.invoices]
    exact hrows
  unfold broadcastTransaction
  simp only [bind_eq, pure_eq]
  split
  · rename_i hsol
    rw [wp_bind]
    refine wp_broadcastTx (fun result t ht => ?_) fun _ => ⟨rfl, rfl, rfl, rfl, rfl⟩
    exact hwrite _ t (.inl hsol) ht _ (.inl rfl)
  · split
    · rename_i hxrp
      rw [wp_bind]
      refine wp_broadcastTx (fun result t ht => ?_) fun _ => ⟨rfl, rfl, rfl, rfl, rfl⟩
      exact hwrite _ t (.inr hxrp) ht _ (.inr ⟨hxrp, result.txid, rfl⟩)
    · rw [wp_bind]
      refine wp_broadcastTx (fun result t ht => ?_) fun _ => ⟨rfl, rfl, rfl, rfl, rfl⟩
      exact ⟨⟨.inl ht.invoices, ht.payments, ht.paymentOptions⟩, .inl rfl⟩

/-- The wallet is written into the new payment, and nowhere else. -/
theorem Recorded.withWallet {t : World} {p : Payment} {wallet : String} {tb : Table Payment}
    (h : Recorded option transaction s t p)
    (hrows : tb.rows = Table.patch p.id (fun r => { r with wallet := some wallet })
      t.payments.rows) :
    Recorded option transaction s { t with payments := tb }
      { p with wallet := some wallet } := by
  refine ⟨?_, h.id, h.invoice_uid, h.txhex, h.status, h.invoice, h.options⟩
  change tb.rows = s.payments.rows ++ [{ p with wallet := some wallet }]
  rw [hrows, h.payments]
  exact Table.patch_append_last rfl h.id

/-- One round of the loop: the transaction passed verification, was announced
and recorded. -/
structure Round (A : Answer → Prop) (env : Env) (plugin : Plugin) (invoice : Invoice)
    (option : PaymentOption) (transaction : Transaction) (s t : World) : Prop where
  verified : ∃ c, A c ∧ plugin.verifyPayment option transaction c = .ok true
  recorded : ∃ u p transaction', Announced invoice option s u ∧
    Broadcast option transaction transaction' ∧ Recorded option transaction' u t p ∧
    PaysUnder env option transaction' p.txid

/-- A round that threw. -/
def Halted (invoice : Invoice) (option : PaymentOption) (s t : World) : Prop :=
  ∃ u, Announced invoice option s u ∧ Stuck option u t

theorem Round.grows {plugin : Plugin} {invoice : Invoice} {t : World}
    (h : Round A env plugin invoice option transaction s t) : Grows s t := by
  obtain ⟨u, p, transaction', hannounced, -, hrecorded, -⟩ := h.recorded
  exact hannounced.grows.trans hrecorded.grows

theorem Halted.grows {invoice : Invoice} {t : World} (h : Halted invoice option s t) :
    Grows s t := by
  obtain ⟨u, hannounced, hstuck⟩ := h
  exact hannounced.grows.trans hstuck.grows

theorem Announced.of_same {invoice : Invoice} {t : World} (h : SameTables s t) :
    Announced invoice option s t :=
  ⟨.inl h.invoices, h.payments, h.paymentOptions⟩

theorem Announced.refl (invoice : Invoice) (option : PaymentOption) (s : World) :
    Announced invoice option s s :=
  ⟨.inl rfl, rfl, rfl⟩

theorem wp_submitTransaction {payment : SubmitPaymentRequest} {invoice : Invoice}
    {plugin : Plugin} :
    (submitTransaction env payment invoice option plugin transaction).wp A
      (fun _ t => Round A env plugin invoice option transaction s t)
      (fun _ t => Halted invoice option s t) s := by
  unfold submitTransaction
  simp only [bind_eq, pure_eq]
  rw [wp_bind]
  refine wp_ask (fun c hc verified hverified => ?_) fun _ => ⟨s, .refl _ _ s, .refl _ s⟩
  split
  · exact ⟨s, .refl _ _ s, .refl _ s⟩
  rename_i hpassed
  rw [Bool.not_eq_false] at hpassed
  subst hpassed
  rw [wp_bind]
  refine wp_mono (fun transaction' u hu => ?_) (fun _ u hu => ⟨u, .of_same hu, .refl _ u⟩)
    wp_broadcastTransaction
  rw [wp_bind]
  refine wp_mono (fun p t ht => ?_) (fun _ t ht => ⟨u, hu.1, ht⟩) wp_settleTransaction
  split
  · exact ⟨⟨c, hc, hverified⟩, u, p, transaction', hu.1, hu.2, ht.1, ht.2⟩
  · rw [wp_bind]
    refine Delegate.wp_update (fun now tb r hr hid hrows _ => ?_) fun now te herr => ?_
    · exact ⟨⟨c, hc, hverified⟩, u, _, transaction', hu.1, hu.2, ht.1.withWallet hrows, ht.2⟩
    · -- the payment is there, and no column of it is unique
      have hmem : p ∈ t.payments.rows := by
        rw [ht.1.payments]
        simp
      rcases Table.update?_error herr with ⟨-, hnone⟩ | ⟨-, _, _, _, _, _, _, _, hne⟩
      · exact absurd rfl (hnone p hmem)
      · exact absurd rfl hne

/-- What a call of `submitPayment` starts from: an unpaid invoice, its option,
its plugin. -/
structure Accepted (env : Env) (payment : SubmitPaymentRequest) (s : World)
    (invoice : Invoice) (option : PaymentOption) (plugin : Plugin) : Prop where
  invoice_mem : invoice ∈ s.invoices.rows
  uid : invoice.uid = payment.invoice_uid
  unpaid : invoice.status = .unpaid
  option_mem : option ∈ s.paymentOptions.rows
  option_uid : option.invoice_uid = payment.invoice_uid
  currency : option.currency = payment.currency
  chain : option.chain = orElse payment.chain payment.currency
  plugin : find env payment.currency (orElse payment.chain payment.currency) = .ok plugin

/-- A call goes through the transactions one by one, and stops at the first that
throws. -/
theorem wp_submitPayment (env : Env) (payment : SubmitPaymentRequest) :
    (submitPayment env payment).wp A
      (fun _ t => ∃ invoice option plugin, Accepted env payment s invoice option plugin ∧
        Steps (Round A env plugin invoice option) payment.transactions s t)
      (fun _ t => t = s ∨ ∃ invoice option plugin finished transaction rest u,
        Accepted env payment s invoice option plugin ∧
        payment.transactions = finished ++ transaction :: rest ∧
        Steps (Round A env plugin invoice option) finished s u ∧
        Halted invoice option u t) s := by
  unfold submitPayment findPaymentOption
  simp only [bind_eq, pure_eq]
  rw [wp_bind]
  refine Delegate.wp_findFirstOrThrow (fun invoice hinvoice hw => ?_) fun _ => .inl rfl
  split
  · exact .inl rfl
  rename_i hunpaid
  rw [wp_bind]
  refine Delegate.wp_findFirst (fun option hoption ho => ?_) fun _ => .inl rfl
  rw [wp_bind]
  refine wp_ofExcept (fun plugin hplugin => ?_) fun _ _ => .inl rfl
  simp only [Bool.and_eq_true, beq_iff_eq] at ho hw
  have haccepted : Accepted env payment s invoice option plugin :=
    ⟨hinvoice, hw, not_not.mp hunpaid, hoption, ho.1.1, ho.1.2, ho.2, hplugin⟩
  rw [wp_bind]
  refine wp_mono (fun _ t ht => ?_) (fun _ t ht => ?_)
    (wp_forEach_steps (R := Round A env plugin invoice option)
      (H := fun _ => Halted invoice option) fun _ _ _ => wp_submitTransaction)
  · exact ⟨invoice, option, plugin, haccepted, ht⟩
  · obtain ⟨finished, transaction, rest, u, hsplit, hsteps, hhalted⟩ := ht
    exact .inr ⟨invoice, option, plugin, finished, transaction, rest, u, haccepted, hsplit,
      hsteps, hhalted⟩

end Wp

/-! ## By which transaction -/

/-- Whatever was settled since was settled by the transaction. -/
def SettledOnlyBy (By : Transaction → Prop) (s t : World) : Prop :=
  ∀ settlement ∈ t.settlements, settlement ∈ s.settlements ∨ By settlement.transaction

section Settlements

variable {By : Transaction → Prop} {env : Env} {option : PaymentOption}
  {transaction : Transaction}

theorem SettledOnlyBy.refl (s : World) : SettledOnlyBy By s s := fun _ h => .inl h

theorem SettledOnlyBy.trans {s t u : World} (h : SettledOnlyBy By s t)
    (h' : SettledOnlyBy By t u) : SettledOnlyBy By s u := by
  intro settlement hu
  rcases h' settlement hu with ht | hby
  · exact h settlement ht
  · exact .inr hby

/-- A program that settles nothing. -/
theorem always_of_keeps {α : Type} {p : Task α} (h : p.Keeps World.settlements) :
    p.Always (SettledOnlyBy By) fun _ => True :=
  always_mono h (fun _ _ hsame _ hmem => .inl (hsame ▸ hmem)) fun _ _ => trivial

theorem always_settleInvoice {invoice : Invoice} {status : InvoiceStatus}
    {f : Time → Invoice → Invoice} {hid : ∀ t r, Record.id (f t r) = Record.id r}
    (hby : By transaction) :
    (settleInvoice invoice option transaction status f hid).Always (SettledOnlyBy By)
      fun _ => True := by
  refine always_step (fun c s => ?_) fun _ _ _ _ => trivial
  cases s.invoices.update? invoice.id (f c.now) (hid c.now) with
  | ok q =>
      intro settlement hmem
      rcases List.mem_append.mp hmem with hold | hnew
      · exact .inl hold
      · obtain rfl := List.mem_singleton.mp hnew
        exact .inr hby
  | error e => exact .refl s

theorem always_completePayment {confirming : Bool} (hby : By transaction) :
    (completePayment env option transaction confirming).Always (SettledOnlyBy By)
      fun _ => True := by
  unfold completePayment
  simp only [bind_eq, pure_eq]
  refine always_bind (always_of_keeps (keeps_paymentTxid _ _ _ _)) fun txid _ => ?_
  refine always_bind (always_of_keeps keeps_query) fun invoice _ => ?_
  refine always_bind (always_of_keeps (Delegate.keeps_create fun _ _ => rfl)) fun p _ => ?_
  refine always_bind (always_settleInvoice hby) fun _ _ => ?_
  refine always_of_keeps (keeps_bind keeps_query fun _ => ?_)
  refine keeps_bind (keeps_detached (keeps_publishEvent _ _)) fun _ => ?_
  exact keeps_bind (keeps_spawn _ fun _ => rfl) fun _ => trivial

theorem always_handleUnconfirmedPayment (hby : By transaction) :
    (handleUnconfirmedPayment env option transaction).Always (SettledOnlyBy By)
      fun _ => True := by
  unfold handleUnconfirmedPayment
  simp only [bind_eq, pure_eq]
  refine always_bind (always_of_keeps (keeps_ofExcept _)) fun tx _ => ?_
  refine always_bind (always_of_keeps keeps_query) fun invoice _ => ?_
  refine always_bind (always_of_keeps (Delegate.keeps_create fun _ _ => rfl)) fun p _ => ?_
  refine always_bind (always_settleInvoice hby) fun _ _ => ?_
  exact always_of_keeps (keeps_bind (keeps_publish _ _ fun _ _ => rfl) fun _ => trivial)

theorem always_settleTransaction {invoice : Invoice} (hby : By transaction) :
    (settleTransaction env invoice option transaction).Always (SettledOnlyBy By)
      fun _ => True := by
  unfold settleTransaction
  split
  · simp only [bind_eq, pure_eq]
    refine always_bind (always_handleUnconfirmedPayment hby) fun p _ => ?_
    exact always_of_keeps (keeps_bind (keeps_spawn _ fun _ => rfl) fun _ => trivial)
  · split
    · exact always_completePayment hby
    · exact always_completePayment hby

theorem keeps_broadcastTx_settlements (plugin : Plugin) (transaction : Transaction) :
    (broadcastTx plugin transaction).Keeps World.settlements := by
  refine keeps_step fun c w => ?_
  cases plugin.broadcastTx transaction c <;> rfl

theorem always_broadcastTransaction {plugin : Plugin} {invoice : Invoice} :
    (broadcastTransaction plugin invoice option transaction).Always (SettledOnlyBy By)
      fun transaction' => Broadcast option transaction transaction' := by
  have hbroadcast := keeps_broadcastTx_settlements plugin transaction
  unfold broadcastTransaction
  simp only [bind_eq, pure_eq]
  split
  · refine always_bind (always_of_keeps hbroadcast) fun _ _ => ?_
    refine always_bind (always_of_keeps (Delegate.keeps_update fun _ _ => rfl)) fun _ _ => ?_
    exact .inl rfl
  · split
    · rename_i hxrp
      refine always_bind (always_of_keeps hbroadcast) fun response _ => ?_
      refine always_bind (always_of_keeps (Delegate.keeps_update fun _ _ => rfl)) fun _ _ => ?_
      exact .inr ⟨hxrp, response.txid, rfl⟩
    · refine always_bind (always_of_keeps hbroadcast) fun _ _ => ?_
      exact .inl rfl

/-- A round settles with the transaction it verified. -/
theorem always_submitTransaction {payment : SubmitPaymentRequest} {invoice : Invoice}
    {plugin : Plugin} :
    (submitTransaction env payment invoice option plugin transaction).Always
      (SettledOnlyBy fun transaction' => Broadcast option transaction transaction' ∧
        ∃ c, plugin.verifyPayment option transaction c = .ok true) fun _ => True := by
  unfold submitTransaction
  simp only [bind_eq, pure_eq]
  have hverify : (ask (plugin.verifyPayment option transaction)).Always
      (SettledOnlyBy fun transaction' => Broadcast option transaction transaction' ∧
        ∃ c, plugin.verifyPayment option transaction c = .ok true)
      fun verified => ∃ c, plugin.verifyPayment option transaction c = .ok verified :=
    always_step (fun _ s => .refl s) fun c _ _ h => ⟨c, h⟩
  refine always_bind hverify fun verified hverified => ?_
  split
  · exact trivial
  rename_i hpassed
  rw [Bool.not_eq_false] at hpassed
  subst hpassed
  refine always_bind always_broadcastTransaction fun transaction' hbroadcast => ?_
  refine always_bind (always_settleTransaction ⟨hbroadcast, hverified⟩) fun p _ => ?_
  split
  · exact trivial
  · exact always_of_keeps (keeps_bind (Delegate.keeps_update fun _ _ => rfl) fun _ => trivial)

/-- A submitted transaction that passed the verification of an option of the
invoice, as the loop sees it after the broadcast. -/
def Passed (payment : SubmitPaymentRequest) (plugin : Plugin) (s : World)
    (transaction' : Transaction) : Prop :=
  ∃ option ∈ s.paymentOptions.rows, option.invoice_uid = payment.invoice_uid ∧
    option.currency = payment.currency ∧
    option.chain = orElse payment.chain payment.currency ∧
    ∃ transaction ∈ payment.transactions, Broadcast option transaction transaction' ∧
      ∃ c, plugin.verifyPayment option transaction c = .ok true

/-- `submitPayment` settles with such transactions only. -/
theorem wp_submitPayment_settlements {A : Answer → Prop} {payment : SubmitPaymentRequest}
    {plugin : Plugin} {s : World}
    (hplugin : find env payment.currency (orElse payment.chain payment.currency) = .ok plugin) :
    (submitPayment env payment).wp A
      (fun _ t => SettledOnlyBy (Passed payment plugin s) s t)
      (fun _ t => SettledOnlyBy (Passed payment plugin s) s t) s := by
  have hrefl : SettledOnlyBy (Passed payment plugin s) s s := .refl s
  unfold submitPayment findPaymentOption
  simp only [bind_eq, pure_eq]
  rw [wp_bind]
  refine Delegate.wp_findFirstOrThrow (fun invoice _ _ => ?_) fun _ => hrefl
  split
  · exact hrefl
  rw [wp_bind]
  refine Delegate.wp_findFirst (fun option hoption ho => ?_) fun _ => hrefl
  simp only [Bool.and_eq_true, beq_iff_eq] at ho
  rw [wp_bind]
  refine wp_ofExcept (fun plugin' hplugin' => ?_) fun _ _ => hrefl
  obtain rfl := Except.ok.inj (hplugin.symm.trans hplugin')
  rw [wp_bind]
  refine wp_mono (fun _ _ h => h.1) (fun _ _ h => h)
    (wp_of_always SettledOnlyBy.refl SettledOnlyBy.trans (P := fun _ => True) ?_ s)
  refine always_forEach fun transaction htransaction => ?_
  refine always_mono always_submitTransaction (fun _ _ h settlement hmem => ?_) fun _ _ => trivial
  rcases h settlement hmem with hold | ⟨hbroadcast, hverified⟩
  · exact .inl hold
  · exact .inr ⟨option, hoption, ho.1.1, ho.1.2, ho.2, transaction, htransaction, hbroadcast,
      hverified⟩

end Settlements

end Anypay
