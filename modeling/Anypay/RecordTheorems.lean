/-
Anypay.RecordTheorems — from a verified, broadcast transaction to its payment row.

Once a transaction has gone out, two things can still keep `submitPayment` from
recording it: no ID is found to store, because the plugin (or, for BTC with
confirmations required, another library) parses the transaction once more; or
the id is taken, `invoices.hash` being unique. `Recordable` says that neither
happens. Each function on the way has one rule that proves both directions at
once: where it returns, its part of `Recordable` holds; where it throws, it does
not (`wp_…_iff`).
-/
import Anypay.Chains.Registry
import Anypay.SubmissionTheorems
import Anypay.EvmTheorems
import Anypay.VerificationTheorems

namespace Anypay

open Store Async Proc

namespace Recording

open Submission (announcedHash afterBroadcast)

/-! ## What has to hold -/

/-- No other row than `row` has the hash; `hashOf` is the hash a row has by the
time. -/
def Free (w : World) (hashOf : Invoice → Option String) (row : Nat) (hash : String) : Prop :=
  ∀ r ∈ w.invoices.rows, r.id ≠ row → hashOf r ≠ some hash

/-- There is an id, and it is free for the row. -/
def Storable (w : World) (hashOf : Invoice → Option String) (id : Option String)
    (row : Invoice) : Prop :=
  ∃ txid ∈ id, Free w hashOf row.id txid

/-- `P` holds of a row of the invoice: of the one the query returned. -/
def OfRow (w : World) (uid : String) (P : Invoice → Prop) : Prop :=
  ∃ row ∈ w.invoices.rows, row.uid = uid ∧ P row

/-- The id of the first payment found. -/
def firstId (payments : Except Failure (List String)) : Option String :=
  payments.toOption.bind List.head?

/-- The id `completePayment` stores; `found` is the one parsed. -/
def completeId (transaction : Transaction) (found : Option String) : Option String :=
  match nonEmpty transaction.txid with
  | some txid => some txid
  | none => if transaction.txhex.length = 66 then some transaction.txhex else found

/-- The id `handleUnconfirmedPayment` stores: bitcore has to decode the
transaction even where there is one. -/
def unconfirmedId (env : Env) (option : PaymentOption) (transaction : Transaction) :
    Option String :=
  (decodeTransaction env option.chain transaction.txhex).toOption.map fun tx =>
    (nonEmpty transaction.txid).getD tx.hash

/-- The id that is stored. -/
def recordedId (env : Env) (option : PaymentOption) (transaction : Transaction)
    (found : Option String) : Option String :=
  if option.currency = "BTC" ∧ env.requireBtcConfirmations = true then
    unconfirmedId env option transaction
  else completeId transaction found

/-- The hash of a row once the broadcast has written its own. -/
def hashAfter (option : PaymentOption) (result : BroadcastTxResult) (invoice : Invoice)
    (r : Invoice) : Option String :=
  match announcedHash option result with
  | some hash => if r.id = invoice.id then some hash else r.hash
  | none => r.hash

/-- There is an id to store, and it is free for the row it is stored in; so is
what the broadcast writes into the invoice that was read. -/
def Recordable (env : Env) (w : World) (invoice : Invoice) (option : PaymentOption)
    (transaction : Transaction) (result : BroadcastTxResult) (found : Option String)
    (row : Invoice) : Prop :=
  (∀ hash ∈ announcedHash option result, Free w Invoice.hash invoice.id hash) ∧
  Storable w (hashAfter option result invoice)
    (recordedId env option (afterBroadcast option transaction result) found) row

/-! ## The steps -/

section Wp

variable {A : Answer → Prop} {env : Env} {option : PaymentOption} {transaction : Transaction}
  {plugin : Plugin} {found : Option String} {s : World}

/-- Writing a hash into a row goes through just where it is free. -/
theorem taken_iff_not_free {r : Invoice} {row : Nat} {hash : String} (hid : r.id = row)
    (hhash : r.hash = some hash) :
    s.invoices.taken r = true ↔ ¬ Free s Invoice.hash row hash := by
  rw [Table.taken_iff, Free]
  push Not
  constructor
  · rintro ⟨x, hx, hne, hkey, -⟩
    exact ⟨x, hx, fun h => hne (h.trans hid.symm), hkey.trans hhash⟩
  · rintro ⟨x, hx, hne, hkey⟩
    refine ⟨x, hx, fun h => hne (h.trans hid), hkey.trans hhash.symm, fun hnone => ?_⟩
    exact Option.some_ne_none hash (hhash.symm.trans hnone)

/-- Where an update of a row fails, its hash is another's. -/
theorem not_free_of_error {row : Invoice} {f : Invoice → Invoice}
    {hid : ∀ r, Record.id (f r) = Record.id r} {hash : String} {te : TableError}
    (hmem : row ∈ s.invoices.rows) (hf : ∀ r, (f r).hash = some hash)
    (h : s.invoices.update? row.id f hid = .error te) :
    ¬ Free s Invoice.hash row.id hash := by
  rcases Table.update?_error h with ⟨-, hnone⟩ | ⟨-, r, hr, hrid, x, hx, hne, hkey, -⟩
  · exact absurd rfl (hnone row hmem)
  · intro hfree
    exact hfree x hx hne (hkey.trans (hf r))

/-- A payment row of the invoice that was not there before. -/
def New (uid : String) (s t : World) (p : Payment) : Prop :=
  p ∈ t.payments.rows ∧ (∀ q ∈ s.payments.rows, q.id ≠ p.id) ∧ p.invoice_uid = uid

theorem New.of_same {t u : World} {uid : String} {p : Payment} (h : New uid s t p)
    (hsame : u.payments = t.payments) : New uid s u p :=
  ⟨hsame ▸ h.1, h.2⟩

theorem ne_of_next {p : Payment} (hid : p.id = s.payments.next) :
    ∀ q ∈ s.payments.rows, q.id ≠ p.id := by
  intro q hq
  have hlt : q.id < s.payments.next := s.payments.id_lt q hq
  omega

/-- Storing the payment, then settling a row under its id. -/
theorem wp_store_settle {β : Type} {row : Invoice} {txid : String} {status : InvoiceStatus}
    {mk : Time → Nat → Payment} {hmkid : ∀ t n, Record.id (mk t n) = n}
    {f : Time → Invoice → Invoice} {hid : ∀ t r, Record.id (f t r) = Record.id r}
    {k : Payment → Task β} {Q : β → World → Prop} {E : Failure → World → Prop}
    (hmem : row ∈ s.invoices.rows)
    (hmk : ∀ now n, (mk now n).invoice_uid = option.invoice_uid)
    (hf : ∀ now r, (f now r).hash = some txid ∧ (f now r).uid = r.uid)
    (hk : ∀ p t, Free s Invoice.hash row.id txid → New option.invoice_uid s t p →
      (∃ r ∈ t.invoices.rows, r.uid = row.uid) → (k p).wp A Q E t)
    (herr : ∀ e t, ¬ Free s Invoice.hash row.id txid → E e t) :
    ((prisma.payments.create mk hmkid).bind fun p =>
      (settleInvoice row option transaction status f hid).bind fun _ => k p).wp A Q E s := by
  rw [wp_bind]
  refine Delegate.wp_create (fun now tb hp _ => ?_) fun _ herr => ?_
  swap
  · obtain ⟨_, _, _, hne⟩ := herr
    exact absurd rfl hne
  rw [wp_bind]
  refine wp_settleInvoice (fun now' tb' r hr hrid hrows hrmem hfree => ?_) fun now' te herr' => ?_
  · have hrow : r = row := Table.eq_of_id hr hmem hrid
    subst hrow
    refine hk _ _ ?_ ⟨?_, ne_of_next (hmkid now _), hmk now _⟩ ⟨f now' r, hrmem, (hf now' r).2⟩
    · by_contra hnot
      have htaken := (taken_iff_not_free (hid now' r) (hf now' r).1).mpr hnot
      exact absurd (htaken.symm.trans hfree) (by decide)
    · change _ ∈ tb.rows
      rw [hp]
      simp
  · exact herr _ _ (not_free_of_error hmem (fun r => (hf now' r).1) herr')

theorem wp_paymentTxid_iff
    (hplugin : find env option.currency (orElse (some option.chain) option.currency) = .ok plugin)
    (hparse : ∀ c, firstId (plugin.parsePayments transaction c) = found) :
    (paymentTxid env option (orElse (some option.chain) option.currency) transaction).wp A
      (fun txid t => t = s ∧ completeId transaction found = some txid)
      (fun _ t => t = s ∧ completeId transaction found = none) s := by
  unfold paymentTxid completeId
  cases nonEmpty transaction.txid with
  | some txid => exact ⟨rfl, rfl⟩
  | none =>
      by_cases hlen : transaction.txhex.length = 66
      · simp only [if_pos hlen]
        exact ⟨rfl, rfl⟩
      · simp only [if_neg hlen, bind_eq]
        rw [hplugin, wp_bind]
        change ((ask (plugin.parsePayments transaction)).bind _).wp A _ _ s
        rw [wp_bind]
        refine wp_query_cases (fun c _ ids hids => ?_) fun c _ e he => ?_
        · have hfound := hparse c
          rw [hids] at hfound
          cases ids with
          | nil => exact ⟨rfl, hfound.symm⟩
          | cons txid rest => exact ⟨rfl, hfound.symm⟩
        · have hfound := hparse c
          rw [he] at hfound
          exact ⟨rfl, hfound.symm⟩

theorem wp_completePayment_iff {confirming : Bool}
    (hinvoice : ∃ r ∈ s.invoices.rows, r.uid = option.invoice_uid)
    (hplugin : find env option.currency (orElse (some option.chain) option.currency) = .ok plugin)
    (hparse : ∀ c, firstId (plugin.parsePayments transaction c) = found) :
    (completePayment env option transaction confirming).wp A
      (fun p t => OfRow s option.invoice_uid
        (Storable s Invoice.hash (completeId transaction found)) ∧ New option.invoice_uid s t p)
      (fun _ _ => OfRow s option.invoice_uid
        fun row => ¬ Storable s Invoice.hash (completeId transaction found) row) s := by
  unfold completePayment
  simp only [bind_eq, pure_eq]
  rw [wp_bind]
  refine wp_mono (fun txid t ht => ?_) (fun _ _ hnone => ?_) (wp_paymentTxid_iff hplugin hparse)
  swap
  · obtain ⟨r, hr, huid⟩ := hinvoice
    refine ⟨r, hr, huid, ?_⟩
    rintro ⟨txid, htxid, -⟩
    cases hnone.2.symm.trans htxid
  obtain ⟨rfl, hid⟩ := ht
  rw [wp_bind]
  refine Delegate.wp_findFirstOrThrow (fun row hrow hw => ?_) fun hnone => ?_
  swap
  · obtain ⟨r, hr, huid⟩ := hinvoice
    exact absurd huid (by simpa using hnone r hr)
  have huid : row.uid = option.invoice_uid := by simpa using hw
  refine wp_store_settle hrow (fun _ _ => rfl) (fun _ _ => ⟨rfl, rfl⟩)
    (fun p u hfree hnew hrow' => ?_) fun _ _ h => ?_
  · simp only [wp_bind]
    refine Delegate.wp_findFirstOrThrow (fun r' _ _ => ?_) fun hnone => ?_
    · have hpublish : ∀ e, (publishEvent "invoice.paid" e).Keeps World.payments :=
        fun e => keeps_publishEvent _ e
      refine wp_detached (hpublish _) fun v hv => wp_spawn ⟨?_, hnew.of_same hv⟩
      exact ⟨row, hrow, huid, txid, hid, hfree⟩
    · obtain ⟨r', hr', huid'⟩ := hrow'
      exact absurd (huid'.trans huid) (by simpa using hnone r' hr')
  · refine ⟨row, hrow, huid, ?_⟩
    rintro ⟨txid', htxid', hfree⟩
    obtain rfl : txid = txid' := Option.some.inj (hid.symm.trans htxid')
    exact h hfree

theorem wp_handleUnconfirmedPayment_iff
    (hinvoice : ∃ r ∈ s.invoices.rows, r.uid = option.invoice_uid) :
    (handleUnconfirmedPayment env option transaction).wp A
      (fun p t => OfRow s option.invoice_uid
        (Storable s Invoice.hash (unconfirmedId env option transaction)) ∧
          New option.invoice_uid s t p)
      (fun _ _ => OfRow s option.invoice_uid
        fun row => ¬ Storable s Invoice.hash (unconfirmedId env option transaction) row) s := by
  obtain ⟨r, hr, hruid⟩ := hinvoice
  unfold handleUnconfirmedPayment unconfirmedId
  simp only [bind_eq, pure_eq]
  rw [wp_bind]
  refine wp_ofExcept (fun tx htx => ?_) fun e he => ?_
  swap
  · refine ⟨r, hr, hruid, ?_⟩
    rintro ⟨txid, htxid, -⟩
    simp [he, Except.toOption] at htxid
  simp only [htx, Except.toOption, Option.map_some]
  rw [wp_bind]
  refine Delegate.wp_findFirstOrThrow (fun row hrow hw => ?_) fun hnone => ?_
  swap
  · exact absurd hruid (by simpa using hnone r hr)
  have huid : row.uid = option.invoice_uid := by simpa using hw
  refine wp_store_settle hrow (fun _ _ => rfl) (fun _ _ => ⟨rfl, rfl⟩)
    (fun p u hfree hnew _ => ?_) fun _ _ h => ?_
  · rw [wp_bind]
    exact wp_publish ⟨⟨row, hrow, huid, _, rfl, hfree⟩, hnew⟩
  · refine ⟨row, hrow, huid, ?_⟩
    rintro ⟨txid, htxid, hfree⟩
    obtain rfl := Option.some.inj htxid
    exact h hfree

theorem wp_settleTransaction_iff {invoice : Invoice}
    (hinvoice : ∃ r ∈ s.invoices.rows, r.uid = option.invoice_uid)
    (hplugin : find env option.currency (orElse (some option.chain) option.currency) = .ok plugin)
    (hparse : ∀ c, firstId (plugin.parsePayments transaction c) = found) :
    (settleTransaction env invoice option transaction).wp A
      (fun p t => OfRow s option.invoice_uid
        (Storable s Invoice.hash (recordedId env option transaction found)) ∧
          New option.invoice_uid s t p)
      (fun _ _ => OfRow s option.invoice_uid
        fun row => ¬ Storable s Invoice.hash (recordedId env option transaction found) row) s := by
  unfold settleTransaction recordedId
  split
  · simp only [bind_eq, pure_eq, wp_bind]
    refine wp_mono (fun p t ht => ?_) (fun _ _ h => h)
      (wp_handleUnconfirmedPayment_iff hinvoice)
    exact wp_spawn ht
  · split
    · exact wp_completePayment_iff hinvoice hplugin hparse
    · exact wp_completePayment_iff hinvoice hplugin hparse

/-! ## What follows the broadcast -/

/-- The rest of `broadcastTransaction` once the plugin's broadcast resolved. -/
def announce (invoice : Invoice) (option : PaymentOption) (transaction : Transaction)
    (result : BroadcastTxResult) : Task Transaction :=
  match announcedHash option result with
  | some hash =>
      (prisma.invoices.update invoice.id fun now r =>
        { r with hash := some hash, updatedAt := now }).bind fun _ =>
          done (afterBroadcast option transaction result)
  | none => done (afterBroadcast option transaction result)

theorem broadcastTransaction_eq (plugin : Plugin) (invoice : Invoice) (option : PaymentOption)
    (transaction : Transaction) :
    broadcastTransaction plugin invoice option transaction =
      (broadcastTx plugin transaction).bind (announce invoice option transaction) := by
  unfold broadcastTransaction
  by_cases hsol : option.chain = "SOL"
  · rw [if_pos hsol]
    congr 1
    funext result
    simp [announce, announcedHash, afterBroadcast, hsol]
  · rw [if_neg hsol]
    by_cases hxrp : option.chain = "XRP"
    · rw [if_pos hxrp]
      congr 1
      funext result
      simp [announce, announcedHash, afterBroadcast, hxrp]
    · rw [if_neg hxrp]
      congr 1
      funext result
      simp [announce, announcedHash, afterBroadcast, hsol, hxrp]

theorem withWallet_id (wallet : String) (_ : Time) (r : Payment) :
    Record.id { r with wallet := some wallet } = Record.id r := rfl

/-- The rest of `submitPayment`. -/
def finish (env : Env) (wallet : Option String) (invoice : Invoice) (option : PaymentOption)
    (transaction : Transaction) (result : BroadcastTxResult) : Task (List String) :=
  (announce invoice option transaction result).bind fun transaction' =>
    (settleTransaction env invoice option transaction').bind fun paymentRecord =>
      (match nonEmpty wallet with
        | none => done ()
        | some wallet =>
            (prisma.payments.update paymentRecord.id (fun _ r =>
              { r with wallet := some wallet }) (withWallet_id wallet)).bind
                fun _ => done ()).bind
        fun _ => done [transaction.txhex]

/-- The hashes once the early one is written. -/
theorem free_of_patch {invoice : Invoice} {result : BroadcastTxResult} {hash : String}
    {now : Time} {tb : Table Invoice} (hhash : announcedHash option result = some hash)
    (hrows : tb.rows = Table.patch invoice.id
      (fun r => { r with hash := some hash, updatedAt := now }) s.invoices.rows)
    (row : Nat) (txid : String) :
    Free { s with invoices := tb } Invoice.hash row txid ↔
      Free s (hashAfter option result invoice) row txid := by
  unfold Free
  change (∀ r ∈ tb.rows, _) ↔ _
  rw [hrows, Table.patch, List.forall_mem_map]
  refine forall₂_congr fun r _ => ?_
  simp only [hashAfter, hhash, Record.id]
  by_cases hid : r.id = invoice.id
  · simp [hid]
  · simp [hid]

theorem wp_announce {invoice : Invoice} {result : BroadcastTxResult}
    (hmem : invoice ∈ s.invoices.rows) :
    (announce invoice option transaction result).wp A
      (fun transaction' t => transaction' = afterBroadcast option transaction result ∧
        (∀ hash ∈ announcedHash option result, Free s Invoice.hash invoice.id hash) ∧
        t.payments = s.payments ∧ t.names = s.names ∧
        ∀ row txid, Free t Invoice.hash row txid ↔
          Free s (hashAfter option result invoice) row txid)
      (fun _ _ => ¬ ∀ hash ∈ announcedHash option result, Free s Invoice.hash invoice.id hash) s := by
  unfold announce
  cases hhash : announcedHash option result with
  | none =>
      refine ⟨rfl, nofun, rfl, rfl, fun row txid => ?_⟩
      simp only [Free, hashAfter, hhash]
  | some hash =>
      simp only [Option.mem_def, Option.some.injEq, forall_eq']
      rw [wp_bind]
      refine Delegate.wp_update_free (fun now tb r hr hid hrows hfree => ?_)
        fun now te herr => not_free_of_error hmem (fun _ => rfl) herr
      refine ⟨rfl, ?_, rfl, World.names_patch hrows fun _ => ⟨rfl, rfl⟩, free_of_patch hhash hrows⟩
      by_contra hnot
      have htaken := (taken_iff_not_free (r := { r with hash := some hash, updatedAt := now })
        hid rfl).mpr hnot
      exact absurd (htaken.symm.trans hfree) (by decide)

theorem OfRow.of_names {t : World} {uid : String} {P Q : Invoice → Prop}
    (hnames : t.names = s.names) (hPQ : ∀ r r' : Invoice, r.id = r'.id → P r → Q r')
    (h : OfRow t uid P) : OfRow s uid Q := by
  obtain ⟨row, hrow, rfl, hP⟩ := h
  have hmem : (row.id, row.uid) ∈ s.names := by
    rw [← hnames]
    exact List.mem_map.mpr ⟨row, hrow, rfl⟩
  obtain ⟨row', hrow', he⟩ := List.mem_map.mp hmem
  obtain ⟨hid, huid⟩ := Prod.mk.inj he
  exact ⟨row', hrow', huid, hPQ row row' hid.symm hP⟩

theorem wp_finish {wallet : Option String} {invoice : Invoice} {result : BroadcastTxResult}
    (hmem : invoice ∈ s.invoices.rows) (huid : invoice.uid = option.invoice_uid)
    (hplugin : find env option.currency (orElse (some option.chain) option.currency) = .ok plugin)
    (hparse : ∀ transaction' c, transaction'.txhex = transaction.txhex →
      firstId (plugin.parsePayments transaction' c) = found) :
    (finish env wallet invoice option transaction result).wp A
      (fun _ t => OfRow s option.invoice_uid
        (Recordable env s invoice option transaction result found) ∧
          ∃ p, New option.invoice_uid s t p)
      (fun _ _ => OfRow s option.invoice_uid
        fun row => ¬ Recordable env s invoice option transaction result found row) s := by
  unfold finish
  rw [wp_bind]
  refine wp_mono (fun transaction' u hu => ?_)
    (fun _ _ hnot => ⟨invoice, hmem, huid, fun h => hnot h.1⟩) (wp_announce hmem)
  obtain ⟨rfl, hearly, hpay, hnames, hfree⟩ := hu
  have hrow : OfRow u option.invoice_uid fun _ => True :=
    OfRow.of_names (P := fun _ => True) hnames.symm (fun _ _ _ h => h)
      ⟨invoice, hmem, huid, trivial⟩
  have hhex : (afterBroadcast option transaction result).txhex = transaction.txhex := by
    unfold afterBroadcast
    split <;> rfl
  have hstorable : ∀ id (r r' : Invoice), r.id = r'.id → (Storable u Invoice.hash id r ↔
      Storable s (hashAfter option result invoice) id r') := by
    intro id r r' hid
    simp only [Storable, hid, hfree]
  rw [wp_bind]
  refine wp_mono (fun p t ht => ?_) (fun _ t ht => ?_)
    (wp_settleTransaction_iff (by simpa [OfRow] using hrow) hplugin fun c => hparse _ c hhex)
  · have hdone : OfRow s option.invoice_uid
        (Recordable env s invoice option transaction result found) :=
      ht.1.of_names hnames fun r r' hid h => ⟨hearly, (hstorable _ r r' hid).mp h⟩
    obtain ⟨hin, hout, hpuid⟩ := ht.2
    rw [hpay] at hout
    rw [wp_bind]
    cases nonEmpty wallet with
    | none => exact ⟨hdone, p, hin, hout, hpuid⟩
    | some wallet =>
        rw [wp_bind]
        refine Delegate.wp_update (fun now tb r hr hid hrows _ => ?_) fun now te herr => ?_
        · refine ⟨hdone, { r with wallet := some wallet }, ?_, ?_, ?_⟩
          · change _ ∈ tb.rows
            rw [hrows, ← hid]
            exact Table.mem_patch hr
          · intro q hq
            rw [show r.id = p.id from hid]
            exact hout q hq
          · rw [Table.eq_of_id hr hin hid]
            exact hpuid
        · -- the payment is there, and no column of it is unique
          rcases Table.update?_error herr with ⟨-, hnone⟩ | ⟨-, _, _, _, _, _, _, _, hne⟩
          · exact absurd rfl (hnone p hin)
          · exact absurd rfl hne
  · exact ht.of_names hnames fun r r' hid h hall => h ((hstorable _ r r' hid).mpr hall.2)

end Wp

/-! ## The run up to the broadcast -/

/-- A run in which the one transaction of a submission was verified and sent: the
rows its two queries picked, and what verification and broadcast answered. -/
structure Sent (env : Env) (request : SubmitPaymentRequest) (w : World) (o : Nat → Answer)
    (invoice : Invoice) (option : PaymentOption) (plugin : Plugin) (transaction : Transaction)
    (result : BroadcastTxResult) : Prop where
  transactions : request.transactions = [transaction]
  picked : w.invoices.pick (fun r => r.uid == request.invoice_uid) (o 0).row = some invoice
  unpaid : invoice.status = .unpaid
  offered : w.paymentOptions.pick (fun r => r.invoice_uid == request.invoice_uid &&
    r.currency == request.currency && r.chain == orElse request.chain request.currency)
    (o 1).row = some option
  registered : find env request.currency (orElse request.chain request.currency) = .ok plugin
  verified : plugin.verifyPayment option transaction (o 2) = .ok true
  sent : ∃ jobs, plugin.broadcastTx transaction (o 3) = .ok (result, jobs)

section Sent

variable {env : Env} {request : SubmitPaymentRequest} {w : World} {o : Nat → Answer}
  {invoice : Invoice} {option : PaymentOption} {plugin : Plugin} {transaction : Transaction}
  {result : BroadcastTxResult}

/-- Such a run has only `finish` left. -/
theorem Sent.exec (h : Sent env request w o invoice option plugin transaction result) :
    ∃ jobs, (submitPayment env request).exec o w =
      (finish env request.wallet invoice option transaction result).exec (fun n => o (n + 4))
        { w with jobs := w.jobs ++ jobs } := by
  obtain ⟨jobs, hsent⟩ := h.sent
  refine ⟨jobs, ?_⟩
  unfold submitPayment findPaymentOption
  simp only [bind_eq, pure_eq]
  rw [Delegate.exec_findFirstOrThrow_bind]
  simp only [prisma.invoices, h.picked]
  rw [if_neg (by simp [h.unpaid]), Delegate.exec_findFirst_bind]
  simp only [prisma.payment_options, tail_apply, h.offered]
  rw [exec_ofExcept_bind, h.registered]
  simp only [h.transactions, forEach, submitTransaction, bind_assoc, bind_eq]
  rw [ask, exec_query_bind]
  simp only [tail_apply, h.verified]
  rw [if_neg (by simp), bind_assoc, broadcastTransaction_eq, bind_assoc, broadcastTx, exec_step_bind]
  simp only [tail_apply, hsent]
  simp only [finish, bind_assoc, done_bind, pure_eq, List.map_cons, List.map_nil]
  rfl

/-- The submission resolves, and a payment of the invoice is recorded. -/
def Paid (env : Env) (request : SubmitPaymentRequest) (w : World) (o : Nat → Answer) : Prop :=
  ((submitPayment env request).exec o w).1.isOk = true ∧
  ∃ p, New request.invoice_uid w ((submitPayment env request).exec o w).2 p

/-- What was sent is paid just where it is recordable. -/
theorem Sent.paid_iff (h : Sent env request w o invoice option plugin transaction result)
    {found : Option String}
    (hparse : ∀ transaction' c, transaction'.txhex = transaction.txhex →
      firstId (plugin.parsePayments transaction' c) = found) :
    OfRow w request.invoice_uid fun row =>
      (Paid env request w o ↔ Recordable env w invoice option transaction result found row) := by
  obtain ⟨jobs, hexec⟩ := h.exec
  obtain ⟨hmem, hw⟩ := Table.pick_some h.picked
  obtain ⟨-, ho⟩ := Table.pick_some h.offered
  simp only [Bool.and_eq_true, beq_iff_eq] at hw ho
  obtain ⟨⟨hopt, hcurrency⟩, hchain⟩ := ho
  have hregistered := h.registered
  have hkey : orElse (some option.chain) option.currency =
      orElse request.chain request.currency := by
    rw [hchain, hcurrency]
    unfold orElse
    cases request.chain with
    | none => simp
    | some chain => by_cases hc : chain = "" <;> simp [hc]
  rw [← hkey, ← hcurrency] at hregistered
  have hmem' : invoice ∈ ({ w with jobs := w.jobs ++ jobs } : World).invoices.rows := hmem
  have hfinish : (finish env request.wallet invoice option transaction result).wp AnyAnswer
      (fun _ t => OfRow w option.invoice_uid
        (Recordable env w invoice option transaction result found) ∧
          ∃ p, New option.invoice_uid w t p)
      (fun _ _ => OfRow w option.invoice_uid
        fun row => ¬ Recordable env w invoice option transaction result found row)
      { w with jobs := w.jobs ++ jobs } :=
    wp_finish hmem' (hw.trans hopt.symm) hregistered hparse
  have hrun := wp_exec hfinish (anyAnswer fun n => o (n + 4))
  unfold Paid
  rw [hexec, ← hopt]
  cases hres : ((finish env request.wallet invoice option transaction result).exec
    (fun n => o (n + 4)) { w with jobs := w.jobs ++ jobs }).1 with
  | ok txhexes =>
      rw [hres] at hrun
      obtain ⟨⟨row, hrow, huid, hrecordable⟩, hnew⟩ := hrun
      refine ⟨row, hrow, huid, ?_⟩
      constructor
      · exact fun _ => hrecordable
      · exact fun _ => ⟨rfl, hnew⟩
  | error e =>
      rw [hres] at hrun
      obtain ⟨row, hrow, huid, hnot⟩ := hrun
      refine ⟨row, hrow, huid, ?_⟩
      constructor
      · rintro ⟨hfalse, -⟩
        cases hfalse
      · exact fun h => absurd h hnot

end Sent

/-! ## Plugin by plugin -/

/-- The classes of the registered plugins. -/
inductive Kind where
  | utxo (currency : String)
  | btc
  | fb
  | evm (plugin : EvmPlugin)
  | xrp
  | sol
  | tokenOfSolana (currency token : String)
  | xlm
  | xmr

def Kind.plugin (libraries : ChainLibraries) : Kind → Plugin
  | .utxo currency => UTXO.plugin libraries currency
  | .btc => BTC.plugin libraries
  | .fb => FB.plugin libraries
  | .evm plugin => plugin.plugin libraries
  | .xrp => XRP.plugin libraries
  | .sol => SOL.plugin libraries
  | .tokenOfSolana currency token => Anypay.tokenOfSolana currency token
  | .xlm => XLM.plugin
  | .xmr => XMR.plugin libraries

theorem kind_of_registered {libraries : ChainLibraries} {entry : String × Plugin}
    (h : entry ∈ plugins libraries) : ∃ kind : Kind, entry.2 = kind.plugin libraries := by
  simp only [plugins, List.mem_cons, List.not_mem_nil, or_false] at h
  rcases h with rfl | rfl | rfl | rfl | rfl | rfl | rfl | rfl | rfl | rfl | rfl | rfl | rfl |
    rfl | rfl | rfl | rfl | rfl | rfl | rfl | rfl | rfl
  · exact ⟨.btc, rfl⟩
  · exact ⟨.utxo "BSV", rfl⟩
  · exact ⟨.utxo "BCH", rfl⟩
  · exact ⟨.utxo "DASH", rfl⟩
  · exact ⟨.utxo "LTC", rfl⟩
  · exact ⟨.utxo "DOGE", rfl⟩
  · exact ⟨.evm AVAX, rfl⟩
  · exact ⟨.evm ETH, rfl⟩
  · exact ⟨.sol, rfl⟩
  · exact ⟨.xrp, rfl⟩
  · exact ⟨.xlm, rfl⟩
  · exact ⟨.xmr, rfl⟩
  · exact ⟨.evm MATIC, rfl⟩
  · exact ⟨.evm USDC_AVAX, rfl⟩
  · exact ⟨.evm USDC_MATIC, rfl⟩
  · exact ⟨.evm USDC_ETH, rfl⟩
  · exact ⟨.tokenOfSolana _ _, rfl⟩
  · exact ⟨.evm USDT_AVAX, rfl⟩
  · exact ⟨.evm USDT_MATIC, rfl⟩
  · exact ⟨.evm USDT_ETH, rfl⟩
  · exact ⟨.tokenOfSolana _ _, rfl⟩
  · exact ⟨.fb, rfl⟩

/-- A transaction with an output that has an address is a payment under its hash. -/
def utxoPayment (tx : BitcoreTransaction) : Option String :=
  if tx.outputs.any Option.isSome then some tx.hash else none

/-- The id of the payment in a raw transaction. On Solana and Monero none is
ever found; a token's transaction holds one where it calls `transfer` itself. -/
def Kind.paymentIn (libraries : ChainLibraries) (txhex : String) : Kind → Option String
  | .utxo currency => (libraries.bitcore currency txhex).bind utxoPayment
  | .btc => (libraries.bitcoinjs.fromHex txhex).bind utxoPayment
  | .fb => (libraries.bitcoinjs.fromHex txhex).bind utxoPayment
  | .evm plugin =>
      (libraries.parseTransaction txhex).bind fun tx =>
        if plugin.token = none ∨
            (tx.to_.map toLowerCase = plugin.token ∧ (transferCall tx.data).isSome = true) then
          some (tx.hash.getD "undefined")
        else none
  | .xrp =>
      if txhex = "" then none
      else (libraries.xrpl txhex).bind fun decoded =>
        if decoded.TransactionType = "Payment" then decoded.TxnSignature else none
  | .sol => none
  | .tokenOfSolana _ _ => none
  | .xlm => none
  | .xmr => none

section Kinds

variable {libraries : ChainLibraries} {txhex : String}

/-- One payment for each output with an address: the first is there if one is. -/
theorem head_of_outputs {β : Type} (outputs : List (Option TransactionOutput))
    (f : TransactionOutput → β) (hash : String) :
    ((outputs.filterMap fun o => o.map f).map fun _ => hash).head? =
      if outputs.any Option.isSome then some hash else none := by
  induction outputs with
  | nil => rfl
  | cons o outputs ih =>
      cases o with
      | none => simpa using ih
      | some output => simp

theorem bitcoinjs_first (txhex : String) :
    firstId (libraries.bitcoinjs.paymentIds txhex) =
      (libraries.bitcoinjs.fromHex txhex).bind utxoPayment := by
  simp only [Bitcoinjs.paymentIds]
  cases libraries.bitcoinjs.fromHex txhex with
  | none => rfl
  | some tx =>
      have hfirst := head_of_outputs tx.outputs id tx.hash
      simp only [Option.map_id_fun] at hfirst
      exact hfirst

/-- The plugin finds that payment. -/
theorem Kind.parsePayments_first (kind : Kind) (transaction : Transaction) (c : Answer) :
    firstId ((kind.plugin libraries).parsePayments transaction c) =
      kind.paymentIn libraries transaction.txhex := by
  cases kind with
  | utxo currency =>
      simp only [Kind.plugin, Kind.paymentIn, UTXO.plugin, Plugin.bitcorePayments, Plugin.decode,
        bitcorePlugin]
      cases libraries.bitcore currency transaction.txhex with
      | none => rfl
      | some tx => exact head_of_outputs tx.outputs _ tx.hash
  | btc => exact bitcoinjs_first transaction.txhex
  | fb => exact bitcoinjs_first transaction.txhex
  | evm plugin =>
      simp only [Kind.plugin, Kind.paymentIn, EvmPlugin.plugin, EVM.parsePayments,
        ERC20.parsePayments]
      cases plugin.token with
      | none => cases libraries.parseTransaction transaction.txhex <;> rfl
      | some token =>
          cases libraries.parseTransaction transaction.txhex with
          | none => rfl
          | some tx =>
              by_cases hto : tx.to_.map toLowerCase = some token
              · cases hcall : transferCall tx.data with
                | none => simp [hto, hcall, firstId, Except.map, Except.toOption]
                | some call =>
                    simp only [hto, hcall, Except.map, ne_eq, not_true_eq_false, if_false]
                    rw [Option.bind_some, if_pos (.inr ⟨hto, by simp [hcall]⟩)]
                    rfl
              · simp only [ne_eq, hto, not_false_eq_true, if_true, Option.bind_some, reduceCtorEq,
                  false_and, or_self, if_false]
                rfl
  | xrp =>
      simp only [Kind.plugin, Kind.paymentIn, XRP.plugin, XRP.parsePayments]
      by_cases hempty : transaction.txhex = ""
      · simp [hempty, firstId, Except.toOption]
      · simp only [if_neg hempty]
        cases libraries.xrpl transaction.txhex with
        | none => rfl
        | some decoded =>
            by_cases htype : decoded.TransactionType = "Payment"
            · cases hid : decoded.TxnSignature with
              | none => simp [htype, hid, paymentId, firstId, Except.toOption]
              | some id => simp [htype, hid, paymentId, firstId, Except.toOption]
            · simp [htype, firstId, Except.toOption]
  | sol => rfl
  | tokenOfSolana currency token => rfl
  | xlm => rfl
  | xmr => rfl

/-- Where a verified transaction is sure to hold a payment: the option asks for
an output, the token's transfer is in the transaction itself, the XRP transaction
is signed. -/
def Kind.Guarantees (libraries : ChainLibraries) (option : PaymentOption) (txhex : String) :
    Kind → Prop
  | .utxo _ => option.outputs ≠ some []
  | .btc => option.outputs ≠ some []
  | .fb => option.outputs ≠ some []
  | .evm plugin => plugin.token = none ∨
      ∃ tx ∈ libraries.parseTransaction txhex, (transferCall tx.data).isSome = true
  | .xrp => ∃ decoded ∈ libraries.xrpl txhex, decoded.TxnSignature.isSome = true
  | .sol => False
  | .tokenOfSolana _ _ => True
  | .xlm => True
  | .xmr => False

section Guarantees

variable {option : PaymentOption} {transaction : Transaction} {tx : BitcoreTransaction}

/-- An output that was found has an address. -/
theorem utxoPayment_of_paid {outputs : List PaymentOutput}
    {f : TransactionOutput → TransactionOutput}
    {target : PaymentOutput → Except Failure (Option String)}
    (hbuild : buildOutputs option = .ok outputs) (hne : option.outputs ≠ some [])
    (hpaid : verifyOutputs (tx.outputs.filterMap fun o => o.map f) target outputs = .ok true) :
    (utxoPayment tx).isSome = true := by
  rw [Verification.verifyOutputs_ok] at hpaid
  have hsome : ∃ output, output ∈ outputs := by
    unfold buildOutputs at hbuild
    cases ho : option.outputs with
    | none =>
        rw [ho] at hbuild
        cases ha : nonEmpty option.address with
        | none =>
            rw [ha] at hbuild
            cases hbuild
        | some address =>
            rw [ha] at hbuild
            obtain rfl := Except.ok.inj hbuild
            exact ⟨_, List.mem_singleton.mpr rfl⟩
    | some stored =>
        rw [ho] at hbuild hne
        obtain rfl := Except.ok.inj hbuild
        obtain ⟨output, hmem⟩ := List.exists_mem_of_ne_nil stored (by simpa using hne)
        exact ⟨_, List.mem_map_of_mem hmem⟩
  obtain ⟨output, hmem⟩ := hsome
  obtain ⟨paid, hin, -⟩ := hpaid output hmem
  obtain ⟨o, ho, hpaid⟩ := List.mem_filterMap.mp hin
  obtain ⟨first, rfl, -⟩ := Option.map_eq_some_iff.mp hpaid
  rw [utxoPayment, if_pos (List.any_eq_true.mpr ⟨some first, ho, rfl⟩)]
  rfl

theorem found_of_bitcoinjs
    (hverified : BTC.validateUnsignedTx libraries.bitcoinjs option [transaction] = .ok true)
    (hne : option.outputs ≠ some []) :
    ((libraries.bitcoinjs.fromHex transaction.txhex).bind utxoPayment).isSome = true := by
  simp only [BTC.validateUnsignedTx, Bitcoinjs.parsePayments] at hverified
  cases htx : libraries.bitcoinjs.fromHex transaction.txhex with
  | none =>
      rw [htx] at hverified
      cases hverified
  | some tx =>
      simp only [htx, except_bind_ok] at hverified
      obtain ⟨payments, hpayments, outputs, hbuild, hpaid⟩ := hverified
      obtain rfl := Except.ok.inj hpayments
      have hsame : (tx.outputs.filterMap id) = tx.outputs.filterMap fun o => o.map id := by
        simp only [Option.map_id_fun]
      rw [hsame] at hpaid
      exact utxoPayment_of_paid hbuild hne hpaid

/-- A transfer that verification took for the token's is a call of the token. -/
theorem found_of_transfer {plugin : EvmPlugin} {token : String}
    {node : Nat → String → Option ChainTransaction} {tx : EthersTransaction}
    (htoken : plugin.token = some token)
    (hverified : ERC20.verifyPayment plugin libraries.parseTransaction node option transaction =
      .ok true)
    (htx : libraries.parseTransaction transaction.txhex = some tx)
    (hcall : (transferCall tx.data).isSome = true) : tx.to_.map toLowerCase = some token := by
  obtain ⟨⟨address, amount⟩, hcall⟩ := Option.isSome_iff_exists.mp hcall
  rw [Evm.erc20_ok_iff htoken] at hverified
  simp only [htx, Option.bind_some, hcall, Option.map_some] at hverified
  obtain ⟨v, -, hmoved⟩ := Evm.moved_of_call htoken hcall
  exact ((hmoved tx.to_ tx.value _).mp hverified).1

/-- What verification accepts, the plugin parses again, where `Guarantees` says
so. -/
theorem Kind.found_of_verified (kind : Kind) {c : Answer}
    (hverified : (kind.plugin libraries).verifyPayment option transaction c = .ok true)
    (h : kind.Guarantees libraries option transaction.txhex) :
    (kind.paymentIn libraries transaction.txhex).isSome = true := by
  cases kind with
  | utxo currency =>
      simp only [Kind.plugin, UTXO.plugin, Plugin.validateUnsignedTx, Plugin.decode,
        bitcorePlugin] at hverified
      simp only [Kind.paymentIn]
      cases htx : libraries.bitcore currency transaction.txhex with
      | none =>
          rw [htx] at hverified
          cases hverified
      | some tx =>
          simp only [htx, except_bind_ok] at hverified
          obtain ⟨tx', htx', outputs, hbuild, hpaid⟩ := hverified
          obtain rfl := Except.ok.inj htx'
          exact utxoPayment_of_paid hbuild h hpaid
  | btc => exact found_of_bitcoinjs hverified h
  | fb => exact found_of_bitcoinjs hverified h
  | evm plugin =>
      simp only [Kind.plugin, EvmPlugin.plugin, EvmPlugin.verifyPayment] at hverified
      simp only [Kind.paymentIn]
      cases htoken : plugin.token with
      | none =>
          simp only [htoken, EVM.verifyPayment, EVM.parsePayments] at hverified
          cases htx : libraries.parseTransaction transaction.txhex with
          | none =>
              rw [htx] at hverified
              cases houtputs : option.outputs with
              | none =>
                  rw [houtputs] at hverified
                  cases hverified
              | some outputs =>
                  rw [houtputs] at hverified
                  cases hverified
          | some tx => simp
      | some token =>
          simp only [htoken] at hverified
          rcases h with hnone | ⟨tx, htx, hcall⟩
          · cases htoken.symm.trans hnone
          · have hto := found_of_transfer htoken hverified htx hcall
            rw [Option.mem_def.mp htx, Option.bind_some, if_pos (.inr ⟨hto, hcall⟩)]
            rfl
  | xrp =>
      obtain ⟨decoded, hdecoded, hsigned⟩ := h
      simp only [Kind.plugin, XRP.plugin, XRP.verifyPayment, XRP.parsePayments] at hverified
      simp only [Kind.paymentIn]
      by_cases hempty : transaction.txhex = ""
      · simp [hempty] at hverified
      · rw [if_neg hempty, Option.mem_def.mp hdecoded] at hverified
        rw [if_neg hempty, Option.mem_def.mp hdecoded, Option.bind_some]
        by_cases htype : decoded.TransactionType = "Payment"
        · rw [if_pos htype]
          exact hsigned
        · simp [htype] at hverified
  | sol => exact h.elim
  | tokenOfSolana currency token => cases hverified
  | xlm => cases hverified
  | xmr => exact h.elim

end Guarantees

end Kinds

/-! ## The main result -/

/-- **What was verified and sent is recorded just where an id is found and free.** For
every registered plugin and every run in which the one submitted transaction
passed its verification and went out: `submitPayment` resolves with a payment
recorded if and only if the invoice row that is settled is `Recordable`. -/
theorem recorded_iff (libraries : ChainLibraries) (env : Env)
    (henv : env.plugins = plugins libraries) {request : SubmitPaymentRequest} {w : World}
    {o : Nat → Answer} {invoice : Invoice} {option : PaymentOption} {plugin : Plugin}
    {transaction : Transaction} {result : BroadcastTxResult}
    (h : Sent env request w o invoice option plugin transaction result) :
    ∃ kind : Kind, plugin = kind.plugin libraries ∧
      ∃ row ∈ w.invoices.rows, row.uid = request.invoice_uid ∧
        (Paid env request w o ↔ Recordable env w invoice option transaction result
          (kind.paymentIn libraries transaction.txhex) row) := by
  have hmem := mem_of_find h.registered
  rw [henv] at hmem
  obtain ⟨kind, hkind⟩ := kind_of_registered hmem
  simp only at hkind
  subst hkind
  refine ⟨kind, rfl, h.paid_iff fun transaction' c hhex => ?_⟩
  rw [kind.parsePayments_first, hhex]

/-! ## A Solana payment without an id -/

/-- A server that reads one Solana transaction. -/
def wallets : ChainLibraries := { solana := fun _ => some {} }

def shop : Env := { plugins := plugins wallets }

/-- An unpaid invoice to be paid in SOL. -/
def counter : World where
  invoices := .single { id := 1, uid := "inv", status := .unpaid }
  paymentOptions := .single { id := 1, invoice_uid := "inv", currency := "SOL", chain := "SOL" }

def payment (txid : Option String) : SubmitPaymentRequest where
  currency := "SOL"
  invoice_uid := "inv"
  transactions := [{ txhex := "00", txid }]

theorem payment_sent (txid : Option String) :
    Sent shop (payment txid) counter (fun _ => {}) { id := 1, uid := "inv", status := .unpaid }
      { id := 1, invoice_uid := "inv", currency := "SOL", chain := "SOL" } (SOL.plugin wallets)
      { txhex := "00", txid } {} where
  transactions := rfl
  picked := rfl
  unpaid := rfl
  offered := rfl
  registered := rfl
  verified := rfl
  sent := ⟨[], rfl⟩

/-- Recorded under the client's id. -/
theorem recorded_solana : ∃ kind : Kind, SOL.plugin wallets = kind.plugin wallets ∧
    ∃ row ∈ counter.invoices.rows, row.uid = "inv" ∧
      (Paid shop (payment (some "sig")) counter (fun _ => {}) ↔
        Recordable shop counter { id := 1, uid := "inv", status := .unpaid }
          { id := 1, invoice_uid := "inv", currency := "SOL", chain := "SOL" }
          { txhex := "00", txid := some "sig" } {} (kind.paymentIn wallets "00") row) :=
  recorded_iff wallets shop rfl (payment_sent (some "sig"))

/-- Without one, `parsePayments` finds nothing, and the money that was sent stays
on an unpaid invoice. -/
theorem solana_lost :
    ¬ ∀ (libraries : ChainLibraries) (env : Env), env.plugins = plugins libraries →
      ∀ (request : SubmitPaymentRequest) (w : World) (o : Nat → Answer) (invoice : Invoice)
        (option : PaymentOption) (plugin : Plugin) (transaction : Transaction)
        (result : BroadcastTxResult),
        Sent env request w o invoice option plugin transaction result →
        Paid env request w o := by
  intro h
  have hpaid := h wallets shop rfl _ _ _ _ _ _ _ _ (payment_sent none)
  have hthrown : ((submitPayment shop (payment none)).exec (fun _ => {}) counter).1.isOk =
    false := by decide +kernel
  exact absurd (hpaid.1.symm.trans hthrown) (by decide)

end Recording

end Anypay
