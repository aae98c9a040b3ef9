/-
Anypay.PayTheorems — every payment path, proved once against any contract.

A submission reads, verifies, broadcasts, and then writes the ledger in a fixed
order: on SOL and XRP the invoice's hash, then a new payment row, then the
settled invoice, then perhaps the wallet of the payment. A `Discipline` says
what a contract allows at these four writes, as assertions that hold before,
between and after them. `meets_submitPayment` and its siblings
(`meets_jsonV2Payment`, `meets_bip270Payment`, `meets_bip70Payment`, …) show
that a call keeps the contract if its assertion holds once the call's own
check has let it through; `meets_completePayment` and
`meets_handleUnconfirmedPayment` are the same for the two functions that write.

The safety theorems about payments each bring their own contract and
discipline; none of them walks through the code again.
-/
import Anypay.LedgerTheorems

namespace Anypay

open Store Async Proc

/-! ## What every step leaves in place -/

/-- Rows are never deleted, and keep what they are about. -/
structure Grows (s t : World) : Prop where
  invoices : ∀ r ∈ s.invoices.rows, ∃ r' ∈ t.invoices.rows, r'.id = r.id ∧ r'.uid = r.uid
  payments : ∀ p ∈ s.payments.rows, ∃ p' ∈ t.payments.rows,
    p'.id = p.id ∧ p'.invoice_uid = p.invoice_uid ∧ p'.txid = p.txid

theorem Grows.refl (s : World) : Grows s s :=
  ⟨fun r hr => ⟨r, hr, rfl, rfl⟩, fun p hp => ⟨p, hp, rfl, rfl, rfl⟩⟩

theorem Grows.trans {s t u : World} (h : Grows s t) (h' : Grows t u) : Grows s u := by
  refine ⟨fun r hr => ?_, fun p hp => ?_⟩
  · obtain ⟨r', hr', hid, huid⟩ := h.invoices r hr
    obtain ⟨r'', hr'', hid', huid'⟩ := h'.invoices r' hr'
    exact ⟨r'', hr'', hid'.trans hid, huid'.trans huid⟩
  · obtain ⟨p', hp', hid, huid, htx⟩ := h.payments p hp
    obtain ⟨p'', hp'', hid', huid', htx'⟩ := h'.payments p' hp'
    exact ⟨p'', hp'', hid'.trans hid, huid'.trans huid, htx'.trans htx⟩

theorem Grows.of_ledger {s t : World} (h : t.ledger = s.ledger) : Grows s t := by
  simp only [World.ledger, Prod.mk.injEq] at h
  obtain ⟨hi, hp, -⟩ := h
  exact ⟨fun r hr => ⟨r, hi ▸ hr, rfl, rfl⟩, fun p hp' => ⟨p, hp ▸ hp', rfl, rfl, rfl⟩⟩

/-- Writing an invoice row that keeps its id and uid. -/
theorem Grows.of_invoices {t u : World} {i : Nat} {f : Invoice → Invoice}
    (hrows : u.invoices.rows = Table.patch i f t.invoices.rows)
    (hpay : u.payments = t.payments)
    (hf : ∀ r, (f r).id = r.id ∧ (f r).uid = r.uid) : Grows t u := by
  refine ⟨fun r hr => ?_, fun p hp => ⟨p, hpay ▸ hp, rfl, rfl, rfl⟩⟩
  refine ⟨if Record.id r = i then f r else r, ?_, ?_⟩
  · rw [hrows]
    exact List.mem_map.mpr ⟨r, hr, rfl⟩
  · split
    · exact hf r
    · exact ⟨rfl, rfl⟩

/-- Writing a payment row that keeps its id, its invoice and its txid. -/
theorem Grows.of_payments {t u : World} {i : Nat} {f : Payment → Payment}
    (hinv : u.invoices = t.invoices)
    (hrows : u.payments.rows = Table.patch i f t.payments.rows)
    (hf : ∀ p, (f p).id = p.id ∧ (f p).invoice_uid = p.invoice_uid ∧ (f p).txid = p.txid) :
    Grows t u := by
  refine ⟨fun r hr => ⟨r, hinv ▸ hr, rfl, rfl⟩, fun p hp => ?_⟩
  refine ⟨if Record.id p = i then f p else p, ?_, ?_⟩
  · rw [hrows]
    exact List.mem_map.mpr ⟨p, hp, rfl⟩
  · split
    · exact hf p
    · exact ⟨rfl, rfl, rfl⟩

theorem Grows.of_create {t u : World} {p : Payment} (hinv : u.invoices = t.invoices)
    (hrows : u.payments.rows = t.payments.rows ++ [p]) : Grows t u :=
  ⟨fun r hr => ⟨r, hinv ▸ hr, rfl, rfl⟩, fun p hp =>
    ⟨p, hrows ▸ List.mem_append_left _ hp, rfl, rfl, rfl⟩⟩

/-- The world has an invoice row with this id and uid. -/
def HasInvoice (id : Nat) (uid : String) (w : World) : Prop :=
  ∃ r ∈ w.invoices.rows, r.id = id ∧ r.uid = uid

theorem HasInvoice.grows {s t : World} {id : Nat} {uid : String}
    (h : HasInvoice id uid s) (hst : Grows s t) : HasInvoice id uid t := by
  obtain ⟨r, hr, rfl, rfl⟩ := h
  exact hst.invoices r hr

/-- The world has a payment row with this id, for this invoice. -/
def HasPayment (id : Nat) (uid : String) (w : World) : Prop :=
  ∃ p ∈ w.payments.rows, p.id = id ∧ p.invoice_uid = uid

theorem HasPayment.grows {s t : World} {id : Nat} {uid : String}
    (h : HasPayment id uid s) (hst : Grows s t) : HasPayment id uid t := by
  obtain ⟨p, hp, rfl, rfl⟩ := h
  obtain ⟨p', hp', hid, huid, -⟩ := hst.payments p hp
  exact ⟨p', hp', hid, huid⟩

/-- Which rows are there, and which uid each has. -/
def World.names (w : World) : List (Nat × String) :=
  w.invoices.rows.map fun r => (r.id, r.uid)

theorem World.names_patch {i : Nat} {f : Invoice → Invoice} {t u : World}
    (hrows : u.invoices.rows = Table.patch i f t.invoices.rows)
    (hf : ∀ x, (f x).id = x.id ∧ (f x).uid = x.uid) : u.names = t.names := by
  rw [names, names, hrows]
  refine List.map_map.trans (List.map_congr_left fun r _ => ?_)
  simp only [Function.comp]
  split
  · rw [(hf r).1, (hf r).2]
  · rfl

/-- The uid names one invoice. -/
def World.OneInvoice (w : World) (uid : String) : Prop :=
  ∀ r ∈ w.invoices.rows, ∀ r' ∈ w.invoices.rows, r.uid = uid → r'.uid = uid → r = r'

theorem World.OneInvoice.of_names {s u : World} {uid : String} (h : s.OneInvoice uid)
    (hnames : u.names = s.names) : u.OneInvoice uid := by
  have hback : ∀ r ∈ u.invoices.rows, ∃ r₀ ∈ s.invoices.rows, r₀.id = r.id ∧ r₀.uid = r.uid := by
    intro r hr
    have hmem : (r.id, r.uid) ∈ s.names := by
      rw [← hnames]
      exact List.mem_map.mpr ⟨r, hr, rfl⟩
    obtain ⟨r₀, hr₀, he⟩ := List.mem_map.mp hmem
    exact ⟨r₀, hr₀, (Prod.mk.inj he).1, (Prod.mk.inj he).2⟩
  intro r hr r' hr' hu hu'
  obtain ⟨r₀, hr₀, hid, huid⟩ := hback r hr
  obtain ⟨r₁, hr₁, hid', huid'⟩ := hback r' hr'
  have hsame := h r₀ hr₀ r₁ hr₁ (huid.trans hu) (huid'.trans hu')
  exact Table.eq_of_id hr hr' (hid.symm.trans ((congrArg Invoice.id hsame).trans hid'))

/-- The settling step, then the rest. -/
theorem exec_settleInvoice_bind {β : Type} {invoice : Invoice} {option : PaymentOption}
    {transaction : Transaction} {status : InvoiceStatus} {f : Time → Invoice → Invoice}
    {hid : ∀ t r, Record.id (f t r) = Record.id r} (k : Invoice → Task β) (o : Nat → Answer)
    (s : World) : ((settleInvoice invoice option transaction status f hid).bind k).exec o s =
      match s.invoices.update? invoice.id (f (o 0).now) (hid (o 0).now) with
      | .ok (r, t) => (k r).exec (tail o) { s with
          invoices := t
          settlements := s.settlements ++
            [{ invoice := invoice.id, uid := option.invoice_uid, chain := option.chain,
               currency := option.currency, transaction, status }] }
      | .error e => (.error (prisma.invoices.failure e), s) := by
  rw [settleInvoice, exec_step_bind]
  cases s.invoices.update? invoice.id (f (o 0).now) (hid (o 0).now) <;> rfl

/-- The settling step alone. -/
theorem wp_settleInvoice {A : Answer → Prop} {Q : Invoice → World → Prop}
    {E : Failure → World → Prop} {invoice : Invoice} {option : PaymentOption}
    {transaction : Transaction} {status : InvoiceStatus} {f : Time → Invoice → Invoice}
    {hid : ∀ t r, Record.id (f t r) = Record.id r} {s : World}
    (hok : ∀ now t, ∀ r ∈ s.invoices.rows, r.id = invoice.id →
      t.rows = Table.patch invoice.id (f now) s.invoices.rows → f now r ∈ t.rows →
      s.invoices.taken (f now r) = false →
      Q (f now r) { s with
        invoices := t
        settlements := s.settlements ++
          [{ invoice := invoice.id, uid := option.invoice_uid, chain := option.chain,
             currency := option.currency, transaction, status }] })
    (herr : ∀ now te, s.invoices.update? invoice.id (f now) (hid now) = .error te →
      E (prisma.invoices.failure te) s) :
    (settleInvoice invoice option transaction status f hid).wp A Q E s := by
  refine wp_step (fun c _ a ha => ?_) fun c e he => ?_
  · cases h : s.invoices.update? invoice.id (f c.now) (hid c.now) with
    | ok q =>
        obtain ⟨r', t⟩ := q
        obtain ⟨r, hr, hi, rfl, hrows, -, hfree⟩ := Table.update?_ok h
        simp only [h, Delegate.commit, Except.ok.injEq] at ha ⊢
        have hmem : f c.now r ∈ t.rows := by
          rw [hrows, ← hi]
          exact Table.mem_patch hr
        exact ha ▸ hok c.now t r hr hi hrows hmem hfree
    | error te =>
        rw [h] at ha
        cases ha
  · cases h : s.invoices.update? invoice.id (f c.now) (hid c.now) with
    | ok q =>
        rw [h] at he
        cases he
    | error te =>
        simp only [h, Delegate.commit, Except.error.injEq] at he ⊢
        exact he ▸ herr c.now te h

/-! ## The ids a payment may be stored under -/

/-- The ids `completePayment` may store for a transaction. -/
def StoredId (env : Env) (option : PaymentOption) (transaction : Transaction)
    (txid : String) : Prop :=
  match nonEmpty transaction.txid with
  | some given => txid = given
  | none =>
      if transaction.txhex.length = 66 then txid = transaction.txhex
      else ∃ plugin c rest,
        find env option.currency (orElse (some option.chain) option.currency) = .ok plugin ∧
          plugin.parsePayments transaction c = .ok (txid :: rest)

/-- The id `handleUnconfirmedPayment` stores. -/
def UnconfirmedId (env : Env) (option : PaymentOption) (transaction : Transaction)
    (txid : String) : Prop :=
  ∃ tx, decodeTransaction env option.chain transaction.txhex = .ok tx ∧
    txid = (nonEmpty transaction.txid).getD tx.hash

/-- The ids `settleTransaction` may store. -/
def PaysUnder (env : Env) (option : PaymentOption) (transaction : Transaction)
    (txid : String) : Prop :=
  if option.currency = "BTC" ∧ env.requireBtcConfirmations = true then
    UnconfirmedId env option transaction txid
  else StoredId env option transaction txid

/-- The transaction as the loop sees it after the broadcast: on XRP under the id
the broadcast returned. -/
def Broadcast (option : PaymentOption) (transaction transaction' : Transaction) : Prop :=
  transaction' = transaction ∨
    (option.chain = "XRP" ∧ ∃ txid, transaction' = { transaction with txid })

/-- What is stored for the transactions of a submission: `Stored` holds of every
option it may use and every id it may store. -/
def StoresOnly (env : Env) (uid currency chain : String) (transactions : List Transaction)
    (Stored : PaymentOption → Transaction → String → Prop) : Prop :=
  ∀ option transaction transaction' txid, option.invoice_uid = uid →
    option.currency = currency → option.chain = chain → transaction ∈ transactions →
    Broadcast option transaction transaction' → PaysUnder env option transaction' txid →
    Stored option transaction' txid

/-! ## Disciplines -/

/-- What settling makes of an invoice row. -/
structure Settled (txid : String) (status : InvoiceStatus) (r r' : Invoice) : Prop where
  id : r'.id = r.id
  uid : r'.uid = r.uid
  cancelled : r'.cancelled = r.cancelled
  hash : r'.hash = some txid
  status_eq : r'.status = status
  pays : status = .confirming ∨ status = .paid
  complete : r'.complete = true
  paidAt : r'.paidAt ≠ none
  completed_at : r'.completed_at ≠ none

variable {γ : Type}

/-- What a contract allows a submission for the invoice `uid` to write, given
which ids may be stored for which transactions. -/
structure Discipline (C : Contract World Answer γ) (uid : String)
    (Stored : PaymentOption → Transaction → String → Prop) where
  before : γ → World → Prop
  between : γ → World → Prop
  after : γ → World → Prop
  silent : ∀ {g s t}, t.ledger = s.ledger → C.guar g s t g ∧ C.rely g s t
  grows : ∀ {g s t}, C.rely g s t → Grows s t
  guar_grows : ∀ {g s t g'}, C.guar g s t g' → Grows s t
  before_stable : ∀ {g s t}, before g s → C.rely g s t → before g t
  between_stable : ∀ {g s t}, between g s → C.rely g s t → between g t
  after_stable : ∀ {g s t}, after g s → C.rely g s t → after g t
  /-- The hash a broadcast on SOL or XRP writes. -/
  hash : ∀ {g t}, before g t → ∀ r ∈ t.invoices.rows, r.uid = uid → ∀ h now tb,
    tb.rows = Table.patch r.id (fun x => { x with hash := some h, updatedAt := now })
      t.invoices.rows →
    ∃ g', C.guar g t { t with invoices := tb } g' ∧ before g' { t with invoices := tb }
  /-- The new payment row. -/
  create : ∀ {g t}, before g t → ∀ option transaction p tb,
    option.invoice_uid = uid → Stored option transaction p.txid →
    p.invoice_uid = uid → p.status = .confirming → p.id = t.payments.next →
    tb.rows = t.payments.rows ++ [p] →
    ∃ g', C.guar g t { t with payments := tb } g' ∧ between g' { t with payments := tb }
  /-- The settled invoice, and what the history records. -/
  settle : ∀ {g t}, between g t → ∀ r ∈ t.invoices.rows, r.uid = uid →
    ∀ option transaction txid status f tb ss, Stored option transaction txid →
    (∀ x, Settled txid status x (f x)) → t.invoices.taken (f r) = false →
    tb.rows = Table.patch r.id f t.invoices.rows →
    ss = t.settlements ++ [⟨r.id, uid, option.chain, option.currency, transaction, status⟩] →
    ∃ g', C.guar g t { t with invoices := tb, settlements := ss } g' ∧
      after g' { t with invoices := tb, settlements := ss }
  /-- The wallet of the payment. -/
  wallet : ∀ {g t}, after g t → ∀ i w tb,
    tb.rows = Table.patch i (fun x => { x with wallet := some w }) t.payments.rows →
    ∃ g', C.guar g t { t with payments := tb } g' ∧ after g' { t with payments := tb }

/-- Nothing is asked of how a call ends. -/
def Anyhow {α : Type} : α → γ → World → Prop := fun _ _ _ => True

variable {C : Contract World Answer γ} {uid : String}
  {Stored : PaymentOption → Transaction → String → Prop} (D : Discipline C uid Stored)
  {α β : Type} {g : γ} {s : World}

/-- Writing an invoice row of which the id and the uid are known, then the
rest. -/
theorem meets_updateInvoice_bind {R : β → γ → World → Prop} {k : Invoice → Task β}
    {id : Nat} {f : Time → Invoice → Invoice} {hid : ∀ t r, Record.id (f t r) = Record.id r}
    (hgrows : ∀ {t}, C.rely g s t → Grows s t) (hhas : HasInvoice id uid s)
    (hok : ∀ t, C.rely g s t → ∀ now tb, ∀ r ∈ t.invoices.rows, r.id = id → r.uid = uid →
      tb.rows = Table.patch r.id (f now) t.invoices.rows →
      ∃ g', C.guar g t { t with invoices := tb } g' ∧
        (k (f now r)).Meets C R Anyhow g' { t with invoices := tb }) :
    ((prisma.invoices.update id f hid).bind k).Meets C R Anyhow g s := by
  refine Delegate.meets_update_bind (fun t hst now tb r hr hi hrows _ => ?_)
    fun _ _ _ _ _ _ _ => trivial
  obtain ⟨r₀, hr₀, hi₀, hu₀⟩ := hhas.grows (hgrows hst)
  obtain rfl : r = r₀ := Table.eq_of_id hr hr₀ (hi.trans hi₀.symm)
  rw [← hi₀] at hrows
  exact hok t hst now tb r hr hi₀ hu₀ hrows

/-- The refusal of a paid or cancelled invoice, then the rest with a copy of an
invoice of that uid. -/
theorem meets_ensurePayable_bind {R : β → γ → World → Prop} {k : Invoice → Task β}
    (hk : ∀ t, C.rely g s t → ∀ invoice : Invoice, invoice.uid = uid →
      (k invoice).Meets C R Anyhow g t) :
    ((ensurePayable uid).bind k).Meets C R Anyhow g s := by
  unfold ensurePayable
  simp only [bind_eq, pure_eq, Proc.bind_assoc]
  refine Delegate.meets_findFirstOrThrow_bind (fun t hst invoice _ hw => ?_)
    fun _ _ _ _ _ => trivial
  split
  · exact fun _ _ => trivial
  · split
    · exact fun _ _ => trivial
    · exact hk t hst invoice (by simpa using hw)

namespace Discipline

include D in
/-- A call that leaves the ledger alone, then the rest. -/
theorem meets_keeps_bind {R : β → γ → World → Prop} {p : Task α} {f : α → Task β}
    (hp : p.Keeps World.ledger)
    (hf : ∀ t, C.rely g s t → ∀ a, (f a).Meets C R Anyhow g t) :
    (p.bind f).Meets C R Anyhow g s :=
  Proc.meets_keeps_bind hp (fun _ _ h => D.silent h) hf fun _ _ _ => trivial

include D in
theorem hasInvoice_stable {id : Nat} {uid' : String} {t : World}
    (h : HasInvoice id uid' s) (hst : C.rely g s t) : HasInvoice id uid' t :=
  h.grows (D.grows hst)

theorem meets_settleInvoice_bind {R : β → γ → World → Prop} {k : Invoice → Task β}
    {invoice : Invoice} {option : PaymentOption} {transaction : Transaction}
    {txid : String} {status : InvoiceStatus} {f : Time → Invoice → Invoice}
    {hid : ∀ t r, Record.id (f t r) = Record.id r}
    (hb : D.between g s) (hinv : HasInvoice invoice.id uid s)
    (huid : option.invoice_uid = uid) (hstored : Stored option transaction txid)
    (hf : ∀ now x, Settled txid status x (f now x))
    (hk : ∀ g' t r, D.after g' t → (k r).Meets C R Anyhow g' t) :
    ((settleInvoice invoice option transaction status f hid).bind k).Meets C R Anyhow
      g s := by
  subst huid
  refine meets_bind (meets_step fun t hst c _ => ?_)
  cases h : t.invoices.update? invoice.id (f c.now) (hid c.now) with
  | ok q =>
      obtain ⟨row, tb⟩ := q
      obtain ⟨r, hr, hi, rfl, hrows, -, hfree⟩ := Table.update?_ok h
      obtain ⟨r₀, hr₀, hi₀, huid₀⟩ := D.hasInvoice_stable hinv hst
      obtain rfl : r = r₀ := Table.eq_of_id hr hr₀ (hi.trans hi₀.symm)
      obtain ⟨g', hguar, hafter⟩ := D.settle (D.between_stable hb hst) r hr huid₀
        option transaction txid status (f c.now) tb _ hstored (hf c.now) hfree
        (by rw [hrows, hi₀]) rfl
      rw [hi₀] at hguar hafter
      exact ⟨g', hguar, fun _ _ u hu => meets_mono_rely (hk g' _ _ hafter) hu,
        fun _ he => (by cases he)⟩
  | error e =>
      exact ⟨g, C.guar_refl g t, fun _ ha => (nomatch ha), fun _ _ _ _ => trivial⟩

/-- `handleUnconfirmedPayment` keeps the contract. -/
theorem meets_handleUnconfirmedPayment (env : Env) {option : PaymentOption}
    {transaction : Transaction} (huid : option.invoice_uid = uid)
    (hstored : ∀ txid, UnconfirmedId env option transaction txid →
      Stored option transaction txid) (hb : D.before g s) :
    (handleUnconfirmedPayment env option transaction).Meets C (fun _ => D.after) Anyhow
      g s := by
  unfold handleUnconfirmedPayment
  simp only [bind_eq, pure_eq]
  refine meets_ofExcept_bind (fun tx htx => ?_) fun _ _ _ => trivial
  have hid : Stored option transaction ((nonEmpty transaction.txid).getD tx.hash) :=
    hstored _ ⟨tx, htx, rfl⟩
  refine Delegate.meets_findFirstOrThrow_bind (fun t hst invoice hinv hw => ?_)
    fun _ _ _ _ _ => trivial
  have hbt := D.before_stable hb hst
  have hhas : HasInvoice invoice.id uid t := ⟨invoice, hinv, rfl, by simpa [huid] using hw⟩
  refine Delegate.meets_create_bind (fun u htu now tb hrows => ?_) fun _ _ => trivial
  obtain ⟨g', hguar, hbetween⟩ := D.create (D.before_stable hbt htu) option transaction
    _ tb huid hid huid rfl rfl hrows
  have hhas' : HasInvoice invoice.id uid u := D.hasInvoice_stable hhas htu
  refine ⟨g', hguar, D.meets_settleInvoice_bind hbetween hhas' huid hid
    (fun _ _ => ⟨rfl, rfl, rfl, rfl, rfl, .inl rfl, rfl, fun h => (by cases h),
      fun h => (by cases h)⟩) ?_⟩
  intro g'' v r hafter
  refine D.meets_keeps_bind (keeps_publish_ledger _ _) fun v' hv _ => ?_
  exact fun w hw => D.after_stable (D.after_stable hafter hv) hw

/-- What `paymentTxid` may return. -/
theorem meets_paymentTxid_bind {R : β → γ → World → Prop} {f : String → Task β}
    (env : Env) {option : PaymentOption} {transaction : Transaction}
    (hf : ∀ t, C.rely g s t → ∀ txid, StoredId env option transaction txid →
      (f txid).Meets C R Anyhow g t) :
    ((paymentTxid env option (orElse (some option.chain) option.currency)
      transaction).bind f).Meets C R Anyhow g s := by
  have hself := C.rely_refl g s
  unfold paymentTxid
  unfold StoredId at hf
  split
  · rename_i txid hgiven
    exact hf s hself txid (by rw [hgiven])
  · rename_i hnone
    rw [hnone] at hf
    split
    · rename_i hlen
      exact hf s hself transaction.txhex (by rw [if_pos hlen])
    · rename_i hlen
      simp only [if_neg hlen] at hf
      simp only [bind_eq, pure_eq, throw_eq, Proc.bind_assoc]
      refine meets_ofExcept_bind (fun plugin hplugin => ?_) fun _ _ _ => trivial
      refine meets_query_bind (fun t hst c _ ids hids => ?_) fun _ _ _ _ _ _ _ => trivial
      split
      · rename_i txid rest
        exact hf t hst txid ⟨plugin, c, rest, hplugin, hids⟩
      · exact fun _ _ => trivial

/-- `completePayment` keeps the contract. -/
theorem meets_completePayment (env : Env) {option : PaymentOption}
    {transaction : Transaction} {confirming : Bool} (huid : option.invoice_uid = uid)
    (hstored : ∀ txid, StoredId env option transaction txid →
      Stored option transaction txid) (hb : D.before g s) :
    (completePayment env option transaction confirming).Meets C (fun _ => D.after)
      Anyhow g s := by
  unfold completePayment
  simp only [bind_eq, pure_eq]
  refine meets_paymentTxid_bind env fun t hst txid htxid => ?_
  have hid := hstored txid htxid
  refine Delegate.meets_findFirstOrThrow_bind (fun u htu invoice hinv hw => ?_)
    fun _ _ _ _ _ => trivial
  have hbu := D.before_stable (D.before_stable hb hst) htu
  have hhas : HasInvoice invoice.id uid u := ⟨invoice, hinv, rfl, by simpa [huid] using hw⟩
  refine Delegate.meets_create_bind (fun v huv now tb hrows => ?_) fun _ _ => trivial
  obtain ⟨g', hguar, hbetween⟩ := D.create (D.before_stable hbu huv) option transaction
    _ tb huid hid huid rfl rfl hrows
  have hhas' : HasInvoice invoice.id uid v := D.hasInvoice_stable hhas huv
  refine ⟨g', hguar, D.meets_settleInvoice_bind hbetween hhas' huid hid (fun _ _ => ?_) ?_⟩
  · refine ⟨rfl, rfl, rfl, rfl, rfl, ?_, rfl, fun h => (by cases h), fun h => (by cases h)⟩
    cases confirming <;> simp
  · intro g'' x r hafter
    refine Delegate.meets_findFirstOrThrow_bind (fun y hxy _ _ _ => ?_)
      fun _ _ _ _ _ => trivial
    refine D.meets_keeps_bind (keeps_detached (keeps_publishEvent _ _)) fun y' hy _ => ?_
    refine D.meets_keeps_bind (keeps_spawn_ledger _) fun y'' hy' _ => ?_
    exact fun z hz => D.after_stable
      (D.after_stable (D.after_stable (D.after_stable hafter hxy) hy) hy') hz

/-- `settleTransaction` keeps the contract. -/
theorem meets_settleTransaction (env : Env) {invoice : Invoice} {option : PaymentOption}
    {transaction : Transaction} (huid : option.invoice_uid = uid)
    (hstored : ∀ txid, PaysUnder env option transaction txid →
      Stored option transaction txid) (hb : D.before g s) :
    (settleTransaction env invoice option transaction).Meets C (fun _ => D.after) Anyhow
      g s := by
  unfold settleTransaction
  unfold PaysUnder at hstored
  split
  · rename_i hbtc
    simp only [if_pos hbtc] at hstored
    simp only [bind_eq, pure_eq]
    refine meets_bind (meets_mono (fun _ g' t hafter => ?_) (fun _ _ _ h => h)
      (D.meets_handleUnconfirmedPayment env huid hstored hb))
    refine D.meets_keeps_bind (keeps_spawn_ledger _) fun t' ht _ => ?_
    exact fun u hu => D.after_stable (D.after_stable hafter ht) hu
  · rename_i hbtc
    simp only [if_neg hbtc] at hstored
    split
    · exact D.meets_completePayment env huid hstored hb
    · exact D.meets_completePayment env huid hstored hb

/-- The hash a broadcast writes, then the rest. -/
theorem meets_updateHash_bind {R : β → γ → World → Prop} {k : Invoice → Task β}
    {invoice : Invoice} {h : String} (hb : D.before g s)
    (hhas : HasInvoice invoice.id uid s)
    (hk : ∀ g' t r, D.before g' t → HasInvoice invoice.id uid t →
      (k r).Meets C R Anyhow g' t) :
    ((prisma.invoices.update invoice.id fun now r =>
      { r with hash := some h, updatedAt := now }).bind k).Meets C R Anyhow g s := by
  refine meets_updateInvoice_bind D.grows hhas fun t hst now tb r hr hi hu hrows => ?_
  obtain ⟨g', hguar, hb'⟩ := D.hash (D.before_stable hb hst) r hr hu h now tb hrows
  refine ⟨g', hguar, hk g' _ _ hb' ?_⟩
  refine ⟨{ r with hash := some h, updatedAt := now }, ?_, hi, hu⟩
  change _ ∈ tb.rows
  rw [hrows]
  exact List.mem_map.mpr ⟨r, hr, if_pos rfl⟩

/-- `broadcastTransaction` keeps the contract, and what holds before the payment
row is written still holds after it. -/
theorem meets_broadcastTransaction {plugin : Plugin} {invoice : Invoice}
    {option : PaymentOption} {transaction : Transaction} (hb : D.before g s)
    (hhas : HasInvoice invoice.id uid s) :
    (broadcastTransaction plugin invoice option transaction).Meets C
      (fun transaction' g' t => D.before g' t ∧ Broadcast option transaction transaction')
      Anyhow g s := by
  unfold broadcastTransaction
  simp only [bind_eq, pure_eq]
  split
  · refine D.meets_keeps_bind (keeps_broadcastTx _ _) fun t hst _ => ?_
    refine D.meets_updateHash_bind (D.before_stable hb hst)
      (D.hasInvoice_stable hhas hst) fun g' u r hbu _ => ?_
    exact fun v hv => ⟨D.before_stable hbu hv, .inl rfl⟩
  · split
    · rename_i hxrp
      refine D.meets_keeps_bind (keeps_broadcastTx _ _) fun t hst response => ?_
      refine D.meets_updateHash_bind (D.before_stable hb hst)
        (D.hasInvoice_stable hhas hst) fun g' u r hbu _ => ?_
      exact fun v hv => ⟨D.before_stable hbu hv, .inr ⟨hxrp, response.txid, rfl⟩⟩
    · refine D.meets_keeps_bind (keeps_broadcastTx _ _) fun t hst _ => ?_
      exact fun u hu => ⟨D.before_stable (D.before_stable hb hst) hu, .inl rfl⟩

/-- The wallet of a payment, then the end. -/
theorem meets_updateWallet {option : Option String} {i : Nat} (ha : D.after g s) :
    (match option with
      | none => done ()
      | some wallet => (prisma.payments.update i fun _ r =>
          { r with wallet := some wallet }).bind fun _ => done ()).Meets C
      (fun _ => D.after) Anyhow g s := by
  split
  · exact fun t hst => D.after_stable ha hst
  · rename_i w
    refine Delegate.meets_update_bind (fun t hst _ tb _ _ _ hrows _ => ?_)
      fun _ _ _ _ _ _ _ => trivial
    obtain ⟨g', hguar, ha'⟩ := D.wallet (D.after_stable ha hst) i w tb hrows
    exact ⟨g', hguar, fun u hu => D.after_stable ha' hu⟩

/-- One round of the loop keeps the contract. -/
theorem meets_submitTransaction (env : Env) {payment : SubmitPaymentRequest}
    {invoice : Invoice} {option : PaymentOption} {plugin : Plugin}
    {transaction : Transaction} (huid : option.invoice_uid = uid)
    (hstored : ∀ transaction' txid, Broadcast option transaction transaction' →
      PaysUnder env option transaction' txid → Stored option transaction' txid)
    (hb : D.before g s) (hhas : HasInvoice invoice.id uid s) :
    (submitTransaction env payment invoice option plugin transaction).Meets C
      (fun _ => D.after) Anyhow g s := by
  unfold submitTransaction
  simp only [bind_eq, pure_eq]
  refine meets_ask_bind (fun t hst verified => ?_) fun _ _ _ => trivial
  split
  · exact fun _ _ => trivial
  · refine meets_bind (meets_mono (fun transaction' g' u hu => ?_) (fun _ _ _ h => h)
      (D.meets_broadcastTransaction (D.before_stable hb hst)
        (D.hasInvoice_stable hhas hst)))
    obtain ⟨hbu, hbroadcast⟩ := hu
    refine meets_bind (meets_mono (fun record g'' v hv => ?_) (fun _ _ _ h => h)
      (D.meets_settleTransaction env huid (hstored transaction' · hbroadcast) hbu))
    exact D.meets_updateWallet hv

/-- A loop over the submitted transactions: one round at most, or rounds that
leave what the next one needs. -/
theorem meets_transactions {τ : Type} {transactions : List τ} {body : τ → Task Unit}
    {id : Nat}
    (hbody : ∀ x ∈ transactions, ∀ g t, D.before g t → HasInvoice id uid t →
      (body x).Meets C (fun _ => D.after) Anyhow g t)
    (honce : transactions.length ≤ 1 ∨ ∀ {g t}, D.after g t → D.before g t)
    (hb : D.before g s) (hhas : HasInvoice id uid s) :
    (forEach transactions body).Meets C Anyhow Anyhow g s := by
  rcases honce with hlen | hagain
  · match transactions, hlen with
    | [], _ => exact fun _ _ => trivial
    | [x], _ =>
        exact meets_bind (meets_mono (fun _ _ _ _ _ _ => trivial) (fun _ _ _ h => h)
          (hbody x (by simp) g s hb hhas))
  · have hstable : ∀ g s t, D.before g s ∧ HasInvoice id uid s → C.rely g s t →
        D.before g t ∧ HasInvoice id uid t := fun _ _ _ h hst =>
      ⟨D.before_stable h.1 hst, D.hasInvoice_stable h.2 hst⟩
    refine meets_mono (fun _ _ _ _ => trivial) (fun _ _ _ h => h)
      (meets_forEach hstable (fun x hx g t h => ?_) ⟨hb, hhas⟩)
    have hround := meets_frame (fun h hst => D.hasInvoice_stable h hst)
      (fun h hst => h.grows (D.guar_grows hst)) h.2 (hbody x hx g t h.1 h.2)
    exact meets_mono (fun _ _ _ h => ⟨hagain h.1, h.2⟩) (fun _ _ _ _ => trivial) hround

/-- `submitPayment` keeps the contract, if what must hold before its first write
holds wherever the invoice is found unpaid. -/
theorem meets_submitPayment (env : Env) {payment : SubmitPaymentRequest}
    (huid : payment.invoice_uid = uid)
    (hstored : StoresOnly env uid payment.currency (orElse payment.chain payment.currency)
      payment.transactions Stored)
    (honce : payment.transactions.length ≤ 1 ∨ ∀ {g t}, D.after g t → D.before g t)
    (hready : ∀ t, C.rely g s t → ∀ r ∈ t.invoices.rows, r.uid = uid →
      r.status = .unpaid → D.before g t) :
    (submitPayment env payment).Meets C Anyhow Anyhow g s := by
  unfold submitPayment findPaymentOption
  simp only [bind_eq, pure_eq]
  refine Delegate.meets_findFirstOrThrow_bind (fun t hst invoice hinv hw => ?_)
    fun _ _ _ _ _ => trivial
  have hiu : invoice.uid = uid := by simpa [huid] using hw
  split
  · exact fun _ _ => trivial
  · rename_i hunpaid
    have hb := hready t hst invoice hinv hiu (not_not.mp hunpaid)
    have hhas : HasInvoice invoice.id uid t := ⟨invoice, hinv, rfl, hiu⟩
    refine Delegate.meets_findFirst_bind (fun u htu option _ hopt => ?_)
      fun _ _ _ => fun _ _ => trivial
    simp only [Bool.and_eq_true, beq_iff_eq] at hopt
    obtain ⟨⟨houid, hcur⟩, hchain⟩ := hopt
    refine meets_ofExcept_bind (fun plugin _ => ?_) fun _ _ _ => trivial
    refine meets_bind (meets_mono (fun _ _ _ _ _ _ => trivial) (fun _ _ _ h => h)
      (D.meets_transactions (fun tx htx g' v hv hhas' => ?_) honce
        (D.before_stable hb htu) (D.hasInvoice_stable hhas htu)))
    have hou : option.invoice_uid = uid := houid.trans huid
    exact D.meets_submitTransaction env hou
      (fun tx' txid hbr hpays => hstored option tx tx' txid hou hcur hchain htx hbr hpays)
      hv hhas'

/-- One transaction of a BIP70 payment keeps the contract. -/
theorem meets_bip70Transaction (env : Env) {plugin : Plugin} {option : PaymentOption}
    {txhex : String} (huid : option.invoice_uid = uid)
    (hstored : ∀ txid, StoredId env option { txhex } txid → Stored option { txhex } txid)
    (hb : D.before g s) :
    (bip70Transaction env plugin option txhex).Meets C (fun _ => D.after) Anyhow g s := by
  unfold bip70Transaction
  simp only [bind_eq, pure_eq]
  refine meets_ofExcept_bind (fun _ _ => ?_) fun _ _ _ => trivial
  refine D.meets_keeps_bind (keeps_broadcastTx _ _) fun t hst _ => ?_
  refine meets_bind (meets_mono (fun _ g' u hu => ?_) (fun _ _ _ h => h)
    (D.meets_completePayment env huid hstored (D.before_stable hb hst)))
  exact fun v hv => D.after_stable hu hv

end Discipline

/-! ## Every call that pays -/

/-- The check a paying call makes first lets it through in this world. -/
def Op.Passes (w : World) : Op → Prop
  | .bip70Payment uid _ _ => ∃ r ∈ w.invoices.rows, r.uid = uid ∧ r.cancelled = false
  | .recordPayment invoice _ => ∀ p ∈ w.payments.rows, p.invoice_uid ≠ invoice.uid
  | op => ∃ r ∈ w.invoices.rows, op.pays = some r.uid ∧ r.status = .unpaid

/-- What is stored for the transactions a call submits. -/
def Op.Stores (env : Env) (Stored : PaymentOption → Transaction → String → Prop) :
    Op → Prop
  | .submitPayment payment =>
      StoresOnly env payment.invoice_uid payment.currency
        (orElse payment.chain payment.currency) payment.transactions Stored
  | .jsonV2Payment uid currency chain transactions =>
      StoresOnly env uid currency (orElse chain currency) transactions Stored
  | .jsonPaymentRequest uid currency chain transactions _ =>
      StoresOnly env uid currency.toUpper (orElse (some chain.toUpper) currency.toUpper)
        transactions Stored
  | .bip270Payment uid txhex _ => StoresOnly env uid "BSV" "BSV" [{ txhex }] Stored
  | .bip70Payment uid code transactions =>
      ∀ option txhex txid, option.invoice_uid = uid → option.currency = code →
        txhex ∈ transactions → StoredId env option { txhex } txid →
        Stored option { txhex } txid
  | .recordPayment invoice details =>
      ∀ option : PaymentOption, option.invoice_uid = invoice.uid →
        option.currency = details.currency →
        Stored option { txhex := details.txhex, txid := some details.txid } details.txid
  | _ => True

/-- Every call that submits a payment keeps the contract, if what must hold
before its first write holds wherever its own check lets it through. -/
theorem Discipline.meets_program (env : Env) {op : Op} (hpays : op.pays = some uid)
    (hstored : op.Stores env Stored)
    (honce : op.transactionCount ≤ 1 ∨ ∀ {g t}, D.after g t → D.before g t)
    (hready : ∀ t, C.rely g s t → op.Passes t → D.before g t) :
    (program env op).Meets C Anyhow Anyhow g s := by
  cases op with
  | submitPayment payment =>
      obtain rfl := Option.some.inj hpays
      exact meets_discard (D.meets_submitPayment env rfl hstored honce
        fun t hst r hr hu hs => hready t hst ⟨r, hr, congrArg some hu.symm, hs⟩)
  | jsonV2Payment uid' currency chain transactions =>
      obtain rfl := Option.some.inj hpays
      refine meets_discard (Q := Anyhow) (meets_ensurePayable_bind fun t hst _ _ => ?_)
      refine meets_ensurePayable_bind fun u htu invoice hiu => ?_
      refine D.meets_submitPayment env hiu hstored honce fun v huv r hr hu hs => ?_
      exact hready v (C.rely_trans (C.rely_trans hst htu) huv)
        ⟨r, hr, congrArg some hu.symm, hs⟩
  | jsonPaymentRequest uid' currency chain transactions wallet =>
      obtain rfl := Option.some.inj hpays
      exact meets_discard (D.meets_submitPayment env rfl hstored honce
        fun t hst r hr hu hs => hready t hst ⟨r, hr, congrArg some hu.symm, hs⟩)
  | bip270Payment uid' txhex wallet =>
      obtain rfl := Option.some.inj hpays
      refine meets_discard (Q := Anyhow) (Delegate.meets_findFirstOrThrow_bind (fun t hst invoice _ _ => ?_)
        fun _ _ _ _ _ => trivial)
      split
      · exact fun _ _ => trivial
      · refine D.meets_submitPayment env rfl hstored honce fun u htu r hr hu hs => ?_
        exact hready u (C.rely_trans hst htu) ⟨r, hr, congrArg some hu.symm, hs⟩
  | bip70Payment uid' code transactions =>
      obtain rfl := Option.some.inj hpays
      simp only [program, bip70Payment, bind_eq]
      refine meets_ofExcept_bind (fun plugin _ => ?_) fun _ _ _ => trivial
      refine Delegate.meets_findFirstOrThrow_bind (fun t hst option _ ho => ?_)
        fun _ _ _ _ _ => trivial
      simp only [Bool.and_eq_true, beq_iff_eq] at ho
      refine Delegate.meets_findFirstOrThrow_bind (fun u htu invoice hinv hw => ?_)
        fun _ _ _ _ _ => trivial
      have hiu : invoice.uid = uid' := by simpa using hw
      split
      · exact fun _ _ => trivial
      · rename_i hcancelled
        have hb := hready u (C.rely_trans hst htu)
          ⟨invoice, hinv, hiu, by simpa using hcancelled⟩
        refine D.meets_keeps_bind (keeps_forEach fun _ _ => keeps_spawn_ledger _)
          fun v huv _ => ?_
        refine D.meets_transactions (fun txhex hmem g' v' hv' _ => ?_) honce
          (D.before_stable hb huv)
          (D.hasInvoice_stable ⟨invoice, hinv, rfl, hiu⟩ huv)
        exact D.meets_bip70Transaction env ho.1
          (fun txid hid => hstored option txhex txid ho.1 ho.2 hmem hid) hv'
  | recordPayment invoice details =>
      obtain rfl := Option.some.inj hpays
      refine meets_discard (Q := Anyhow) (Delegate.meets_findFirst_bind (fun _ _ _ _ _ => fun _ _ => trivial)
        fun t hst hnone => ?_)
      have hb := hready t hst fun p hp => by simpa using hnone p hp
      refine Delegate.meets_findFirstOrThrow_bind (fun u htu option _ ho => ?_)
        fun _ _ _ _ _ => trivial
      simp only [Bool.and_eq_true, beq_iff_eq] at ho
      rw [← Proc.bind_done (prisma.payments.create _ _)]
      refine Delegate.meets_create_bind (fun v huv now tb hrows => ?_) fun _ _ => trivial
      obtain ⟨g', hguar, -⟩ := D.create (D.before_stable (D.before_stable hb htu) huv)
        option _ _ tb ho.1 (hstored option ho.1 ho.2) rfl rfl rfl hrows
      exact ⟨g', hguar, fun _ _ => trivial⟩
  | _ => cases hpays

/-- The discipline of a call that never gets to write. -/
def Discipline.never : Discipline C uid fun _ _ _ => True where
  before _ _ := False
  between _ _ := False
  after _ _ := False
  silent := D.silent
  grows := D.grows
  guar_grows := D.guar_grows
  before_stable h _ := h
  between_stable h _ := h
  after_stable h _ := h
  hash h := h.elim
  create h := h.elim
  settle h := h.elim
  wallet h := h.elim

theorem Op.stores_anything (env : Env) (op : Op) : op.Stores env fun _ _ _ => True := by
  cases op <;> simp [Op.Stores, StoresOnly]

include D in
/-- A call its own check refuses keeps the contract, whatever it submits. -/
theorem Discipline.meets_refused (env : Env) {op : Op} (hpays : op.pays = some uid)
    (hrefused : ∀ t, C.rely g s t → ¬ op.Passes t) :
    (program env op).Meets C Anyhow Anyhow g s :=
  D.never.meets_program env hpays (op.stores_anything env) (.inr id) hrefused

end Anypay
