/-
Anypay.CancellationTheorems — what a cancelled invoice is safe from.

`cancelInvoice` and every payment path look at a copy of the invoice read
earlier, and what they then write does not look again. So a submission that read
the invoice before it was cancelled pays it afterwards: the row says
cancelled AND paid, with a payment (`paid_after_cancelling`).

`cancelled_stays` is the boundary. Payers and cancellers of an invoice are two
ROLES that clash: if a call that may pay the invoice, confirm a payment of it
or revert one starts only while no cancellation is under way, and a
cancellation only while no such call is, then a cancelled invoice stays as it
is and gets no payment. Once it is cancelled, calls that its state refuses
anyway may come and go.
-/
import Anypay.Async.Roles
import Anypay.PayTheorems
import Anypay.SinglePaymentTheorems

namespace Anypay

open Store Async Proc

/-- The invoice was cancelled. -/
def World.Cancelled (w : World) (uid : String) : Prop :=
  ∃ r ∈ w.invoices.rows, r.uid = uid ∧ r.cancelled = true

/-- The ids of the payment rows of an invoice. -/
def World.paymentIds (w : World) (uid : String) : List Nat :=
  (w.payments.rows.filter (·.invoice_uid == uid)).map Payment.id

namespace Cancellation

/-- A cancelled invoice says so in its status. -/
def Agrees (uid : String) (w : World) : Prop :=
  ∀ r ∈ w.invoices.rows, r.uid = uid → r.cancelled = true → r.status = .cancelled

/-- What the world shows of an invoice: its rows, and which payments it has. -/
def shown (uid : String) (w : World) : List Invoice × List Nat :=
  (w.invoices.rows.filter (·.uid == uid), w.paymentIds uid)

theorem mem_shown {uid : String} {w : World} {r : Invoice} :
    r ∈ (shown uid w).1 ↔ r ∈ w.invoices.rows ∧ r.uid = uid := by
  simp [shown]

theorem cancelled_iff {uid : String} {w : World} :
    w.Cancelled uid ↔ ∃ r ∈ (shown uid w).1, r.cancelled = true := by
  constructor
  · rintro ⟨r, hr, hu, hc⟩
    exact ⟨r, mem_shown.mpr ⟨hr, hu⟩, hc⟩
  · rintro ⟨r, hr, hc⟩
    obtain ⟨hr, hu⟩ := mem_shown.mp hr
    exact ⟨r, hr, hu, hc⟩

theorem cancelled_of_shown {uid : String} {s t : World} (h : s.Cancelled uid)
    (ht : shown uid t = shown uid s) : t.Cancelled uid := by
  rw [cancelled_iff] at h ⊢
  rw [ht]
  exact h

/-! ## The calls -/

/-- The calls that may pay the invoice, or confirm or revert a payment of it. -/
def settles (uid : String) : Op → Prop
  | .completePayment option _ _ => option.invoice_uid = uid
  | .handleUnconfirmedPayment option _ => option.invoice_uid = uid
  | .confirmPayment payment _ => payment.invoice_uid = uid
  | .revertPayment _ => True
  | op => op.pays = some uid

/-- The calls that cancel it. -/
def cancels (uid : String) : Op → Prop
  | .cancelInvoice invoice => invoice.uid = uid
  | .cancelRequest uid' _ => uid' = uid
  | _ => False

/-- What a call was given is a copy of a row there is. -/
def Genuine (w : World) : Op → Prop
  | .confirmPayment payment _ => HasPayment payment.id payment.invoice_uid w
  | .cancelInvoice invoice => HasInvoice invoice.id invoice.uid w
  | _ => True

/-- A call the state of the invoice `uid` refuses by itself. -/
def Refused (uid : String) (w : World) : Op → Prop
  | .completePayment _ _ _ => False
  | .handleUnconfirmedPayment _ _ => False
  | .confirmPayment payment _ => (nonEmpty payment.confirmation_hash).isSome = true
  | .revertPayment txid => ∀ r ∈ w.invoices.rows, r.uid = uid → r.hash ≠ some txid
  | op => ¬ op.Passes w

/-- Cancellations, payments, confirmations and reverts, in any order. -/
def dealings (p : Calls) : Move Answer Op → Prop
  | .start op => ((∃ uid, settles uid op) ∨ ∃ uid, cancels uid op) ∧ Genuine p.state op
  | .run _ _ => True

/-- Payers and cancellers of the invoice do not meet. -/
def oneSideAtATime (uid : String) (p : Calls) : Move Answer Op → Prop
  | .start op => dealings p (.start op) ∧
      (settles uid op → (p.state.Cancelled uid ∧ Refused uid p.state op) ∨
        (¬ p.state.Cancelled uid ∧ p.Idle (cancels uid))) ∧
      (cancels uid op → p.state.Cancelled uid ∨ p.Idle (settles uid))
  | .run _ _ => True

/-! ## The contract -/

inductive Role where
  | bystander
  | payer
  | canceller
  deriving DecidableEq

/-- `cancelInvoice`, as a change of a row. -/
def cancelRow (r : Invoice) : Invoice := { r with status := .cancelled, cancelled := true }

/-- A bystander leaves the invoice alone, a payer cannot cancel it, a canceller
does nothing else. Only bystanders expect something of the others: that a
cancelled invoice stays as it is. -/
def contract (uid : String) : Contract World Answer Role where
  answers _ _ _ := True
  rely g s t := Grows s t ∧ t.names = s.names ∧
    (g = .bystander → s.Cancelled uid → shown uid t = shown uid s)
  guar g s t g' := g' = g ∧ Grows s t ∧ t.names = s.names ∧
    match g with
    | .bystander => shown uid t = shown uid s
    | .payer => t.Cancelled uid → s.Cancelled uid
    | .canceller => shown uid t = shown uid s ∨
        (t.payments = s.payments ∧
          ∃ i, t.invoices.rows = Table.patch i cancelRow s.invoices.rows)
  guar_refl g s := by
    refine ⟨rfl, .refl s, rfl, ?_⟩
    cases g
    · exact rfl
    · exact id
    · exact .inl rfl
  rely_refl g s := ⟨.refl s, rfl, fun _ _ => rfl⟩
  rely_trans h h' := by
    obtain ⟨hg, hn, hb⟩ := h
    obtain ⟨hg', hn', hb'⟩ := h'
    refine ⟨hg.trans hg', hn'.trans hn, fun h hc => ?_⟩
    exact (hb' h (cancelled_of_shown hc (hb h hc))).trans (hb h hc)

/-- A payer only where the invoice is not cancelled. -/
def allows (uid : String) : Role → World → Prop
  | .payer, w => ¬ w.Cancelled uid
  | _, _ => True

def clash : Role → Role → Prop
  | .payer, .canceller => True
  | .canceller, .payer => True
  | _, _ => False

/-- The role a call may be in. -/
def may (uid : String) (op : Op) : Role → Prop
  | .bystander => True
  | .payer => settles uid op
  | .canceller => cancels uid op

/-! ## Writes that keep the contract -/

variable {uid uid₀ : String} {g : Role} {t : World}

/-- The role writes payments and paid statuses of the invoice `uid₀`. -/
def Writes (uid uid₀ : String) (g : Role) : Prop :=
  g = .payer ∨ (g = .bystander ∧ uid₀ ≠ uid)

theorem guar_of_shown {s u : World} (hgrows : Grows s u) (hnames : u.names = s.names)
    (hshown : shown uid u = shown uid s) : (contract uid).guar g s u g := by
  refine ⟨rfl, hgrows, hnames, ?_⟩
  cases g with
  | bystander => exact hshown
  | payer => exact fun hc => cancelled_of_shown hc hshown.symm
  | canceller => exact .inl hshown

/-- An invoice row may change, but for its cancelled flag. -/
theorem guar_of_invoices {r : Invoice} {f : Invoice → Invoice} {tb : Table Invoice}
    {ss : List Settlement} (h : Writes uid uid₀ g) (hr : r ∈ t.invoices.rows)
    (hu : r.uid = uid₀) (hrows : tb.rows = Table.patch r.id f t.invoices.rows)
    (hf : ∀ x, (f x).id = x.id ∧ (f x).uid = x.uid ∧ (f x).cancelled = x.cancelled) :
    (contract uid).guar g t { t with invoices := tb, settlements := ss } g := by
  have hnames : World.names { t with invoices := tb, settlements := ss } = t.names :=
    World.names_patch hrows fun x => ⟨(hf x).1, (hf x).2.1⟩
  have hgrows : Grows t { t with invoices := tb, settlements := ss } :=
    .of_invoices hrows rfl fun x => ⟨(hf x).1, (hf x).2.1⟩
  rcases h with rfl | ⟨rfl, hne⟩
  · refine ⟨rfl, hgrows, hnames, ?_⟩
    rintro ⟨x, hx, hxu, hxc⟩
    rw [hrows] at hx
    obtain ⟨y, hy, rfl⟩ := List.mem_map.mp hx
    refine ⟨y, hy, ?_⟩
    split at hxu
    · rename_i hi
      rw [if_pos hi] at hxc
      exact ⟨(hf y).2.1.symm.trans hxu, (hf y).2.2.symm.trans hxc⟩
    · rename_i hi
      rw [if_neg hi] at hxc
      exact ⟨hxu, hxc⟩
  · refine guar_of_shown hgrows hnames ?_
    refine Prod.ext ?_ rfl
    change tb.rows.filter _ = t.invoices.rows.filter _
    rw [hrows]
    refine Table.filter_patch fun x hx hi => ?_
    obtain rfl : x = r := Table.eq_of_id hx hr hi
    rw [(hf x).2.1, hu]
    exact .inl (by simpa using hne)

/-- A payment row may change, but not what it is about. -/
theorem guar_of_payments {i : Nat} {f : Payment → Payment} {tb : Table Payment}
    (hrows : tb.rows = Table.patch i f t.payments.rows)
    (hf : ∀ p, (f p).id = p.id ∧ (f p).invoice_uid = p.invoice_uid ∧ (f p).txid = p.txid) :
    (contract uid).guar g t { t with payments := tb } g := by
  have hids : World.paymentIds { t with payments := tb } uid = t.paymentIds uid := by
    change (tb.rows.filter _).map _ = _
    rw [hrows]
    exact Table.map_filter_patch fun p _ _ => ⟨by rw [(hf p).2.1], fun _ => (hf p).1⟩
  exact guar_of_shown (.of_payments rfl hrows hf) rfl (Prod.ext rfl hids)

/-- A payment of the invoice `uid₀` may be added. -/
theorem guar_of_create {p : Payment} {tb : Table Payment} (h : Writes uid uid₀ g)
    (hu : p.invoice_uid = uid₀) (hrows : tb.rows = t.payments.rows ++ [p]) :
    (contract uid).guar g t { t with payments := tb } g := by
  have hgrows : Grows t { t with payments := tb } := .of_create rfl hrows
  rcases h with rfl | ⟨rfl, hne⟩
  · exact ⟨rfl, hgrows, rfl, id⟩
  · have hids : World.paymentIds { t with payments := tb } uid = t.paymentIds uid := by
      change (tb.rows.filter _).map _ = _
      rw [hrows, List.filter_append, List.filter_cons_of_neg (by simpa [hu] using hne),
        List.filter_nil, List.append_nil]
      rfl
    exact guar_of_shown hgrows rfl (Prod.ext rfl hids)

/-- A submission for `uid₀` under the contract of `uid`. -/
def discipline (uid uid₀ : String) : Discipline (contract uid) uid₀ fun _ _ _ => True where
  before g _ := Writes uid uid₀ g
  between g _ := Writes uid uid₀ g
  after g _ := Writes uid uid₀ g
  silent {g s t} h := by
    have hgrows := Grows.of_ledger h
    simp only [World.ledger, Prod.mk.injEq] at h
    obtain ⟨hi, hp, -⟩ := h
    have hnames : t.names = s.names := by rw [World.names, hi, World.names]
    have hshown : shown uid t = shown uid s := by
      simp only [shown, World.paymentIds, hi, hp]
    exact ⟨guar_of_shown hgrows hnames hshown, hgrows, hnames, fun _ _ => hshown⟩
  grows h := h.1
  guar_grows h := h.2.1
  before_stable h _ := h
  between_stable h _ := h
  after_stable h _ := h
  hash {g t} h r hr hu _ now tb hrows :=
    ⟨g, guar_of_invoices h hr hu hrows fun _ => ⟨rfl, rfl, rfl⟩, h⟩
  create {g t} h _ _ p tb _ _ hu _ _ hrows := ⟨g, guar_of_create h hu hrows, h⟩
  settle {g t} h r hr hu _ _ _ _ f tb ss _ hf _ hrows _ :=
    ⟨g, guar_of_invoices h hr hu hrows fun x =>
      ⟨(hf x).id, (hf x).uid, (hf x).cancelled⟩, h⟩
  wallet {g t} h i w tb hrows :=
    ⟨g, guar_of_payments hrows fun _ => ⟨rfl, rfl, rfl⟩, h⟩

/-! ## Confirming, reverting and cancelling -/

variable {s : World}

/-- `confirmPayment` on a genuine copy writes the payment and its invoice. -/
theorem meets_confirmPayment {payment : Payment} {confirmation : Confirmation}
    (h : Writes uid payment.invoice_uid g) (hp : HasPayment payment.id payment.invoice_uid s) :
    (confirmPayment payment confirmation).Meets (contract uid) Anyhow Anyhow g s := by
  unfold confirmPayment
  split
  · exact fun _ _ => trivial
  · simp only [bind_eq, pure_eq]
    refine Delegate.meets_update_bind (fun t hst now tb r hr hi hrows _ => ?_)
      fun _ _ _ _ _ _ _ => trivial
    refine ⟨g, guar_of_payments hrows fun _ => ⟨rfl, rfl, rfl⟩, ?_⟩
    have hgrows : Grows t { t with payments := tb } :=
      .of_payments rfl hrows fun _ => ⟨rfl, rfl, rfl⟩
    have hp' := (hp.grows hst.1).grows hgrows
    refine Delegate.meets_findFirstOrThrow_bind (fun u htu p hpu hpid => ?_)
      fun _ _ _ _ _ => trivial
    obtain ⟨p₀, hp₀, hid₀, huid₀⟩ := hp'.grows htu.1
    obtain rfl : p = p₀ := Table.eq_of_id hpu hp₀ ((by simpa using hpid : p.id = _).trans hid₀.symm)
    refine Delegate.meets_findFirstOrThrow_bind (fun v huv invoice hinv hiu => ?_)
      fun _ _ _ _ _ => trivial
    have hiu : invoice.uid = payment.invoice_uid :=
      (by simpa using hiu : invoice.uid = p.invoice_uid).trans huid₀
    refine meets_updateInvoice_bind And.left ⟨invoice, hinv, rfl, hiu⟩
      fun x _ now' tb' r' hr' _ hu' hrows' => ?_
    refine ⟨g, guar_of_invoices h hr' hu' hrows' fun _ => ⟨rfl, rfl, rfl⟩, ?_⟩
    refine (discipline uid uid).meets_keeps_bind (keeps_publish_ledger _ _) fun y _ _ => ?_
    refine (discipline uid uid).meets_keeps_bind (keeps_createAndSendWebhook_ledger _ _)
      fun z _ _ => ?_
    exact fun _ _ => trivial

/-- `revertPayment`, by a payer, or by a bystander for a hash the cancelled
invoice does not have. -/
theorem meets_revertPayment {txid : String}
    (h : g = .payer ∨ (g = .bystander ∧ s.Cancelled uid ∧
      ∀ r ∈ s.invoices.rows, r.uid = uid → r.hash ≠ some txid)) :
    (revertPayment txid).Meets (contract uid) Anyhow Anyhow g s := by
  unfold revertPayment
  simp only [bind_eq]
  refine Delegate.meets_findFirstOrThrow_bind (fun t hst invoice hinv hhash => ?_)
    fun _ _ _ _ _ => trivial
  have hhash : invoice.hash = some txid := by simpa using hhash
  have hwrites : Writes uid invoice.uid g := by
    rcases h with h | ⟨hg, hc, hno⟩
    · exact .inl h
    · refine .inr ⟨hg, fun hu => ?_⟩
      have hmem : invoice ∈ (shown uid t).1 := mem_shown.mpr ⟨hinv, hu⟩
      rw [hst.2.2 hg hc] at hmem
      obtain ⟨hs, -⟩ := mem_shown.mp hmem
      exact hno invoice hs hu hhash
  refine Delegate.meets_findFirstOrThrow_bind (fun u htu payment _ _ => ?_)
    fun _ _ _ _ _ => trivial
  have hhas : HasInvoice invoice.id invoice.uid u :=
    HasInvoice.grows ⟨invoice, hinv, rfl, rfl⟩ htu.1
  refine meets_updateInvoice_bind And.left hhas fun v _ now tb r hr _ hu hrows => ?_
  refine ⟨g, guar_of_invoices hwrites hr hu hrows fun _ => ⟨rfl, rfl, rfl⟩, ?_⟩
  refine Delegate.meets_update_bind (fun x _ now' tb' _ _ _ hrows' _ => ?_)
    fun _ _ _ _ _ _ _ => trivial
  refine ⟨g, guar_of_payments hrows' fun _ => ⟨rfl, rfl, rfl⟩, ?_⟩
  refine Delegate.meets_findFirstOrThrow_bind (fun y _ payment' _ _ => ?_)
    fun _ _ _ _ _ => trivial
  rw [← Proc.bind_done (publish _ _)]
  refine (discipline uid uid).meets_keeps_bind (keeps_publish_ledger _ _) fun z _ _ => ?_
  exact fun _ _ => trivial

/-- The role cancels the invoice `uid₀`. -/
def Cancels (uid uid₀ : String) (g : Role) : Prop :=
  g = .canceller ∨ (g = .bystander ∧ uid₀ ≠ uid)

theorem guar_of_cancel {r : Invoice} {tb : Table Invoice} (h : Cancels uid uid₀ g)
    (hr : r ∈ t.invoices.rows) (hu : r.uid = uid₀)
    (hrows : tb.rows = Table.patch r.id cancelRow t.invoices.rows) :
    (contract uid).guar g t { t with invoices := tb } g := by
  have hnames : World.names { t with invoices := tb } = t.names :=
    World.names_patch hrows fun x => ⟨rfl, rfl⟩
  have hgrows : Grows t { t with invoices := tb } :=
    .of_invoices hrows rfl fun x => ⟨rfl, rfl⟩
  rcases h with rfl | ⟨rfl, hne⟩
  · exact ⟨rfl, hgrows, hnames, .inr ⟨rfl, r.id, hrows⟩⟩
  · refine guar_of_shown hgrows hnames (Prod.ext ?_ rfl)
    change tb.rows.filter _ = t.invoices.rows.filter _
    rw [hrows]
    refine Table.filter_patch fun x hx hi => ?_
    obtain rfl : x = r := Table.eq_of_id hx hr hi
    exact .inl (by simpa [cancelRow, hu] using hne)

/-- `cancelInvoice` on a genuine copy. -/
theorem meets_cancelInvoice {invoice : Invoice} (h : Cancels uid invoice.uid g)
    (hhas : HasInvoice invoice.id invoice.uid s) :
    (cancelInvoice invoice).Meets (contract uid) Anyhow Anyhow g s := by
  unfold cancelInvoice
  split
  · exact fun _ _ => trivial
  · simp only [bind_eq, pure_eq]
    refine meets_updateInvoice_bind And.left hhas fun t _ now tb r hr _ hu hrows => ?_
    refine ⟨g, guar_of_cancel h hr hu hrows, ?_⟩
    refine Delegate.meets_findFirstOrThrow_bind (fun u _ r' _ _ => ?_)
      fun _ _ _ _ _ => trivial
    refine (discipline uid uid).meets_keeps_bind
      (keeps_detached (keeps_publishEvent _ _)) fun v _ _ => ?_
    exact fun _ _ => trivial

theorem meets_cancelRequest {account_id : Int} (h : Cancels uid uid₀ g) :
    (cancelRequest uid₀ account_id).Meets (contract uid) Anyhow Anyhow g s := by
  unfold cancelRequest
  simp only [bind_eq, pure_eq]
  refine Delegate.meets_findFirst_bind (fun t _ invoice hinv hw => ?_)
    fun _ _ _ _ _ => trivial
  simp only [Bool.and_eq_true, beq_iff_eq] at hw
  dsimp only
  split
  · exact fun _ _ => trivial
  · refine meets_bind (meets_mono (fun _ _ _ _ _ _ => trivial) (fun _ _ _ h => h)
      (meets_cancelInvoice ?_ ⟨invoice, hinv, rfl, rfl⟩))
    rw [hw.1]
    exact h

/-! ## The roles -/

theorem agrees_of_shown {u : World} (h : Agrees uid s) (hshown : shown uid u = shown uid s) :
    Agrees uid u := by
  intro r hr hu hc
  have hmem : r ∈ (shown uid s).1 := hshown ▸ mem_shown.mpr ⟨hr, hu⟩
  exact h r (mem_shown.mp hmem).1 hu hc

theorem agrees_of_cancel {u : World} {i : Nat} (h : Agrees uid s)
    (hrows : u.invoices.rows = Table.patch i cancelRow s.invoices.rows) : Agrees uid u := by
  intro r hr hu hc
  rw [hrows] at hr
  obtain ⟨y, hy, rfl⟩ := List.mem_map.mp hr
  by_cases hi : Record.id y = i
  · rw [if_pos hi]
    rfl
  · rw [if_neg hi] at hu hc ⊢
    exact h y hy hu hc

/-- Cancelling a cancelled invoice again changes nothing. -/
theorem shown_of_cancel {u : World} {i : Nat} (hone : s.OneInvoice uid) (h : Agrees uid s)
    (hc : s.Cancelled uid) (hpay : u.payments = s.payments)
    (hrows : u.invoices.rows = Table.patch i cancelRow s.invoices.rows) :
    shown uid u = shown uid s := by
  obtain ⟨r₀, hr₀, hu₀, hc₀⟩ := hc
  refine Prod.ext ?_ ?_
  · change u.invoices.rows.filter _ = s.invoices.rows.filter _
    rw [hrows]
    refine Table.filter_patch fun r hr _ => ?_
    by_cases hu : r.uid = uid
    · obtain rfl := hone r hr r₀ hr₀ hu hu₀
      have hs := h r hr hu hc₀
      refine .inr ?_
      rw [cancelRow, ← hs, ← hc₀]
    · exact .inl (by simpa [cancelRow] using hu)
  · change (u.payments.rows.filter _).map _ = (s.payments.rows.filter _).map _
    rw [hpay]

theorem roles (uid : String) :
    Pool.Roles (contract uid) (fun w => w.OneInvoice uid ∧ Agrees uid w) (allows uid) clash
      .bystander where
  same h := h.1
  keep {g s t} h hJ hallow := by
    obtain ⟨-, -, hnames, hrole⟩ := h
    refine ⟨hJ.1.of_names hnames, ?_⟩
    cases g with
    | bystander => exact agrees_of_shown hJ.2 hrole
    | payer => exact fun r hr hu hc => absurd (hrole ⟨r, hr, hu, hc⟩) hallow
    | canceller =>
        rcases hrole with hshown | ⟨-, i, hrows⟩
        · exact agrees_of_shown hJ.2 hshown
        · exact agrees_of_cancel hJ.2 hrows
  allow {g k s t} h _ hg hk hapart := by
    obtain ⟨-, -, -, hrole⟩ := h
    cases k with
    | bystander => exact trivial
    | canceller => exact trivial
    | payer =>
        cases g with
        | bystander => exact fun hc => hk (cancelled_of_shown hc hrole.symm)
        | payer => exact fun hc => hg (hrole hc)
        | canceller =>
            rcases hapart with hsame | hfree
            · cases hsame
            · exact absurd trivial hfree
  rely {g k s t} h hJ hallow _ := by
    obtain ⟨-, hgrows, hnames, hrole⟩ := h
    refine ⟨hgrows, hnames, fun _ hc => ?_⟩
    cases g with
    | bystander => exact hrole
    | payer => exact absurd hc hallow
    | canceller =>
        rcases hrole with hshown | ⟨hpay, i, hrows⟩
        · exact hshown
        · exact shown_of_cancel hJ.1 hJ.2 hc hpay hrows
  idle_allowed _ := trivial
  idle_left k := by cases k <;> exact id
  idle_right k := by cases k <;> exact id

/-! ## Starting a call -/

/-- What a submission checks depends on what is shown of its invoice. -/
theorem passes_of_shown {op : Op} {u : World} (hpays : op.pays = some uid)
    (hshown : shown uid u = shown uid s) (h : op.Passes u) : op.Passes s := by
  have hrow : ∀ r ∈ u.invoices.rows, r.uid = uid → r ∈ s.invoices.rows := by
    intro r hr hu
    have hmem : r ∈ (shown uid s).1 := hshown ▸ mem_shown.mpr ⟨hr, hu⟩
    exact (mem_shown.mp hmem).1
  cases op with
  | bip70Payment uid' code txs =>
      obtain ⟨r, hr, hu, hc⟩ := h
      exact ⟨r, hrow r hr (hu.trans (Option.some.inj hpays)), hu, hc⟩
  | recordPayment invoice details =>
      intro p hp hu
      have hmem : p.id ∈ s.paymentIds uid := by
        refine List.mem_map.mpr ⟨p, List.mem_filter.mpr ⟨hp, ?_⟩, rfl⟩
        simpa [hu] using Option.some.inj hpays
      have hids : u.paymentIds uid = s.paymentIds uid := congrArg Prod.snd hshown
      have hmem' : p.id ∈ u.paymentIds uid := hids ▸ hmem
      obtain ⟨p', hp', -⟩ := List.mem_map.mp hmem'
      obtain ⟨hp', hu'⟩ := List.mem_filter.mp hp'
      refine h p' hp' ?_
      exact (by simpa using hu' : p'.invoice_uid = uid).trans (Option.some.inj hpays).symm
  | submitPayment _ | jsonV2Payment _ _ _ _ | jsonPaymentRequest _ _ _ _ _
  | bip270Payment _ _ _ =>
      obtain ⟨r, hr, hu, hs⟩ := h
      refine ⟨r, hrow r hr ?_, hu, hs⟩
      exact (Option.some.inj (hpays.symm.trans hu)).symm
  | _ => cases hpays

/-- A call that deals with the invoice `uid₀`, in a role that writes it. -/
theorem meets_settles (env : Env) {op : Op} (h : settles uid₀ op) (hgen : Genuine s op)
    (hw : Writes uid uid₀ g) (hrevert : ∀ txid, op = .revertPayment txid → g = .payer) :
    (program env op).Meets (contract uid) Anyhow Anyhow g s := by
  cases op with
  | completePayment option transaction confirming =>
      exact meets_discard ((discipline uid uid₀).meets_completePayment env h
        (fun _ _ => trivial) hw)
  | handleUnconfirmedPayment option transaction =>
      exact meets_discard ((discipline uid uid₀).meets_handleUnconfirmedPayment env h
        (fun _ _ => trivial) hw)
  | confirmPayment payment confirmation =>
      obtain rfl : payment.invoice_uid = uid₀ := h
      exact meets_discard (meets_confirmPayment hw hgen)
  | revertPayment txid => exact meets_revertPayment (.inl (hrevert txid rfl))
  | submitPayment _ | jsonV2Payment _ _ _ _ | jsonPaymentRequest _ _ _ _ _
  | bip270Payment _ _ _ | bip70Payment _ _ _ | recordPayment _ _ =>
      exact (discipline uid uid₀).meets_program env h (Op.stores_anything env _) (.inr id)
        fun _ _ _ => hw
  | _ => cases h

/-- A call the cancelled invoice refuses. -/
theorem meets_refused (env : Env) {op : Op} (h : settles uid op) (hc : s.Cancelled uid)
    (hrefused : Refused uid s op) :
    (program env op).Meets (contract uid) Anyhow Anyhow .bystander s := by
  have hpaying : op.pays = some uid → ¬ op.Passes s →
      (program env op).Meets (contract uid) Anyhow Anyhow .bystander s := fun hpays hno =>
    (discipline uid uid).meets_refused env hpays fun t hst hp =>
      hno (passes_of_shown hpays (hst.2.2 rfl hc) hp)
  cases op with
  | completePayment option transaction confirming => exact hrefused.elim
  | handleUnconfirmedPayment option transaction => exact hrefused.elim
  | confirmPayment payment confirmation =>
      have hdone : confirmPayment payment confirmation = done payment := if_pos hrefused
      refine meets_discard (Q := Anyhow) ?_
      rw [hdone]
      exact fun _ _ => trivial
  | revertPayment txid => exact meets_revertPayment (.inr ⟨rfl, hc, hrefused⟩)
  | submitPayment _ | jsonV2Payment _ _ _ _ | jsonPaymentRequest _ _ _ _ _
  | bip270Payment _ _ _ | bip70Payment _ _ _ | recordPayment _ _ => exact hpaying h hrefused
  | _ => cases h

/-- A call that cancels the invoice `uid₀`, in a role that may. -/
theorem meets_cancels (env : Env) {op : Op} (h : cancels uid₀ op) (hgen : Genuine s op)
    (hc : Cancels uid uid₀ g) :
    (program env op).Meets (contract uid) Anyhow Anyhow g s := by
  cases op with
  | cancelInvoice invoice =>
      obtain rfl : invoice.uid = uid₀ := h
      exact meets_discard (meets_cancelInvoice hc hgen)
  | cancelRequest uid' account_id =>
      obtain rfl : uid' = uid₀ := h
      exact meets_cancelRequest hc
  | _ => cases h

/-- Every admitted call finds its role. -/
theorem meets_start (env : Env) {p : Calls} {op : Op}
    (h : oneSideAtATime uid p (.start op)) : ∃ g,
      (program env op).Meets (contract uid) Anyhow Anyhow g p.state ∧ allows uid g p.state ∧
      (g ≠ .bystander → (program env op).running = true ∧ may uid op g) ∧
      ∀ k, clash g k ∨ clash k g → Pool.Absent (allows uid) (may uid) k p := by
  obtain ⟨⟨hdeals, hgen⟩, hsettles, hcancels⟩ := h
  have hby : ∀ k, clash .bystander k ∨ clash k .bystander →
      Pool.Absent (allows uid) (may uid) k p := by
    intro k hk
    cases k <;> simp [clash] at hk
  cases hrun : (program env op).running with
  | false =>
      exact ⟨.bystander, meets_of_ended hrun _ _, trivial, fun h => absurd rfl h, hby⟩
  | true =>
      by_cases hs : settles uid op
      · rcases hsettles hs with ⟨hc, hrefused⟩ | ⟨hc, hidle⟩
        · exact ⟨.bystander, meets_refused env hs hc hrefused, trivial,
            fun h => absurd rfl h, hby⟩
        · refine ⟨.payer, meets_settles env hs hgen (.inl rfl) fun _ _ => rfl, hc,
            fun _ => ⟨rfl, hs⟩, fun k hk => ?_⟩
          cases k with
          | canceller => exact .inl hidle
          | _ => simp [clash] at hk
      · by_cases hc : cancels uid op
        · refine ⟨.canceller, meets_cancels env hc hgen (.inl rfl), trivial,
            fun _ => ⟨rfl, hc⟩, fun k hk => ?_⟩
          cases k with
          | payer =>
              rcases hcancels hc with hdone | hidle
              · exact .inr fun hno => hno hdone
              · exact .inl hidle
          | _ => simp [clash] at hk
        · refine ⟨.bystander, ?_, trivial, fun h => absurd rfl h, hby⟩
          rcases hdeals with ⟨uid₀, hs₀⟩ | ⟨uid₀, hc₀⟩
          · refine meets_settles env hs₀ hgen (.inr ⟨rfl, fun he => hs (he ▸ hs₀)⟩) ?_
            rintro txid rfl
            exact absurd trivial hs
          · exact meets_cancels env hc₀ hgen (.inr ⟨rfl, fun he => hc (he ▸ hc₀)⟩)

/-- What is asked of a cancelled invoice in a pool: its status says so; and from
there on it stays cancelled, and gets no payment. -/
def StaysCancelled (env : Env) (admits : Calls → Move Answer Op → Prop) (uid : String)
    (p : Calls) : Prop :=
  Agrees uid p.state ∧
    (p.state.Cancelled uid → ∀ q, Pool.Reaches (program env) admits p q →
      q.state.Cancelled uid ∧ Agrees uid q.state ∧
        q.state.paymentIds uid = p.state.paymentIds uid)

/-- **A cancelled invoice stays cancelled.** If payers and cancellers of an
invoice do not meet, then in every reachable pool a cancelled invoice has
status 'cancelled', and from there on keeps it and gets no payment. -/
theorem cancelled_stays (env : Env) (uid : String) (w : World) (hone : w.OneInvoice uid)
    (hagrees : Agrees uid w) (p : Calls)
    (h : Pool.Reaches (program env) (oneSideAtATime uid) (Pool.init w) p) :
    StaysCancelled env (oneSideAtATime uid) uid p := by
  have hcast := Pool.cast_reaches (roles uid) (fun _ _ _ hm => meets_start env hm)
    (fun _ _ _ _ _ => trivial) ⟨[], Pool.Cast.init ⟨hone, hagrees⟩⟩ h
  obtain ⟨gs, hcast⟩ := hcast
  refine ⟨hcast.state.2, fun hc q hq => ?_⟩
  have hR := (roles uid).strengthen (I := fun w => shown uid w = shown uid p.state)
    fun hguar hJ hallow hsame => by
      have hrely := (roles uid).rely (k := .bystander) hguar hJ hallow
        ((roles uid).idle_right _)
      exact (hrely.2.2 rfl (cancelled_of_shown hc hsame)).trans hsame
  obtain ⟨gs', hcast'⟩ := Pool.cast_reaches hR (fun _ _ _ hm => meets_start env hm)
    (fun _ _ _ _ _ => trivial) ⟨gs, hcast.strengthen rfl⟩ hq
  obtain ⟨⟨-, hagrees'⟩, hsame⟩ := hcast'.state
  exact ⟨cancelled_of_shown hc hsame, hagrees', congrArg Prod.snd hsame⟩

/-! ## A payment that overlaps a cancellation -/

open SinglePayment (shop quoted pay steps admitted_steps)

/-- The merchant's copy of the unpaid invoice. -/
def copy : Invoice := { id := 1, uid := "inv", status := .unpaid }

/-- The client is past the status check when the merchant cancels, and pays
then. -/
def overlapping : List (Move Answer Op) :=
  .start (pay "t1") :: .start (.cancelInvoice copy) ::
    (steps 0 3 ++ (steps 1 1 ++ steps 0 6))

/-- The one invoice of the shop agrees with itself, and is one. -/
theorem quoted_fine (uid : String) : quoted.OneInvoice uid ∧ Agrees uid quoted := by
  constructor
  · intro r hr r' hr' _ _
    rw [List.mem_singleton.mp hr, List.mem_singleton.mp hr']
  · intro r hr _ hc
    obtain rfl := List.mem_singleton.mp hr
    cases hc

/-- The invoice ends paid and cancelled. -/
theorem paid_after_cancelling :
    ¬ ∀ (env : Env) (uid : String) (w : World) (p : Calls), w.OneInvoice uid →
      Agrees uid w → Pool.Reaches (program env) dealings (Pool.init w) p →
      StaysCancelled env dealings uid p := by
  intro h
  have hsteps := admitted_steps shop dealings fun _ _ _ => trivial
  have hadm : Pool.Admitted (program shop) dealings overlapping (Pool.init quoted) := by
    refine ⟨⟨.inl ⟨"inv", rfl⟩, trivial⟩, fun q hq => ?_⟩
    obtain rfl := Pool.move_start hq
    refine ⟨⟨.inr ⟨"inv", rfl⟩, copy, .head _, rfl, rfl⟩, fun _ _ => ?_⟩
    exact (hsteps 0 3 _).append fun _ _ => (hsteps 1 1 _).append fun _ _ => hsteps 0 6 _
  obtain ⟨p, hreach, hpaid⟩ := Pool.exists_reaches
    (fun p => p.state.invoices.rows.any fun r =>
      r.uid == "inv" && r.cancelled && r.status == .paid) hadm (by decide +kernel)
  simp only [List.any_eq_true, Bool.and_eq_true, beq_iff_eq] at hpaid
  obtain ⟨r, hr, ⟨hu, hc⟩, hs⟩ := hpaid
  have hstays := h shop "inv" quoted p (quoted_fine _).1 (quoted_fine _).2 hreach
  have hcancelled := hstays.1 r hr hu hc
  rw [hs] at hcancelled
  cases hcancelled

/-- Cancelled first, the invoice refuses the payment. -/
theorem cancelled_stays_alone : ∃ p : Calls,
    Pool.Reaches (program shop) (oneSideAtATime "inv") (Pool.init quoted) p ∧
      p.state.Cancelled "inv" ∧ StaysCancelled shop (oneSideAtATime "inv") "inv" p := by
  have hadm : Pool.Admitted (program shop) (oneSideAtATime "inv")
      (.start (.cancelInvoice copy) :: steps 0 1) (Pool.init quoted) := by
    refine ⟨⟨⟨.inr ⟨"inv", rfl⟩, copy, .head _, rfl, rfl⟩, fun h => (nomatch h),
      fun _ => .inr fun _ h => (nomatch h)⟩, fun q _ => ?_⟩
    exact admitted_steps shop _ (fun _ _ _ => trivial) 0 1 q
  obtain ⟨p, hreach, hany⟩ := Pool.exists_reaches
    (fun p => p.state.invoices.rows.any fun r => r.uid == "inv" && r.cancelled) hadm
    (by decide +kernel)
  simp only [List.any_eq_true, Bool.and_eq_true, beq_iff_eq] at hany
  obtain ⟨r, hr, hu, hc⟩ := hany
  exact ⟨p, hreach, ⟨r, hr, hu, hc⟩, cancelled_stays shop "inv" quoted (quoted_fine _).1
    (quoted_fine _).2 p hreach⟩

end Cancellation

end Anypay
