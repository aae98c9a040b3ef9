/-
Anypay.Receipts — the one payment of an invoice on an EVM chain, from its
submission to the receipt that says it failed.

A `Transfer` is what is submitted for an invoice, and the hash its transaction has.
Its rows, the invoice's and those under the hash, go through five STAGES: nothing is
written, the payment is inserted, the invoice is settled, `revertPayment` has
released the invoice, and has marked the payment. The submission takes it through the
first two, `revertPayment` through the rest (`relay`). What connects the two is a
chain of background calls: the broadcast leaves one that looks for the receipt, this
one leaves `handleTransactionReceipt` or `revertPayment`.

`At` is the invariant. The lemmas here say, write by write, what becomes of the
stage; `Anypay.ReceiptTheorems` goes through the calls.
-/
import Anypay.Async.Relay
import Anypay.Chains.Registry
import Anypay.PayTheorems

namespace Anypay.Receipts

open Store Async Proc

/-! ## Transfers -/

/-- The chains of the EVM plugins. -/
def evmChains : List String := ["ETH", "MATIC", "AVAX"]

/-- What is submitted for an invoice, in which currency, and the hash of the
transaction. -/
structure Transfer where
  uid : String
  currency : String
  chain : String
  transaction : Transaction
  txid : String
  evm : chain ∈ evmChains := by decide

namespace Transfer

variable (x : Transfer)

/-- The invoice, and whatever invoice has the hash. -/
def ownInvoice (r : Invoice) : Bool := r.uid == x.uid || r.hash == some x.txid

/-- The payments of the invoice, and those under the hash. -/
def ownPayment (p : Payment) : Bool := p.invoice_uid == x.uid || p.txid == x.txid

/-- The background calls that look for the receipt. -/
def watches : Job → Bool
  | .onReceipt txid => txid == x.txid
  | .lookUpReceipt txid => txid == x.txid
  | _ => false

/-- The background calls that are about the transaction. -/
def about : Job → Bool
  | .onReceipt txid => txid == x.txid
  | .lookUpReceipt txid => txid == x.txid
  | .handleTransactionReceipt receipt => receipt.transactionHash == x.txid
  | .revertPayment txid => txid == x.txid
  | _ => false

theorem about_of_watches {j : Job} (h : x.watches j = true) : x.about j = true := by
  cases j with
  | onReceipt txid => exact h
  | lookUpReceipt txid => exact h
  | _ => cases h

end Transfer

/-! ## Stages -/

inductive Stage where
  | fresh
  | inserted
  | settled
  | released
  | reverted
  deriving DecidableEq

/-- Who takes the transfer on. -/
inductive Part where
  | submits
  | confirms
  | watches
  | handles
  | reverts
  | other
  deriving DecidableEq

/-- The columns of an invoice its payment is about. -/
structure InvoiceColumns where
  uid : String
  status : InvoiceStatus
  hash : Option String
  deriving DecidableEq

/-- The columns of a payment that say what it is and how it stands. -/
structure PaymentColumns where
  invoice_uid : String
  txid : String
  currency : String
  chain : Option String
  status : PaymentStatus
  deriving DecidableEq

def invoiceColumns (r : Invoice) : InvoiceColumns := ⟨r.uid, r.status, r.hash⟩

def paymentColumns (p : Payment) : PaymentColumns :=
  ⟨p.invoice_uid, p.txid, p.currency, p.chain, p.status⟩

/-- The rows of a transfer, and whether its invoice was ever settled. -/
structure Picture where
  invoices : List InvoiceColumns
  payments : List PaymentColumns
  settled : Bool
  deriving DecidableEq

namespace Stage

def turn : Stage → Part
  | fresh => .submits
  | inserted => .submits
  | _ => .reverts

def invoice (x : Transfer) : Stage → InvoiceColumns
  | settled => ⟨x.uid, .confirming, some x.txid⟩
  | _ => ⟨x.uid, .unpaid, none⟩

def payments (x : Transfer) : Stage → List PaymentColumns
  | fresh => []
  | reverted => [⟨x.uid, x.txid, x.currency, some x.chain, .failed⟩]
  | _ => [⟨x.uid, x.txid, x.currency, some x.chain, .confirming⟩]

def isSettled : Stage → Bool
  | fresh => false
  | inserted => false
  | _ => true

/-- What is there at a stage. -/
def shows (x : Transfer) (a : Stage) : Picture := ⟨[a.invoice x], a.payments x, a.isSettled⟩

theorem shows_inj {x : Transfer} {a b : Stage} (h : a.shows x = b.shows x) : a = b := by
  cases a <;> cases b <;> simp_all [shows, invoice, payments, isSettled]

theorem invoice_uid (x : Transfer) (a : Stage) : (a.invoice x).uid = x.uid := by
  cases a <;> rfl

theorem invoice_ne_paid (x : Transfer) (a : Stage) : (a.invoice x).status ≠ .paid := by
  cases a <;> simp [invoice]

theorem of_mem_payments {x : Transfer} {a : Stage} {p : PaymentColumns} (h : p ∈ a.payments x) :
    p.invoice_uid = x.uid ∧ p.txid = x.txid ∧ p.currency = x.currency ∧ p.chain = some x.chain := by
  cases a <;> simp_all [payments]

end Stage

namespace Transfer

variable (x : Transfer)

def view (w : World) : Picture where
  invoices := (w.invoices.select x.ownInvoice).map invoiceColumns
  payments := (w.payments.select x.ownPayment).map paymentColumns
  settled := w.settlements.any fun s => s.uid == x.uid

/-- The transfer is at this stage. Once it is on its way somebody looks, or has
looked, for its receipt, and what was found says that it failed. -/
structure At (a : Stage) (w : World) : Prop where
  view : x.view w = a.shows x
  watched : a ≠ .fresh → ∃ j ∈ w.jobs, x.watches j = true
  failed : ∀ receipt, Job.handleTransactionReceipt receipt ∈ w.jobs →
    receipt.transactionHash = x.txid → receipt.status = false

/-- Rows stay, and so does what was left to do about the transaction. -/
structure Frame (s t : World) : Prop where
  grows : Grows s t
  jobs : ∀ j ∈ s.jobs, x.about j = true → j ∈ t.jobs

def relay : Relay World Stage Part where
  At := x.At
  turn := Stage.turn
  Frame := x.Frame
  unique ha hb := Stage.shows_inj (ha.view.symm.trans hb.view)
  refl s := ⟨Grows.refl s, fun _ hj _ => hj⟩
  trans h h' := ⟨h.grows.trans h'.grows, fun j hj ha => h'.jobs j (h.jobs j hj ha) ha⟩

/-- The transfer is at some stage. -/
def Ok (w : World) : Prop := ∃ a, x.At a w

end Transfer

variable {x : Transfer} {a b : Stage} {s t u w : World}

/-! ## What is there at a stage -/

theorem columns_of_at (ha : x.At a w) {r : Invoice} (hr : r ∈ w.invoices.rows)
    (hown : x.ownInvoice r = true) : invoiceColumns r = a.invoice x := by
  have hmem : invoiceColumns r ∈ (x.view w).invoices :=
    List.mem_map.mpr ⟨r, Table.mem_select.mpr ⟨hr, hown⟩, rfl⟩
  rw [ha.view] at hmem
  exact List.mem_singleton.mp hmem

theorem uid_of_own (ha : x.At a w) {r : Invoice} (hr : r ∈ w.invoices.rows)
    (hown : x.ownInvoice r = true) : r.uid = x.uid :=
  (congrArg InvoiceColumns.uid (columns_of_at ha hr hown)).trans (a.invoice_uid x)

theorem not_own_of_uid (hs : x.Ok w) {r : Invoice} (hr : r ∈ w.invoices.rows)
    (huid : r.uid ≠ x.uid) : x.ownInvoice r = false := by
  obtain ⟨a, ha⟩ := hs
  by_contra hown
  exact huid (uid_of_own ha hr (Bool.eq_true_of_not_eq_false hown))

theorem own_of_uid {r : Invoice} (h : r.uid = x.uid) : x.ownInvoice r = true := by
  simp [Transfer.ownInvoice, h]

theorem own_of_hash {r : Invoice} (h : r.hash = some x.txid) : x.ownInvoice r = true := by
  simp [Transfer.ownInvoice, h]

theorem exists_invoice (ha : x.At a w) :
    ∃ r ∈ w.invoices.rows, r.uid = x.uid ∧ invoiceColumns r = a.invoice x := by
  have hview : (w.invoices.select x.ownInvoice).map invoiceColumns = [a.invoice x] :=
    congrArg Picture.invoices ha.view
  obtain ⟨r, hr, hcolumns⟩ := List.map_eq_singleton_iff.mp hview
  have hmem : r ∈ w.invoices.select x.ownInvoice := by simp [hr]
  obtain ⟨hrow, hown⟩ := Table.mem_select.mp hmem
  exact ⟨r, hrow, uid_of_own ha hrow hown, hcolumns⟩

theorem columns_of_payment (ha : x.At a w) {p : Payment} (hp : p ∈ w.payments.rows)
    (hown : x.ownPayment p = true) : paymentColumns p ∈ a.payments x := by
  have hmem : paymentColumns p ∈ (x.view w).payments :=
    List.mem_map.mpr ⟨p, Table.mem_select.mpr ⟨hp, hown⟩, rfl⟩
  rwa [ha.view] at hmem

theorem exists_payment (ha : x.At a w) {c : PaymentColumns} (hc : c ∈ a.payments x) :
    ∃ p ∈ w.payments.rows, x.ownPayment p = true ∧ paymentColumns p = c := by
  have hview : (w.payments.select x.ownPayment).map paymentColumns = a.payments x :=
    congrArg Picture.payments ha.view
  rw [← hview] at hc
  obtain ⟨p, hp, rfl⟩ := List.mem_map.mp hc
  obtain ⟨hrow, hown⟩ := Table.mem_select.mp hp
  exact ⟨p, hrow, hown, rfl⟩

/-! ## Steps that leave the stage alone -/

/-- What the stage and its frame depend on. -/
def Transfer.shown (x : Transfer) (w : World) :
    (Table Invoice × Table Payment × List Settlement) × List Job :=
  (w.ledger, w.jobs.filter x.about)

theorem mem_of_shown (h : x.shown t = x.shown s) {j : Job} (hj : x.about j = true) :
    j ∈ t.jobs ↔ j ∈ s.jobs := by
  have hjobs : t.jobs.filter x.about = s.jobs.filter x.about := (Prod.mk.inj h).2
  have hmem : ∀ js : List Job, j ∈ js ↔ j ∈ js.filter x.about := fun js => by simp [hj]
  rw [hmem t.jobs, hjobs, ← hmem]

theorem at_of_shown (h : x.shown t = x.shown s) (ha : x.At a s) : x.At a t where
  view := by
    have hledger := (Prod.mk.inj h).1
    simp only [World.ledger, Prod.mk.injEq] at hledger
    obtain ⟨hinvoices, hpayments, hsettlements⟩ := hledger
    rw [← ha.view, Transfer.view, Transfer.view, hinvoices, hpayments, hsettlements]
  watched hne := by
    obtain ⟨j, hj, hw⟩ := ha.watched hne
    exact ⟨j, (mem_of_shown h (x.about_of_watches hw)).mpr hj, hw⟩
  failed receipt hmem htxid := by
    refine ha.failed receipt ((mem_of_shown h ?_).mp hmem) htxid
    simpa [Transfer.about] using htxid

theorem frame_of_shown (h : x.shown t = x.shown s) : x.Frame s t where
  grows := Grows.of_ledger (Prod.mk.inj h).1
  jobs _ hj ha := (mem_of_shown h ha).mpr hj

/-- Background calls are left behind, none to handle a receipt of the transaction that
says it went through. -/
theorem at_append {js : List Job} (ha : x.At a s)
    (hjs : ∀ receipt, Job.handleTransactionReceipt receipt ∈ js →
      receipt.transactionHash = x.txid → receipt.status = false) :
    x.At a { s with jobs := s.jobs ++ js } where
  view := ha.view
  watched hne := by
    obtain ⟨j, hj, hw⟩ := ha.watched hne
    exact ⟨j, List.mem_append_left _ hj, hw⟩
  failed receipt hmem htxid := by
    rcases List.mem_append.mp hmem with hmem | hmem
    · exact ha.failed receipt hmem htxid
    · exact hjs receipt hmem htxid

theorem frame_append (js : List Job) : x.Frame s { s with jobs := s.jobs ++ js } where
  grows := Grows.of_ledger rfl
  jobs _ hj _ := List.mem_append_left _ hj

/-- Tables changed, and nothing of the transfer is seen to change. -/
theorem at_of_view (ha : x.At a s) (hview : x.view t = x.view s) (hjobs : t.jobs = s.jobs) :
    x.At a t where
  view := hview.trans ha.view
  watched hne := hjobs ▸ ha.watched hne
  failed := hjobs ▸ ha.failed

/-- Another invoice is written. -/
theorem view_otherInvoice (hs : x.Ok s) {tb : Table Invoice} {r : Invoice}
    {f : Invoice → Invoice} (hr : r ∈ s.invoices.rows) (huid : r.uid ≠ x.uid)
    (hf : x.ownInvoice (f r) = false) (hrows : tb.rows = Table.patch r.id f s.invoices.rows) :
    x.view { s with invoices := tb } = x.view s := by
  have hinvoices : (tb.select x.ownInvoice).map invoiceColumns =
      (s.invoices.select x.ownInvoice).map invoiceColumns := by
    unfold Table.select
    rw [hrows]
    refine congrArg _ (Table.filter_patch fun y hy hid => ?_)
    obtain rfl := Table.eq_of_id hy hr hid
    exact .inl ⟨not_own_of_uid hs hr huid, hf⟩
  simp only [Transfer.view, hinvoices]

/-- A payment is written in columns that do not matter, or another one is. -/
theorem view_payment {tb : Table Payment} {i : Nat} {f : Payment → Payment}
    (hf : ∀ p ∈ s.payments.rows, p.id = i → x.ownPayment (f p) = x.ownPayment p ∧
      (x.ownPayment p = true → paymentColumns (f p) = paymentColumns p))
    (hrows : tb.rows = Table.patch i f s.payments.rows) :
    x.view { s with payments := tb } = x.view s := by
  have hpayments : (tb.select x.ownPayment).map paymentColumns =
      (s.payments.select x.ownPayment).map paymentColumns := by
    unfold Table.select
    rw [hrows]
    exact Table.map_filter_patch hf
  simp only [Transfer.view, hpayments]

/-! ## Steps that take the transfer on -/

/-- The payment is inserted. -/
theorem at_inserted (ha : x.At .fresh s) (hwatch : ∃ j ∈ s.jobs, x.watches j = true)
    {tb : Table Payment} {p : Payment}
    (hp : paymentColumns p = ⟨x.uid, x.txid, x.currency, some x.chain, .confirming⟩)
    (hrows : tb.rows = s.payments.rows ++ [p]) : x.At .inserted { s with payments := tb } where
  view := by
    have hown : x.ownPayment p = true := by
      have huid : p.invoice_uid = x.uid := congrArg PaymentColumns.invoice_uid hp
      simp [Transfer.ownPayment, huid]
    have hbefore : (s.payments.rows.filter x.ownPayment).map paymentColumns = [] :=
      congrArg Picture.payments ha.view
    have hafter : (tb.select x.ownPayment).map paymentColumns = [paymentColumns p] := by
      rw [Table.select, hrows, List.filter_append, List.map_append, hbefore]
      simp [hown]
    have hinvoices := congrArg Picture.invoices ha.view
    have hsettled := congrArg Picture.settled ha.view
    simp only [Transfer.view, Stage.shows] at hinvoices hsettled ⊢
    rw [hafter, hp, hinvoices, hsettled]
    rfl
  watched _ := hwatch
  failed := ha.failed

/-- The invoice of the transfer is written. -/
theorem view_ownInvoice (ha : x.At a s) {tb : Table Invoice} {r : Invoice}
    {f : Invoice → Invoice} (hr : r ∈ s.invoices.rows) (huid : r.uid = x.uid)
    (hf : (f r).uid = x.uid) (hrows : tb.rows = Table.patch r.id f s.invoices.rows) :
    (tb.select x.ownInvoice).map invoiceColumns = [invoiceColumns (f r)] :=
  Table.map_select_patch_one (congrArg Picture.invoices ha.view) hr (own_of_uid huid)
    (own_of_uid hf) hrows

/-- The invoice is settled under the hash. -/
theorem at_settled (ha : x.At .inserted s) {tb : Table Invoice} {ss : List Settlement}
    {c : Settlement} {r : Invoice} {f : Invoice → Invoice} (hr : r ∈ s.invoices.rows)
    (huid : r.uid = x.uid) (hf : invoiceColumns (f r) = ⟨x.uid, .confirming, some x.txid⟩)
    (hrows : tb.rows = Table.patch r.id f s.invoices.rows) (hss : ss = s.settlements ++ [c])
    (hc : c.uid = x.uid) : x.At .settled { s with invoices := tb, settlements := ss } where
  view := by
    have hafter := view_ownInvoice ha hr huid (congrArg InvoiceColumns.uid hf) hrows
    have hpayments := congrArg Picture.payments ha.view
    have hsettled : (ss.any fun s => s.uid == x.uid) = true := by simp [hss, hc]
    simp only [Transfer.view, Stage.shows] at hpayments ⊢
    rw [hafter, hf, hpayments, hsettled]
    rfl
  watched _ := ha.watched (by simp)
  failed := ha.failed

/-- `revertPayment` releases the invoice. -/
theorem at_released (ha : x.At .settled s) {tb : Table Invoice} {r : Invoice}
    {f : Invoice → Invoice} (hr : r ∈ s.invoices.rows) (huid : r.uid = x.uid)
    (hf : invoiceColumns (f r) = ⟨x.uid, .unpaid, none⟩)
    (hrows : tb.rows = Table.patch r.id f s.invoices.rows) :
    x.At .released { s with invoices := tb } where
  view := by
    have hafter := view_ownInvoice ha hr huid (congrArg InvoiceColumns.uid hf) hrows
    have hpayments := congrArg Picture.payments ha.view
    have hsettled := congrArg Picture.settled ha.view
    simp only [Transfer.view, Stage.shows] at hpayments hsettled ⊢
    rw [hafter, hf, hpayments, hsettled]
    rfl
  watched _ := ha.watched (by simp)
  failed := ha.failed

/-- `revertPayment` marks the payment. -/
theorem at_reverted (ha : x.At .released s) {tb : Table Payment} {p : Payment}
    {f : Payment → Payment} (hp : p ∈ s.payments.rows) (hown : x.ownPayment p = true)
    (hf : paymentColumns (f p) = ⟨x.uid, x.txid, x.currency, some x.chain, .failed⟩)
    (hrows : tb.rows = Table.patch p.id f s.payments.rows) :
    x.At .reverted { s with payments := tb } where
  view := by
    have hownf : x.ownPayment (f p) = true := by
      have huid : (f p).invoice_uid = x.uid := congrArg PaymentColumns.invoice_uid hf
      simp [Transfer.ownPayment, huid]
    have hafter : (tb.select x.ownPayment).map paymentColumns = [paymentColumns (f p)] :=
      Table.map_select_patch_one (congrArg Picture.payments ha.view) hp hown hownf hrows
    have hinvoices := congrArg Picture.invoices ha.view
    have hsettled := congrArg Picture.settled ha.view
    simp only [Transfer.view, Stage.shows] at hinvoices hsettled ⊢
    rw [hafter, hf, hinvoices, hsettled]
    rfl
  watched _ := ha.watched (by simp)
  failed := ha.failed

end Anypay.Receipts
