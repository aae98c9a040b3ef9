/-
Anypay.ConfirmInvoiceTheorems — which payment `confirmInvoice` asks about, confirms
and returns.

It reads any payment of the invoice for the chain and the currency, returns at once
where that one has a block, and then confirms any payment that has the invoice's hash
for its id. `watched` is `confirmInvoice` with what it finds on its way
(`confirmInvoice_eq`). An invoice paid again on another chain has its new transaction
looked for on the old one (`asked_elsewhere`); `confirms_right` says when nothing of
the kind happens.
-/
import Anypay.ConfirmedEventTheorems
import Anypay.Histories
import Anypay.LedgerTheorems

namespace Anypay

open Store Async Proc Histories Machine Confirming

namespace ConfirmInvoice

/-! ## `confirmInvoice` in three parts -/

/-- What the two rows come to: a result at once, or a question to the chain. -/
inductive Finding where
  | answered (result : ConfirmationResult)
  | asks (payment : Payment) (txid chain currency : String)

/-- What an invoice and a payment of it come to. -/
def Finding.of (invoice : Invoice) (payment : Payment) : Finding :=
  match storedConfirmation payment with
  | some confirmation =>
      .answered { payment := some payment, confirmation := some confirmation }
  | none =>
      match invoice.status, nonEmpty invoice.hash with
      | .confirming, some txid => .asks payment txid (nullText payment.chain) payment.currency
      | _, _ => .answered {}

def lookUp (uid : String) : Task Finding := do
  let invoice ← prisma.invoices.findFirstOrThrow fun r => r.uid == uid
  match ← prisma.payments.findFirst fun r => r.invoice_uid == uid with
  | none => pure (.answered {})
  | some payment => pure (.of invoice payment)

/-- What the chain reports. -/
def report (env : Env) : Finding → Task (Option Confirmation)
  | .answered _ => pure none
  | .asks _ txid chain currency => getConfirmation env txid chain currency

def conclude : Finding → Option Confirmation → Task ConfirmationResult
  | .answered result, _ => pure result
  | .asks payment _ _ _, none => pure { payment := some payment }
  | .asks _ txid _ _, some confirmation => do
      let confirmedPayment ← confirmPaymentByTxid txid confirmation
      pure { payment := some confirmedPayment, confirmation := some confirmation }

theorem confirmInvoice_parts (env : Env) (uid : String) :
    confirmInvoice env uid =
      ((lookUp uid).bind fun finding => (report env finding).bind (conclude finding)).tryCatch
        fun _ => done {} := by
  unfold confirmInvoice lookUp Finding.of
  simp only [bind_eq, pure_eq, Proc.bind_assoc]
  congr 2
  funext invoice
  congr 1
  funext payment
  cases payment with
  | none => rfl
  | some payment =>
      dsimp only
      cases storedConfirmation payment with
      | some confirmation => rfl
      | none =>
          dsimp only
          cases nonEmpty invoice.hash with
          | none => cases invoice.status <;> rfl
          | some txid =>
              cases invoice.status with
              | confirming =>
                  simp only [done_bind, report]
                  congr 1
                  funext found
                  cases found <;> rfl
              | _ => rfl

/-- What is seen of a call: what is asked and reported, where it comes to that, and the
result. -/
structure Watched where
  finding : Option Finding := none
  reported : Option Confirmation := none
  result : ConfirmationResult := {}

/-- `confirmInvoice`, with what is seen of it. -/
def watched (env : Env) (uid : String) : Task Watched :=
  (lookUp uid).attempt.bind fun
  | .error _ => done {}
  | .ok finding =>
      (report env finding).attempt.bind fun
      | .error _ => done { finding := some finding }
      | .ok reported =>
          (conclude finding reported).attempt.bind fun
          | .error _ => done { finding := some finding, reported }
          | .ok result => done { finding := some finding, reported, result }

theorem confirmInvoice_eq (env : Env) (uid : String) :
    confirmInvoice env uid = (watched env uid).bind fun x => done x.result := by
  rw [confirmInvoice_parts, tryCatch_bind, watched, Proc.bind_assoc]
  congr 1
  funext found
  cases found with
  | error e => rfl
  | ok finding =>
      simp only [tryCatch_bind, Proc.bind_assoc]
      congr 1
      funext asked
      cases asked with
      | error e => rfl
      | ok reported =>
          simp only [tryCatch_eq, Proc.bind_assoc]
          congr 1
          funext ended
          cases ended <;> rfl

/-! ## What is right -/

/-- A call: of which invoice, and what it finds out on its way. -/
structure Asked where
  uid : String
  o : Nat → Answer

/-- A call that was made, in which world, and what came of it. -/
structure Told where
  uid : String
  before : World
  seen : Watched
  after : World

def respond (env : Env) (x : Asked) (w : World) : World × List Told :=
  tell (fun seen after => { uid := x.uid, before := w, seen, after })
    ((watched env x.uid).exec x.o w)

/-- Of a confirming invoice: the chain is asked for its hash, on the chain and in the
currency of the payment with that id, and a block that is reported is stored with this
payment, and the invoice is paid. -/
def Confirms (y : Told) (r : Invoice) : Prop :=
  ∃ q ∈ y.before.payments.rows, q.invoice_uid = y.uid ∧ r.hash = some q.txid ∧
    (∃ p, y.seen.finding = some (.asks p q.txid (nullText q.chain) q.currency)) ∧
    ∀ confirmation, y.seen.reported = some confirmation →
      confirmed q confirmation ∈ y.after.payments.rows ∧
        { r with status := .paid } ∈ y.after.invoices.rows

/-- A payment that is returned with a block is the one the invoice's hash names, and has
not failed. -/
def Returns (y : Told) : Prop :=
  ∀ p confirmation, y.seen.result.payment = some p →
    y.seen.result.confirmation = some confirmation →
    ∃ r ∈ y.before.invoices.rows, r.uid = y.uid ∧ r.hash = some p.txid ∧ p.status ≠ .failed

def Right (y : Told) : Prop :=
  (∀ r ∈ y.before.invoices.rows, r.uid = y.uid → r.status = .confirming → Confirms y r) ∧
    Returns y

/-- The payment a confirming invoice waits for: it has no block yet, no other payment
has its id, and every payment of the invoice is on its chain, in its currency and
without a block. -/
structure Awaited (w : World) (r : Invoice) (q : Payment) : Prop where
  own : q.invoice_uid = r.uid
  hash : r.hash = some q.txid
  named : q.txid ≠ ""
  blockless : nonEmpty q.confirmation_hash = none
  only : ∀ p ∈ w.payments.rows, p.txid = q.txid → p = q
  alike : ∀ p ∈ w.payments.rows, p.invoice_uid = r.uid → storedConfirmation p = none ∧
    nullText p.chain = nullText q.chain ∧ p.currency = q.currency

/-- The one row of an invoice, of which no payment misleads. -/
structure Plain (w : World) (r : Invoice) : Prop where
  only : ∀ r' ∈ w.invoices.rows, r'.uid = r.uid → r' = r
  blocks : ∀ p ∈ w.payments.rows, p.invoice_uid = r.uid → storedConfirmation p ≠ none →
    r.hash = some p.txid ∧ p.status ≠ .failed
  awaited : r.status = .confirming → ∃ q ∈ w.payments.rows, Awaited w r q

def Fit (w : World) (x : Asked) : Prop :=
  ∀ r ∈ w.invoices.rows, r.uid = x.uid → Plain w r

/-! ## One call -/

section Calls

variable {A : Answer → Prop} {w : World} {uid : String} {r : Invoice} {q : Payment}

/-- What is found, where nothing misleads: a result that is right, of an invoice that is
not confirming; or the question after the payment that is awaited. -/
inductive Finds (w : World) (r : Invoice) : Finding → Prop where
  | answered (result : ConfirmationResult) (hstatus : r.status ≠ .confirming)
      (hresult : ∀ p confirmation, result.payment = some p →
        result.confirmation = some confirmation → r.hash = some p.txid ∧ p.status ≠ .failed) :
      Finds w r (.answered result)
  | asks (p q : Payment) (hq : q ∈ w.payments.rows) (hawaited : Awaited w r q) :
      Finds w r (.asks p q.txid (nullText q.chain) q.currency)

theorem nonEmpty_of_named (h : Awaited w r q) : nonEmpty r.hash = some q.txid := by
  rw [h.hash]
  simp [nonEmpty, h.named]

/-- Every payment that may be read leads to what is right. -/
theorem finds_of {payment : Payment} (hplain : Plain w r)
    (hpayment : payment ∈ w.payments.rows) (hown : payment.invoice_uid = r.uid) :
    Finds w r (.of r payment) := by
  unfold Finding.of
  cases hstored : storedConfirmation payment with
  | some confirmation =>
      have hright := hplain.blocks payment hpayment hown (by simp [hstored])
      refine .answered _ (fun hstatus => ?_) fun p c hp _ => ?_
      · obtain ⟨q, -, hawaited⟩ := hplain.awaited hstatus
        rw [(hawaited.alike payment hpayment hown).1] at hstored
        exact absurd hstored (by simp)
      · obtain rfl := Option.some.inj hp
        exact hright
  | none =>
      dsimp only
      split
      · rename_i txid hstatus hhash
        obtain ⟨q, hq, hawaited⟩ := hplain.awaited hstatus
        obtain ⟨-, hchain, hcurrency⟩ := hawaited.alike payment hpayment hown
        rw [nonEmpty_of_named hawaited] at hhash
        obtain rfl := Option.some.inj hhash
        rw [hchain, hcurrency]
        exact .asks payment q hq hawaited
      · rename_i hother
        refine .answered _ (fun hstatus => ?_) fun p c hp _ => (by cases hp)
        obtain ⟨q, -, hawaited⟩ := hplain.awaited hstatus
        exact hother _ hstatus (nonEmpty_of_named hawaited)

theorem wp_lookUp (h : ∀ r ∈ w.invoices.rows, r.uid = uid → Plain w r) : (lookUp uid).wp A
    (fun finding t => t = w ∧ ∃ r ∈ w.invoices.rows, r.uid = uid ∧ Finds w r finding)
    (fun _ t => t = w ∧ ∀ r ∈ w.invoices.rows, r.uid ≠ uid) w := by
  unfold lookUp
  simp only [bind_eq, pure_eq, wp_bind]
  refine Delegate.wp_findFirstOrThrow (fun r hr hw => ?_) fun hnone => ?_
  swap
  · exact ⟨rfl, fun r hr huid => by simpa [huid] using hnone r hr⟩
  have huid : r.uid = uid := eq_of_beq hw
  have hplain := h r hr huid
  refine Delegate.wp_findFirst (fun payment hpayment hw => ?_) fun hnone => ?_
  · have hown : payment.invoice_uid = r.uid := (eq_of_beq hw).trans huid.symm
    exact ⟨rfl, r, hr, huid, finds_of hplain hpayment hown⟩
  · refine ⟨rfl, r, hr, huid, .answered _ (fun hstatus => ?_) fun p c hp _ => (by cases hp)⟩
    obtain ⟨q, hq, hawaited⟩ := hplain.awaited hstatus
    have hno := hnone q hq
    rw [hawaited.own, huid] at hno
    exact absurd hno (by simp)

/-- The two rows a block is stored with. -/
def Stored (r : Invoice) (q : Payment) (confirmation : Confirmation) (t : World) : Prop :=
  confirmed q confirmation ∈ t.payments.rows ∧ { r with status := .paid } ∈ t.invoices.rows

/-- A payment without a block gets it, and its invoice is paid, whatever becomes of the
webhooks. -/
theorem wp_confirmPayment_stored {confirmation : Confirmation} (hq : q ∈ w.payments.rows)
    (hblock : nonEmpty q.confirmation_hash = none) (hr : r ∈ w.invoices.rows)
    (huid : r.uid = q.invoice_uid)
    (honly : ∀ r' ∈ w.invoices.rows, r'.uid = q.invoice_uid → r' = r) :
    (confirmPayment q confirmation).wp A
      (fun p t => p = confirmed q confirmation ∧ Stored r q confirmation t)
      (fun _ t => Stored r q confirmation t) w := by
  unfold confirmPayment
  rw [if_neg (by simp [hblock])]
  simp only [bind_eq, pure_eq, wp_bind]
  refine Delegate.wp_update (fun now tb p hp hid hrows _ => ?_) fun _ _ herr => ?_
  swap
  · exact absurd herr (Table.update?_ne_error hq rfl rfl)
  obtain rfl : p = q := Table.eq_of_id hp hq hid
  have hthere : confirmed p confirmation ∈ tb.rows := by
    rw [hrows]
    exact Table.mem_patch (f := (confirmed · confirmation)) hp
  refine Delegate.wp_findFirstOrThrow (fun p' hp' hw => ?_) fun hnone => ?_
  swap
  · have hno := hnone _ hthere
    exact absurd hno (by simp [confirmed])
  obtain rfl : p' = confirmed p confirmation := Table.eq_of_id hp' hthere (eq_of_beq hw)
  refine Delegate.wp_findFirstOrThrow (fun r' hr' hw' => ?_) fun hnone => ?_
  swap
  · have hno := hnone r hr
    exact absurd hno (by simp [confirmed, huid])
  obtain rfl : r' = r := honly r' hr' (eq_of_beq hw')
  refine Delegate.wp_update (fun now' tb' x _ _ hrows' _ => ?_) fun _ te hte => ?_
  swap
  · exact absurd hte (Table.update?_ne_error hr rfl rfl)
  have hpaid : { r' with status := .paid } ∈ tb'.rows := by
    rw [hrows']
    exact Table.mem_patch (f := fun r : Invoice => { r with status := .paid }) hr
  refine wp_publish ?_
  have hkeeps : ∀ topic payload, (createAndSendWebhook topic payload).Keeps
      fun w => (w.payments, w.invoices) := fun topic payload =>
    keeps_createAndSendWebhook topic payload
  have hstored : ∀ v : World, (v.payments, v.invoices) = (tb, tb') →
      Stored r' p confirmation v := by
    intro v hv
    obtain ⟨hpayments, hinvoices⟩ := Prod.mk.inj hv
    exact ⟨hpayments ▸ hthere, hinvoices ▸ hpaid⟩
  exact wp_of_keeps (hkeeps _ _) (fun _ v hv => ⟨rfl, hstored v hv⟩) fun _ v hv => hstored v hv

theorem wp_confirmPaymentByTxid_stored {confirmation : Confirmation}
    (hq : q ∈ w.payments.rows) (hr : r ∈ w.invoices.rows) (hplain : Plain w r)
    (hawaited : Awaited w r q) : (confirmPaymentByTxid q.txid confirmation).wp A
      (fun p t => p = confirmed q confirmation ∧ Stored r q confirmation t)
      (fun _ t => Stored r q confirmation t) w := by
  unfold confirmPaymentByTxid
  simp only [bind_eq, wp_bind]
  refine Delegate.wp_findFirstOrThrow (fun p hp hw => ?_) fun hnone => ?_
  · obtain rfl := hawaited.only p hp (eq_of_beq hw)
    refine wp_confirmPayment_stored hq hawaited.blockless hr hawaited.own.symm ?_
    exact fun r' hr' huid => hplain.only r' hr' (huid.trans hawaited.own)
  · have hno := hnone q hq
    exact absurd hno (by simp)

/-- Right, of a call seen to have found this. -/
def RightAfter (w : World) (uid : String) (seen : Watched) (t : World) : Prop :=
  Right { uid, before := w, seen, after := t }

/-- Nothing was found out, nothing is returned: of no invoice that is confirming. -/
theorem rightAfter_nothing {seen : Watched} {t : World}
    (hnone : ∀ r ∈ w.invoices.rows, r.uid = uid → r.status ≠ .confirming)
    (hresult : seen.result = {}) : RightAfter w uid seen t := by
  refine ⟨fun r hr huid hstatus => absurd hstatus (hnone r hr huid), fun p c hp _ => ?_⟩
  rw [show (Told.seen ⟨uid, w, seen, t⟩).result = {} from hresult] at hp
  exact nomatch hp

theorem rightAfter_asks {p : Payment} {seen : Watched} {t : World} (hplain : Plain w r)
    (hq : q ∈ w.payments.rows) (hr : r ∈ w.invoices.rows) (huid : r.uid = uid)
    (hawaited : Awaited w r q)
    (hfinding : seen.finding = some (.asks p q.txid (nullText q.chain) q.currency))
    (hreported : ∀ c, seen.reported = some c → Stored r q c t)
    (hresult : ∀ c, seen.result.confirmation = some c →
      seen.result.payment = some (confirmed q c)) : RightAfter w uid seen t := by
  constructor
  · intro r' hr' huid' _
    obtain rfl := hplain.only r' hr' (huid'.trans huid.symm)
    exact ⟨q, hq, hawaited.own.trans huid, hawaited.hash, ⟨p, hfinding⟩, hreported⟩
  · intro p' c hp hc
    rw [hresult c hc] at hp
    obtain rfl := Option.some.inj hp
    exact ⟨r, hr, huid, hawaited.hash, by simp [confirmed]⟩

/-- The chain is asked; nothing changes. -/
theorem wp_report {env : Env} {finding : Finding} :
    (report env finding).wp A (fun _ t => t = w) (fun _ t => t = w) w := by
  cases finding with
  | answered result => exact rfl
  | asks payment txid chain currency =>
      have hkeeps : (getConfirmation env txid chain currency).Keeps id :=
        keeps_bind (keeps_ofExcept _) fun _ => keeps_query
      exact wp_of_keeps hkeeps (fun _ _ ht => ht) fun _ _ ht => ht

theorem wp_watched {env : Env} (h : ∀ r ∈ w.invoices.rows, r.uid = uid → Plain w r) :
    (watched env uid).wp A (RightAfter w uid) (fun _ _ => True) w := by
  unfold watched
  rw [wp_bind, wp_attempt]
  refine wp_mono (fun finding s hs => ?_) (fun _ s hs => ?_) (wp_lookUp h)
  swap
  · exact rightAfter_nothing (fun r hr huid => absurd huid (hs.2 r hr)) rfl
  obtain ⟨rfl, r, hr, huid, hfinds⟩ := hs
  have hplain := h r hr huid
  rw [wp_bind, wp_attempt]
  cases hfinds with
  | answered result hstatus hresult =>
      rw [report, pure_eq, wp_done, wp_bind, wp_attempt, conclude, pure_eq, wp_done]
      constructor
      · intro r' hr' huid' hconfirming
        obtain rfl := hplain.only r' hr' (huid'.trans huid.symm)
        exact absurd hconfirming hstatus
      · intro p c hp hc
        obtain ⟨hhash, hfailed⟩ := hresult p c hp hc
        exact ⟨r, hr, huid, hhash, hfailed⟩
  | asks p q hq hawaited =>
      refine wp_mono (fun reported t ht => ?_) (fun _ t ht => ?_) wp_report
      swap
      · exact rightAfter_asks hplain hq hr huid hawaited rfl nofun nofun
      rw [show t = s from ht, wp_bind, wp_attempt]
      cases reported with
      | none =>
          rw [conclude, pure_eq, wp_done]
          exact rightAfter_asks hplain hq hr huid hawaited rfl nofun nofun
      | some confirmation =>
          rw [conclude, bind_eq, wp_bind]
          refine wp_mono (fun p' u hu => ?_) (fun _ u hu => ?_)
            (wp_confirmPaymentByTxid_stored hq hr hplain hawaited)
          · obtain ⟨rfl, hstored⟩ := hu
            rw [pure_eq, wp_done]
            refine rightAfter_asks hplain hq hr huid hawaited rfl (fun c hc => ?_) fun c hc => ?_
            · obtain rfl := Option.some.inj hc
              exact hstored
            · obtain rfl := Option.some.inj hc
              rfl
          · refine rightAfter_asks hplain hq hr huid hawaited rfl (fun c hc => ?_) nofun
            obtain rfl := Option.some.inj hc
            exact hu

end Calls

/-! ## Every history -/

theorem respond_right {env : Env} {x : Asked} {w : World} (h : Fit w x) :
    ∀ y ∈ (respond env x w).2, Right y :=
  tell_of_wp x.o (wp_watched h) fun _ _ hright => hright

/-- In every history of calls that find an invoice of which no payment misleads,
`confirmInvoice` asks for, stores and returns what it should. -/
theorem confirms_right {env : Env} {w : World} {s : Histories.State Told}
    (h : Reach (step env (respond env)) (Fitting Fit) { world := w } s) :
    ∀ y ∈ s.heard, Right y :=
  heard_of_fitting (fun _ _ => respond_right) h

/-! ## An invoice paid again on another chain -/

/-- An option of the invoice. -/
def option (chain : String) : PaymentOption :=
  { id := 1, invoice_uid := "inv", chain, currency := "USDT" }

def unpaid : World := { invoices := .single { id := 1, uid := "inv", status := .unpaid } }

def paying (txid : String) : Transaction := { txhex := "00", txid := some txid }

/-- Paid on one chain, reverted, paid on another, looked for. -/
def paidElsewhere : List (Histories.Event Asked) := [
  .run (.completePayment (option "ETH") (paying "first") true) fun _ => {},
  .run (.revertPayment "first") fun _ => {},
  .run (.completePayment (option "MATIC") (paying "second") true) fun _ => {},
  .call ⟨"inv", fun _ => {}⟩]

/-- The transactions asked for, and on which chain. -/
def Told.asked (y : Told) : List (String × String) :=
  match y.seen.finding with
  | some (.asks _ txid chain _) => [(txid, chain)]
  | _ => []

/-- The payments there are, and on which chain. -/
def Told.paid (y : Told) : List (String × String) :=
  y.before.payments.rows.map fun p => (p.txid, nullText p.chain)

/-- The invoice, where it is confirming. -/
def Told.confirming (y : Told) : List Nat :=
  (y.before.invoices.rows.filter fun r => r.uid == y.uid && r.status == .confirming).map
    Invoice.id

theorem told_paidElsewhere : ((Machine.run (step {} (respond {})) paidElsewhere
    { world := unpaid }).map fun s => s.heard.map fun y => (y.asked, y.paid, y.confirming)) =
      some [([("second", "ETH")], [("first", "ETH"), ("second", "MATIC")], [1])] := by
  decide +kernel

theorem Right.asked {y : Told} (h : Right y) (hconfirming : y.confirming ≠ []) :
    ∀ x ∈ y.asked, x ∈ y.paid := by
  obtain ⟨i, hi⟩ := List.exists_mem_of_ne_nil _ hconfirming
  obtain ⟨r, hr, -⟩ := List.mem_map.mp hi
  obtain ⟨hr, heq⟩ := List.mem_filter.mp hr
  rw [Bool.and_eq_true] at heq
  obtain ⟨q, hq, -, -, ⟨p, hfinding⟩, -⟩ := h.1 r hr (eq_of_beq heq.1) (eq_of_beq heq.2)
  intro x hx
  rw [Told.asked, hfinding, List.mem_singleton] at hx
  rw [hx]
  exact List.mem_map_of_mem (f := fun p : Payment => (p.txid, nullText p.chain)) hq

/-- The new transaction is looked for on the old chain. -/
theorem asked_elsewhere :
    ¬ ∀ (env : Env) (w : World) (s : Histories.State Told),
      Reach (step env (respond env)) Unguarded { world := w } s → ∀ y ∈ s.heard, Right y := by
  intro h
  obtain ⟨s, hs, htold⟩ := Option.map_eq_some_iff.mp told_paidElsewhere
  have hmem : ([("second", "ETH")], [("first", "ETH"), ("second", "MATIC")], [1]) ∈
      s.heard.map fun y => (y.asked, y.paid, y.confirming) := by
    rw [htold]
    exact List.mem_singleton.mpr rfl
  obtain ⟨y, hy, heq⟩ := List.mem_map.mp hmem
  obtain ⟨hasked, hpaid, hconfirming⟩ : y.asked = _ ∧ y.paid = _ ∧ y.confirming = _ := by
    simpa using heq
  have hright := h {} _ s (reach_of_run (guarded_unguarded _ _) hs) y hy
  have hin := hright.asked (by simp [hconfirming]) ("second", "ETH") (by simp [hasked])
  rw [hpaid] at hin
  exact absurd hin (by decide)

/-! ## An invoice paid once -/

/-- A server of one coin. -/
def tether : Env :=
  { plugins := [("USDT.ETH", { currency := "USDT", chain := "ETH", decimals := 6 })] }

/-- The chain has a block. -/
def mined : Nat → Answer := fun _ =>
  { confirmation := .ok (some
      { confirmation_hash := "block", confirmation_height := 7, confirmation_date := 0 }) }

/-- Paid, looked for. -/
def paidOnce : List (Histories.Event Asked) := [
  .run (.completePayment (option "ETH") (paying "first") true) fun _ => {},
  .call ⟨"inv", mined⟩]

/-- The world after the payment. -/
def paid : World :=
  ((program tether (.completePayment (option "ETH") (paying "first") true)).exec
    (fun _ => {}) unpaid).2

theorem paid_rows : ∃ r q, paid.invoices.rows = [r] ∧ paid.payments.rows = [q] ∧
    r.uid = "inv" ∧ r.hash = some "first" ∧ q.invoice_uid = "inv" ∧ q.txid = "first" ∧
    q.confirmation_hash = none := ⟨_, _, rfl, rfl, rfl, rfl, rfl, rfl, rfl⟩

theorem paid_plain : ∀ r ∈ paid.invoices.rows, Plain paid r := by
  obtain ⟨r, q, hinvoices, hpayments, huid, hhash, hown, htxid, hblock⟩ := paid_rows
  have hstored : storedConfirmation q = none := by simp [storedConfirmation, hblock, nonEmpty]
  have honly : ∀ p ∈ paid.payments.rows, p = q := fun p hp => by
    rw [hpayments] at hp
    exact List.mem_singleton.mp hp
  intro r' hr'
  rw [hinvoices, List.mem_singleton] at hr'
  subst hr'
  refine ⟨fun r' hr' _ => ?_, fun p hp _ hblocks => ?_, fun _ => ⟨q, ?_, ?_⟩⟩
  · rw [hinvoices] at hr'
    exact List.mem_singleton.mp hr'
  · rw [honly p hp] at hblocks
    exact absurd hstored hblocks
  · rw [hpayments]
    exact List.mem_singleton.mpr rfl
  · refine ⟨hown.trans huid.symm, hhash.trans (by rw [htxid]), by simp [htxid], ?_,
      fun p hp _ => honly p hp, fun p hp _ => ?_⟩
    · rw [hblock]
      rfl
    · rw [honly p hp]
      exact ⟨hstored, rfl, rfl⟩

theorem paidOnce_fits : Guarded (step tether (respond tether)) (Fitting Fit) paidOnce
    { world := unpaid } := by
  refine ⟨trivial, fun t ht => ⟨fun r hr _ => ?_, fun _ _ => trivial⟩⟩
  obtain rfl := Option.some.inj ht
  exact paid_plain r hr

/-- Paid once, it is confirmed. -/
theorem confirms_right_once : ∃ s, Reach (step tether (respond tether)) (Fitting Fit)
    { world := unpaid } s ∧
      s.heard.map (fun y => (y.asked, y.after.payments.rows.map Payment.status)) =
        [([("first", "ETH")], [.confirmed])] ∧
      ∀ y ∈ s.heard, Right y := by
  have hrun := reach_of_run (t := ⟨_, _⟩) paidOnce_fits rfl
  exact ⟨_, hrun, by decide +kernel, confirms_right hrun⟩

end ConfirmInvoice

end Anypay
