/-
Anypay.SettledPaymentTheorems — which payment an invoice is said to be settled by.

The payloads of 'invoice.paid' and 'payment.confirmed' are built from any payment of
the invoice, also a failed one from before it was paid again, and the second for a
payment no block has; the v0 API shows no payment at all, but an empty object
(`told_of_failed`). `told_right`: what is told is right where every payment of the
invoice is the one its hash names, has its block where it is to have one, and no
invoice with a hash is shown.
-/
import Anypay.Histories
import Anypay.InvoiceShow
import Anypay.LedgerTheorems
import Anypay.WebhookServer

namespace Anypay

open Store Async Proc Histories Machine

namespace SettledPayment

/-! ## What is asked and what is told -/

/-- A payload that is built, or an invoice that is shown. -/
inductive Asked where
  | invoicePaid (uid : String) (o : Nat → Answer)
  | paymentConfirmed (uid : String) (o : Nat → Answer)
  | showInvoice (uid : String) (o : Nat → Answer)

/-- What comes of it, with the world it was asked in; a payload with the payment it is
built for. -/
inductive Told where
  | invoicePaid (uid : String) (payment : Payment) (payload : Json) (w : World)
  | paymentConfirmed (uid : String) (payment : Payment) (payload : Json) (w : World)
  | showInvoice (response : InvoiceShow.Response)

/-- `build` of InvoicePaidEvent, with the payment. -/
def paidFor (uid : String) : Task (Payment × Json) := do
  let invoice ← WebhookServer.findInvoice uid
  if invoice.status ≠ .paid then reject "Invoice is not paid"
  else do
    let payment ← WebhookServer.findPayment invoice.uid
    pure (payment, WebhookServer.invoiceEvent "invoice.paid" invoice
      [WebhookServer.invoiceField uid invoice.status.toString,
       WebhookServer.paymentObject payment payment.status.toString])

/-- The `confirmation` of a payload. -/
def confirmationField (payment : Payment) : String × Json :=
  ("confirmation", .obj [
    ("hash", .str (nullText payment.confirmation_hash)),
    ("height", .ofNat (payment.confirmation_height.getD 0))])

/-- `build` of PaymentConfirmedEvent, with the payment. -/
def confirmedFor (uid : String) : Task (Payment × Json) := do
  let payment ← WebhookServer.findPayment uid
  let invoice ← WebhookServer.findInvoice uid
  if invoice.uid ≠ uid then reject "Invoice not found"
  else if payment.invoice_uid ≠ uid then reject "Payment not found"
  else pure (payment, WebhookServer.invoiceEvent "payment.confirmed" invoice
    [WebhookServer.invoiceField uid "paid", WebhookServer.paymentObject payment "confirmed",
     confirmationField payment])

theorem buildInvoicePaid_eq (uid : String) :
    WebhookServer.buildInvoicePaid uid = (paidFor uid).bind fun x => done x.2 := by
  unfold WebhookServer.buildInvoicePaid paidFor
  simp only [bind_eq, pure_eq, Proc.bind_assoc]
  congr 1
  funext invoice
  split
  · rfl
  · simp only [Proc.bind_assoc, done_bind]

theorem buildPaymentConfirmed_eq (uid : String) :
    WebhookServer.buildPaymentConfirmed uid = (confirmedFor uid).bind fun x => done x.2 := by
  unfold WebhookServer.buildPaymentConfirmed confirmedFor
  simp only [bind_eq, pure_eq, Proc.bind_assoc]
  congr 1
  funext payment
  congr 1
  funext invoice
  split
  · rfl
  · split
    · rfl
    · rfl

def respond (env : Env) : Asked → World → World × List Told
  | .invoicePaid uid o, w =>
      tell (fun x _ => .invoicePaid uid x.1 x.2 w) ((paidFor uid).exec o w)
  | .paymentConfirmed uid o, w =>
      tell (fun x _ => .paymentConfirmed uid x.1 x.2 w) ((confirmedFor uid).exec o w)
  | .showInvoice uid o, w =>
      tell (fun response _ => .showInvoice response) ((InvoiceShow.showInvoice env uid).exec o w)

/-! ## What is right -/

/-- The payment is the one the invoice was settled by. -/
def Settles (w : World) (uid : String) (payment : Payment) : Prop :=
  ∃ invoice ∈ w.invoices.rows, invoice.uid = uid ∧ invoice.hash = some payment.txid

/-- The payment object of a payload. -/
def paymentOf (payload : Json) : Option Json :=
  (payload.get "payload").bind fun x => x.get "payment"

def confirmationOf (payload : Json) : Option Json :=
  (payload.get "payload").bind fun x => x.get "confirmation"

/-- What is told describes the payment that settled the invoice; a confirmed payment
has its block, and the payload reports it. -/
def Right : Told → Prop
  | .invoicePaid uid payment payload w =>
      Settles w uid payment ∧
        (paymentOf payload).bind (fun x => x.get "txid") = some (.str payment.txid)
  | .paymentConfirmed uid payment payload w =>
      Settles w uid payment ∧
        (paymentOf payload).bind (fun x => x.get "txid") = some (.str payment.txid) ∧
        ∃ hash height, payment.confirmation_hash = some hash ∧
          payment.confirmation_height = some height ∧
          confirmationOf payload = some (.obj [("hash", .str hash), ("height", .ofNat height)])
  | .showInvoice response =>
      ∀ payment, response.payment = some payment → ∃ txid,
        response.invoice.hash = some txid ∧ payment.get "txid" = some (.str txid)

/-- The payment has its block. -/
def HasBlock (payment : Payment) : Prop :=
  payment.confirmation_hash ≠ none ∧ payment.confirmation_height ≠ none

/-- Whichever rows are found, they are the right ones. -/
def Fit (w : World) : Asked → Prop
  | .invoicePaid uid _ =>
      (∃ invoice ∈ w.invoices.rows, invoice.uid = uid ∧ invoice.status = .paid) →
        ∀ payment ∈ w.payments.rows, payment.invoice_uid = uid → Settles w uid payment
  | .paymentConfirmed uid _ =>
      (∃ invoice ∈ w.invoices.rows, invoice.uid = uid) →
        ∀ payment ∈ w.payments.rows, payment.invoice_uid = uid →
          Settles w uid payment ∧ HasBlock payment
  | .showInvoice uid _ =>
      ∀ invoice ∈ w.invoices.rows, invoice.uid = uid → nonEmpty invoice.hash = none

/-- The response is made from a row of the invoice. -/
def Shows (w : World) (uid : String) (response : InvoiceShow.Response) : Prop :=
  (∃ invoice ∈ w.invoices.rows, invoice.uid = uid ∧
    response.invoice.hash = nonEmpty invoice.hash) ∧
  response.payment = response.invoice.hash.map fun _ =>
    InvoiceShow.responsePayment InvoiceShow.unawaited

/-! ## One call -/

section Calls

variable {A : Answer → Prop} {w : World} {uid : String}

/-- A field of the payload of an event. -/
theorem get_invoiceEvent {topic k : String} {invoice : Invoice} {body : List (String × Json)}
    (haccount : k ≠ "account_id") (happ : k ≠ "app_id") :
    ((WebhookServer.invoiceEvent topic invoice body).get "payload").bind (fun x => x.get k) =
      Json.field k body := by
  simp only [WebhookServer.invoiceEvent, Event.toJson, Json.get, Json.field]
  cases orUndefined invoice.account_id <;> cases orUndefined invoice.app_id <;>
    simp [optionalId, Json.field_cons, Ne.symm haccount, Ne.symm happ]

theorem wp_paidFor : (paidFor uid).wp A
    (fun x _ => (∃ invoice ∈ w.invoices.rows, invoice.uid = uid ∧ invoice.status = .paid) ∧
      x.1 ∈ w.payments.rows ∧ x.1.invoice_uid = uid ∧
      (paymentOf x.2).bind (fun y => y.get "txid") = some (.str x.1.txid))
    (fun _ _ => True) w := by
  unfold paidFor WebhookServer.findInvoice WebhookServer.findPayment
  simp only [bind_eq, pure_eq, wp_bind]
  refine Delegate.wp_findFirstOrThrow (fun invoice hinvoice huid => ?_) fun _ => trivial
  have huid : invoice.uid = uid := eq_of_beq huid
  split
  · trivial
  · rename_i hstatus
    rw [wp_bind]
    refine Delegate.wp_findFirstOrThrow (fun payment hpayment hown => ?_) fun _ => trivial
    refine ⟨⟨invoice, hinvoice, huid, not_not.mp hstatus⟩, hpayment,
      (eq_of_beq hown).trans huid, ?_⟩
    rw [paymentOf, get_invoiceEvent (by decide) (by decide)]
    rfl

theorem wp_confirmedFor : (confirmedFor uid).wp A
    (fun x _ => (∃ invoice ∈ w.invoices.rows, invoice.uid = uid) ∧
      x.1 ∈ w.payments.rows ∧ x.1.invoice_uid = uid ∧
      (paymentOf x.2).bind (fun y => y.get "txid") = some (.str x.1.txid) ∧
      confirmationOf x.2 = some (confirmationField x.1).2)
    (fun _ _ => True) w := by
  unfold confirmedFor WebhookServer.findInvoice WebhookServer.findPayment
  simp only [bind_eq, pure_eq, wp_bind]
  refine Delegate.wp_findFirstOrThrow (fun payment hpayment hown => ?_) fun _ => trivial
  refine Delegate.wp_findFirstOrThrow (fun invoice hinvoice huid => ?_) fun _ => trivial
  have huid : invoice.uid = uid := eq_of_beq huid
  split
  · trivial
  · split
    · trivial
    · refine ⟨⟨invoice, hinvoice, huid⟩, hpayment, eq_of_beq hown, ?_, ?_⟩
      · rw [paymentOf, get_invoiceEvent (by decide) (by decide)]
        rfl
      · rw [confirmationOf, get_invoiceEvent (by decide) (by decide)]
        rfl

/-- Where a payment is shown, it is what was made of a promise. -/
theorem wp_describe {env : Env} {invoice : Invoice} {t : World} :
    (InvoiceShow.describe env invoice).wp A
      (fun response _ => response.invoice.hash = nonEmpty invoice.hash ∧
        response.payment = response.invoice.hash.map fun _ =>
          InvoiceShow.responsePayment InvoiceShow.unawaited)
      (fun _ _ => True) t := by
  unfold InvoiceShow.describe
  simp only [bind_eq, pure_eq, wp_bind]
  refine wp_mono (fun _ u _ => ?_) (fun _ _ _ => trivial) (wp_trivial _ t)
  refine Delegate.wp_findMany ?_
  exact ⟨rfl, rfl⟩

theorem wp_showInvoice {env : Env} : (InvoiceShow.showInvoice env uid).wp A
    (fun response _ => Shows w uid response) (fun _ _ => True) w := by
  have hshown : ∀ invoice ∈ w.invoices.rows, invoice.uid = uid → ∀ t,
      (InvoiceShow.describe env invoice).wp A (fun response _ => Shows w uid response)
        (fun _ _ => True) t := fun invoice hinvoice huid t =>
    wp_mono (fun _ _ h => ⟨⟨invoice, hinvoice, huid, h.1⟩, h.2⟩) (fun _ _ _ => trivial)
      wp_describe
  unfold InvoiceShow.showInvoice
  simp only [bind_eq, wp_bind]
  refine Delegate.wp_findFirstOrThrow (fun invoice hinvoice huid => ?_) fun _ => trivial
  have huid : invoice.uid = uid := eq_of_beq huid
  refine wp_ask_ok fun c _ => ?_
  split
  · unfold refreshInvoice
    simp only [bind_eq, pure_eq, wp_bind]
    refine Delegate.wp_findFirstOrThrow (fun r hr hru => ?_) fun _ => trivial
    -- the row read here is the one that is shown, whatever the refresh goes on to do
    refine wp_mono (fun _ s _ => ?_) (fun _ _ _ => trivial) (wp_trivial _ w)
    refine wp_mono (fun _ s _ => ?_) (fun _ _ _ => trivial) (wp_trivial _ s)
    refine wp_mono (fun _ s _ => ?_) (fun _ _ _ => trivial) (wp_trivial _ s)
    refine wp_mono (fun _ s _ => ?_) (fun _ _ _ => trivial) (wp_trivial _ s)
    exact hshown r hr ((eq_of_beq hru).trans huid) s
  · exact hshown invoice hinvoice huid w

theorem respond_right {env : Env} {x : Asked} (h : Fit w x) :
    ∀ y ∈ (respond env x w).2, Right y := by
  cases x with
  | invoicePaid uid o =>
      refine tell_of_wp o wp_paidFor fun x t hx => ?_
      obtain ⟨hpaid, hpayment, hown, htxid⟩ := hx
      exact ⟨h hpaid _ hpayment hown, htxid⟩
  | paymentConfirmed uid o =>
      refine tell_of_wp o wp_confirmedFor fun x t hx => ?_
      obtain ⟨hinvoice, hpayment, hown, htxid, hconfirmation⟩ := hx
      obtain ⟨hsettles, hhash, hheight⟩ := h hinvoice _ hpayment hown
      obtain ⟨hash, hhash⟩ := Option.ne_none_iff_exists'.mp hhash
      obtain ⟨height, hheight⟩ := Option.ne_none_iff_exists'.mp hheight
      refine ⟨hsettles, htxid, hash, height, hhash, hheight, ?_⟩
      rw [hconfirmation]
      simp only [confirmationField, hhash, hheight, nullText, Option.getD_some]
  | showInvoice uid o =>
      refine tell_of_wp o wp_showInvoice fun response t hresponse => ?_
      obtain ⟨⟨invoice, hinvoice, huid, hhash⟩, hshown⟩ := hresponse
      rw [hhash, h invoice hinvoice huid, Option.map_none] at hshown
      intro payment hpayment
      rw [hshown] at hpayment
      exact absurd hpayment (by simp)

/-- An invoice with a hash is never shown rightly. -/
theorem show_right_iff {env : Env} {o : Nat → Answer} {response : InvoiceShow.Response}
    (h : .showInvoice response ∈ (respond env (.showInvoice uid o) w).2) :
    Right (.showInvoice response) ↔ response.invoice.hash = none := by
  have hshown := tell_of_wp o wp_showInvoice
    (P := fun y => ∀ r, y = .showInvoice r → r.payment = r.invoice.hash.map fun _ =>
      InvoiceShow.responsePayment InvoiceShow.unawaited)
    (fun a t ha r hr => by
      obtain rfl := Told.showInvoice.inj hr
      exact ha.2)
    _ h response rfl
  constructor
  · intro hright
    cases hhash : response.invoice.hash with
    | none => rfl
    | some hash =>
        rw [hhash, Option.map_some] at hshown
        obtain ⟨txid, -, hget⟩ := hright _ hshown
        exact absurd hget (by simp [InvoiceShow.responsePayment, InvoiceShow.unawaited,
          InvoiceShow.paymentFields, Json.get, Json.field])
  · intro hhash payment hpayment
    rw [hshown, hhash, Option.map_none] at hpayment
    exact absurd hpayment (by simp)

/-- Two rows are read one after the other: any two that match. -/
theorem exists_answers {i j : Nat} : ∃ o : Nat → Answer, (o 0).row = i ∧ (o 1).row = j :=
  ⟨fun n => n.casesOn { row := i } fun _ => { row := j }, rfl, rfl⟩

theorem respond_invoicePaid (env : Env) {invoice : Invoice} {payment : Payment}
    (hinvoice : invoice ∈ w.invoices.rows) (huid : invoice.uid = uid)
    (hpaid : invoice.status = .paid) (hpayment : payment ∈ w.payments.rows)
    (hown : payment.invoice_uid = uid) :
    ∃ o payload, .invoicePaid uid payment payload w ∈ (respond env (.invoicePaid uid o) w).2 := by
  obtain ⟨i, hi⟩ : ∃ i, w.invoices.pick (fun r => r.uid == uid) i = some invoice :=
    Table.exists_pick hinvoice (by simp [huid])
  obtain ⟨j, hj⟩ : ∃ j, w.payments.pick (fun r => r.invoice_uid == invoice.uid) j =
      some payment := Table.exists_pick hpayment (by simp [hown, huid])
  obtain ⟨o, rfl, rfl⟩ := exists_answers (i := i) (j := j)
  refine ⟨o, ?_⟩
  simp only [respond, paidFor, WebhookServer.findInvoice, WebhookServer.findPayment, bind_eq]
  rw [Delegate.exec_found_bind hi, if_neg (not_not.mpr hpaid), Delegate.exec_found_bind hj]
  exact ⟨_, List.mem_singleton.mpr rfl⟩

theorem respond_paymentConfirmed (env : Env) {invoice : Invoice} {payment : Payment}
    (hinvoice : invoice ∈ w.invoices.rows) (huid : invoice.uid = uid)
    (hpayment : payment ∈ w.payments.rows) (hown : payment.invoice_uid = uid) :
    ∃ o payload, .paymentConfirmed uid payment payload w ∈
      (respond env (.paymentConfirmed uid o) w).2 := by
  obtain ⟨i, hi⟩ : ∃ i, w.payments.pick (fun r => r.invoice_uid == uid) i = some payment :=
    Table.exists_pick hpayment (by simp [hown])
  obtain ⟨j, hj⟩ : ∃ j, w.invoices.pick (fun r => r.uid == uid) j = some invoice :=
    Table.exists_pick hinvoice (by simp [huid])
  obtain ⟨o, rfl, rfl⟩ := exists_answers (i := i) (j := j)
  refine ⟨o, ?_⟩
  simp only [respond, confirmedFor, WebhookServer.findInvoice, WebhookServer.findPayment,
    bind_eq]
  rw [Delegate.exec_found_bind hi, Delegate.exec_found_bind hj, if_neg (not_not.mpr huid),
    if_neg (not_not.mpr hown)]
  exact ⟨_, List.mem_singleton.mpr rfl⟩

theorem fit_of_invoicePaid {env : Env} {o : Nat → Answer}
    (h : ∀ o, ∀ y ∈ (respond env (.invoicePaid uid o) w).2, Right y) :
    Fit w (.invoicePaid uid o) := by
  intro hinvoice payment hpayment hown
  obtain ⟨invoice, hinvoice, huid, hpaid⟩ := hinvoice
  obtain ⟨o', payload, htold⟩ :=
    respond_invoicePaid env hinvoice huid hpaid hpayment hown
  exact (h o' _ htold).1

theorem fit_of_paymentConfirmed {env : Env} {o : Nat → Answer}
    (h : ∀ o, ∀ y ∈ (respond env (.paymentConfirmed uid o) w).2, Right y) :
    Fit w (.paymentConfirmed uid o) := by
  intro hinvoice payment hpayment hown
  obtain ⟨invoice, hinvoice, huid⟩ := hinvoice
  obtain ⟨o', payload, htold⟩ :=
    respond_paymentConfirmed env hinvoice huid hpayment hown
  obtain ⟨hsettles, -, hash, height, hhash, hheight, -⟩ := h o' _ htold
  refine ⟨hsettles, ?_, ?_⟩
  · rw [hhash]
    simp
  · rw [hheight]
    simp

end Calls

/-! ## Every history -/

/-- In every history what is told is right whose calls find only right payments; and
where a call may find another, it may tell of it. -/
theorem told_right (env : Env) :
    (∀ w s, Reach (step env (respond env)) (Fitting Fit) { world := w } s →
      ∀ y ∈ s.heard, Right y) ∧
    ∀ (w : World) (uid : String) (o : Nat → Answer),
      ((∀ o, ∀ y ∈ (respond env (.invoicePaid uid o) w).2, Right y) ↔
        Fit w (.invoicePaid uid o)) ∧
      ((∀ o, ∀ y ∈ (respond env (.paymentConfirmed uid o) w).2, Right y) ↔
        Fit w (.paymentConfirmed uid o)) ∧
      ∀ response, .showInvoice response ∈ (respond env (.showInvoice uid o) w).2 →
        (Right (.showInvoice response) ↔ response.invoice.hash = none) := by
  constructor
  · intro w s hrun
    exact heard_of_fitting (fun _ _ => respond_right) hrun
  · intro w uid o
    refine ⟨⟨fit_of_invoicePaid, fun hfit o => ?_⟩,
      ⟨fit_of_paymentConfirmed, fun hfit o => ?_⟩, fun response => show_right_iff⟩
    · exact respond_right (x := .invoicePaid uid o) hfit
    · exact respond_right (x := .paymentConfirmed uid o) hfit

/-! ## An invoice paid again -/

/-- An option of the invoice. -/
def option : PaymentOption := { id := 1, invoice_uid := "inv", chain := "BTC", currency := "BTC" }

def unpaid : World := { invoices := .single { id := 1, uid := "inv", status := .unpaid } }

def paying (txid : String) : Transaction := { txhex := "00", txid := some txid }

/-- Paid, reverted, paid again, told. -/
def paidAgain : List (Histories.Event Asked) := [
  .run (.completePayment option (paying "first") true) fun _ => {},
  .run (.revertPayment "first") fun _ => {},
  .run (.completePayment option (paying "second") false) fun _ => {},
  .call (.invoicePaid "inv" fun _ => {})]

/-- The payment told of, and the hashes there were. -/
def Told.against : Told → List (String × List (Option String))
  | .invoicePaid _ payment _ w => [(payment.txid, w.invoices.rows.map Invoice.hash)]
  | _ => []

theorem told_paidAgain : ((Machine.run (step {} (respond {})) paidAgain
    { world := unpaid }).map fun s => s.heard.flatMap Told.against) =
      some [("first", [some "second"])] := by
  decide +kernel

theorem Right.against {y : Told} (h : Right y) :
    ∀ x ∈ y.against, some x.1 ∈ x.2 := by
  intro x hx
  cases y with
  | invoicePaid uid payment payload w =>
      obtain ⟨⟨invoice, hmem, -, hhash⟩, -⟩ := h
      rw [List.mem_singleton.mp hx]
      exact List.mem_map.mpr ⟨invoice, hmem, hhash⟩
  | paymentConfirmed uid payment payload w => exact absurd hx List.not_mem_nil
  | showInvoice response => exact absurd hx List.not_mem_nil

/-- The merchant is told that the payment which failed paid the invoice. -/
theorem told_of_failed :
    ¬ ∀ (env : Env) (w : World) (s : Histories.State Told),
      Reach (step env (respond env)) Unguarded { world := w } s → ∀ y ∈ s.heard, Right y := by
  intro h
  obtain ⟨s, hs, htold⟩ := Option.map_eq_some_iff.mp told_paidAgain
  have hmem : ("first", [some "second"]) ∈ s.heard.flatMap Told.against := by
    rw [htold]
    exact List.mem_singleton.mpr rfl
  obtain ⟨y, hy, hx⟩ := List.mem_flatMap.mp hmem
  have hright := h {} _ s (reach_of_run (guarded_unguarded _ _) hs) y hy
  exact absurd (hright.against _ hx) (by decide)

/-- Every payment is the one its invoice names. -/
def allSettle (w : World) : Bool :=
  w.payments.rows.all fun payment => w.invoices.rows.any fun invoice =>
    invoice.uid == payment.invoice_uid && invoice.hash == some payment.txid

theorem settles_of_all {w : World} {payment : Payment} (h : allSettle w = true)
    (hpayment : payment ∈ w.payments.rows) : Settles w payment.invoice_uid payment := by
  obtain ⟨invoice, hinvoice, heq⟩ := List.any_eq_true.mp (List.all_eq_true.mp h _ hpayment)
  rw [Bool.and_eq_true] at heq
  exact ⟨invoice, hinvoice, eq_of_beq heq.1, eq_of_beq heq.2⟩

/-- Paid, told. -/
def paidOnce : List (Histories.Event Asked) := [
  .run (.completePayment option (paying "first") false) fun _ => {},
  .call (.invoicePaid "inv" fun _ => {})]

/-- The world after the payment. -/
def paid : World := ((program {} (.completePayment option (paying "first") false)).exec
  (fun _ => {}) unpaid).2

theorem paidOnce_fits : Guarded (step {} (respond {})) (Fitting Fit) paidOnce
    { world := unpaid } := by
  refine ⟨trivial, fun t ht => ⟨?_, fun _ _ => trivial⟩⟩
  obtain rfl := Option.some.inj ht
  intro _ payment hpayment hown
  have hall : allSettle paid = true := by decide +kernel
  rw [← hown]
  exact settles_of_all hall hpayment

/-- Paid once, the merchant is told so. -/
theorem told_right_once : ∃ s, Reach (step {} (respond {})) (Fitting Fit)
    { world := unpaid } s ∧ s.heard.flatMap Told.against = [("first", [some "first"])] ∧
      ∀ y ∈ s.heard, Right y := by
  have hrun := reach_of_run (t := ⟨_, _⟩) paidOnce_fits rfl
  exact ⟨_, hrun, by decide +kernel, (told_right {}).1 _ _ hrun⟩

end SettledPayment

end Anypay
