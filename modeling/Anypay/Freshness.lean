/-
Anypay.Freshness — invoices created, prices changed, invoices refreshed and shown, one
event after the other, each at its time.

A show either takes the options as they are or refreshes them first. `refreshNoted` is
`refreshInvoice` with the ids of the options it rewrites (`refreshInvoice_eq`), so that
beside the world there is for every option the time its outputs were computed at. A
refresh that throws notes nothing: the prices of an option are never older than is
written down.
-/
import Anypay.Async.Machine
import Anypay.PaymentRequestShow
import Anypay.PaymentRequests

namespace Anypay

open Async Proc

namespace Freshness

/-! ## A refresh, and what it rewrites -/

/-- The body of the loop of `refreshInvoice`, with the row it rewrites. -/
def refreshOptionNoted (env : Env) (invoice : Invoice) (paymentRequest : PaymentRequest)
    (option : PaymentOption) : Task (List Nat) :=
  match templateOf paymentRequest.template option with
  | none => pure []
  | some template => do
      let outputs ← mapAll template.to_ (refreshedOutput env option)
      let record ← prisma.payment_options.findFirstOrThrow fun r =>
        r.invoice_uid == invoice.uid && r.currency == option.currency &&
          r.chain == option.chain
      let _ ← prisma.payment_options.update record.id
        (fun _ r => { r with outputs := some outputs }) (PaymentOption.refreshed_id outputs)
      pure [record.id]

/-- `refreshInvoice(uid)`, with the rows it rewrites. -/
def refreshNoted (env : Env) (uid : String) : Task (Invoice × List Nat) := do
  let invoice ← prisma.invoices.findFirstOrThrow fun r => r.uid == uid
  let paymentOptions ← prisma.payment_options.findMany fun r => r.invoice_uid == uid
  let paymentRequest ← prisma.paymentRequests.findFirstOrThrow fun r =>
    r.invoice_uid == some uid
  let written ← mapAll paymentOptions (refreshOptionNoted env invoice paymentRequest)
  let _ ← prisma.invoices.update invoice.id
    (fun now r => { r with expiry := some (now + fifteenMinutes) }) Invoice.refreshed_id
  pure (invoice, written.flatten)

theorem refreshOption_eq (env : Env) (invoice : Invoice) (paymentRequest : PaymentRequest)
    (option : PaymentOption) : refreshOption env invoice paymentRequest option =
      (refreshOptionNoted env invoice paymentRequest option).bind fun _ => done () := by
  unfold refreshOption refreshOptionNoted
  cases templateOf paymentRequest.template option with
  | none => rfl
  | some template => simp only [bind_eq, pure_eq, Proc.bind_assoc, done_bind]

theorem refreshInvoice_eq (env : Env) (uid : String) :
    refreshInvoice env uid = (refreshNoted env uid).bind fun x => done x.1 := by
  have hloop : ∀ (invoice : Invoice) (paymentRequest : PaymentRequest)
      (options : List PaymentOption),
      forEach options (refreshOption env invoice paymentRequest) =
        (mapAll options (refreshOptionNoted env invoice paymentRequest)).bind
          fun _ => done () := by
    intro invoice paymentRequest options
    induction options with
    | nil => rfl
    | cons option options ih =>
        simp only [forEach, mapAll, ih, refreshOption_eq, Proc.bind_assoc, done_bind]
  unfold refreshInvoice refreshNoted
  simp only [bind_eq, pure_eq, Proc.bind_assoc, done_bind, hloop]

/-! ## A show, and what it rewrites -/

/-- The invoice that is shown: the one that was read, or the one the refresh read, with the
options that were rewritten. -/
def currentNoted (env : Env) (invoice : Invoice) : Task (Invoice × List Nat) := do
  let now ← ask fun c => .ok c.now
  if invoice.status = .unpaid ∧ isExpired invoice now = true then refreshNoted env invoice.uid
  else pure (invoice, [])

/-- A show that refuses some invoices and makes a response of the others: what it rewrote,
and what became of the response. -/
def shownNoted {α : Type} (env : Env) (refused : Invoice → Prop) [DecidablePred refused]
    (respond : Invoice → Task α) (uid : String) :
    Task ((Invoice × List Nat) × Except Failure α) := do
  let invoice ← prisma.invoices.findFirstOrThrow fun r => r.uid == uid
  if refused invoice then reject "invoice cancelled"
  else do
    let x ← currentNoted env invoice
    let response ← (respond x.1).attempt
    pure (x, response)

theorem showInvoice_eq (env : Env) (uid : String) :
    InvoiceShow.showInvoice env uid =
      (shownNoted env (fun _ => False) (InvoiceShow.describe env) uid).bind
        fun x => Proc.ofExcept x.2 := by
  unfold InvoiceShow.showInvoice shownNoted currentNoted
  simp only [bind_eq, pure_eq, if_false, Proc.bind_assoc, refreshInvoice_eq, done_bind]
  congr 1
  funext invoice
  congr 1
  funext now
  split
  · simp only [attempt_bind_ofExcept]
  · simp only [done_bind, attempt_bind_ofExcept]

theorem showPaymentRequest_eq (env : Env) (scripts : Scripts) (uid : String)
    (accept : PaymentRequestShow.Accept) :
    PaymentRequestShow.showPaymentRequest env scripts uid accept =
      (shownNoted env (fun r => r.cancelled = true)
        (fun _ => PaymentRequestShow.respond env scripts uid accept) uid).bind
          fun x => Proc.ofExcept x.2 := by
  unfold PaymentRequestShow.showPaymentRequest shownNoted currentNoted
  simp only [bind_eq, pure_eq, Proc.bind_assoc, refreshInvoice_eq]
  congr 1
  funext invoice
  by_cases hcancelled : invoice.cancelled = true
  · rw [if_pos hcancelled, if_pos hcancelled]
    rfl
  · rw [if_neg hcancelled, if_neg hcancelled, Proc.bind_assoc]
    congr 1
    funext now
    split
    · simp only [Proc.bind_assoc, done_bind, attempt_bind_ofExcept]
    · simp only [Proc.bind_assoc, done_bind, attempt_bind_ofExcept]

/-! ## The events -/

/-- What happens at a time, with what it finds out on its way. -/
inductive Event where
  | createInvoice (params : List (String × Json)) (now : Time) (o : Nat → Answer)
  | createPaymentRequest (app_id : Int) (template : List Json) (options : Option Json)
      (now : Time) (o : Nat → Answer)
  /-- Prices change, and what else there is. -/
  | elsewhere (w : World) (now : Time)
  /-- The command `refresh` of `bin/invoice.ts`. -/
  | refreshInvoice (uid : String) (now : Time) (o : Nat → Answer)
  | showInvoice (uid : String) (now : Time) (o : Nat → Answer)
  | showPaymentRequest (uid : String) (accept : PaymentRequestShow.Accept) (now : Time)
      (o : Nat → Answer)

def Event.now : Event → Time
  | .createInvoice _ now _ => now
  | .createPaymentRequest _ _ _ now _ => now
  | .elsewhere _ now => now
  | .refreshInvoice _ now _ => now
  | .showInvoice _ now _ => now
  | .showPaymentRequest _ _ now _ => now

/-- The answers of an event are given at its time. -/
def at_ (now : Time) (o : Nat → Answer) : Nat → Answer := fun n => { o n with now }

/-- An invoice that was shown, the options there were, and when their outputs were
computed. -/
structure Shown where
  now : Time
  invoice : Invoice
  options : List PaymentOption
  readAt : Nat → Time

structure State where
  clock : Time := 0
  world : World := {}
  readAt : Nat → Time := fun _ => 0
  shown : List Shown := []

/-- The outputs of these options were computed now. -/
def stamp (readAt : Nat → Time) (now : Time) (written : List Nat) : Nat → Time :=
  fun i => if i ∈ written then now else readAt i

/-- The options of `t` that are not in `s`. -/
def newOptions (s t : World) : List Nat :=
  (t.paymentOptions.rows.map PaymentOption.id).filter fun i =>
    !(s.paymentOptions.rows.any fun o => o.id == i)

/-- An invoice was created, or not. -/
def State.create (s : State) (now : Time) (w : World) : State :=
  { s with clock := now, world := w, readAt := stamp s.readAt now (newOptions s.world w) }

/-- An invoice was refreshed, or not. -/
def State.refresh (s : State) (now : Time) :
    Except Failure (Invoice × List Nat) × World → State
  | (.error _, w) => { s with clock := now, world := w }
  | (.ok (_, written), w) =>
      { s with clock := now, world := w, readAt := stamp s.readAt now written }

/-- An invoice was shown, or not; where the response failed it was refreshed all the
same. -/
def State.show_ {α : Type} (s : State) (now : Time) (uid : String) :
    Except Failure ((Invoice × List Nat) × Except Failure α) × World → State
  | (.error _, w) => { s with clock := now, world := w }
  | (.ok ((invoice, written), response), w) =>
      let readAt := stamp s.readAt now written
      let options := w.paymentOptions.rows.filter fun o => o.invoice_uid == uid
      { clock := now, world := w, readAt,
        shown :=
          if response.isOk then s.shown ++ [{ now, invoice, options, readAt }] else s.shown }

/-- No event is earlier than the one before it. -/
def step (env : Env) (scripts : Scripts) (s : State) (e : Event) : Option State :=
  if e.now < s.clock then none
  else match e with
  | .createInvoice params now o =>
      some (s.create now ((createInvoice env params).exec (at_ now o) s.world).2)
  | .createPaymentRequest app_id template options now o =>
      some (s.create now
        ((createPaymentRequest env app_id template options).exec (at_ now o) s.world).2)
  | .elsewhere w now => some { s with
      clock := now, world := { w with
        invoices := s.world.invoices, paymentOptions := s.world.paymentOptions,
        paymentRequests := s.world.paymentRequests } }
  | .refreshInvoice uid now o =>
      some (s.refresh now ((refreshNoted env uid).exec (at_ now o) s.world))
  | .showInvoice uid now o =>
      some (s.show_ now uid ((shownNoted env (fun _ => False) (InvoiceShow.describe env)
        uid).exec (at_ now o) s.world))
  | .showPaymentRequest uid accept now o =>
      some (s.show_ now uid ((shownNoted env (fun r => r.cancelled = true)
        (fun _ => PaymentRequestShow.respond env scripts uid accept) uid).exec (at_ now o)
          s.world))

end Freshness

end Anypay
