/-
Anypay.LedgerTheorems — what the webhook and event code leaves alone.

The LEDGER of a world is its invoices, its payments and the history of
settlements: what the safety of payments is about. Sending events and webhooks,
whatever it writes elsewhere, never touches it. `keeps_…` says so function by
function; the proofs about payments then step over these calls whole.
-/
import Anypay.Db.Rules
import Anypay.Server

namespace Anypay

open Store Async Proc

/-- Invoices, payments and settlements. -/
def World.ledger (w : World) : Table Invoice × Table Payment × List Settlement :=
  (w.invoices, w.payments, w.settlements)

/-- Everything but what goes out: messages, posts, calls left running. -/
def World.database (w : World) : World := { w with published := [], posts := [], jobs := [] }

/-- The tables invoices are made of. -/
structure SameTables (s t : World) : Prop where
  invoices : t.invoices = s.invoices
  payments : t.payments = s.payments
  paymentOptions : t.paymentOptions = s.paymentOptions
  paymentRequests : t.paymentRequests = s.paymentRequests
  settlements : t.settlements = s.settlements

theorem SameTables.trans {s t u : World} (h : SameTables s t) (h' : SameTables t u) :
    SameTables s u :=
  ⟨h'.invoices.trans h.invoices, h'.payments.trans h.payments,
    h'.paymentOptions.trans h.paymentOptions, h'.paymentRequests.trans h.paymentRequests,
    h'.settlements.trans h.settlements⟩

theorem SameTables.of_database {s t : World} (h : t.database = s.database) :
    SameTables s t where
  invoices := by
    change t.database.invoices = s.database.invoices
    rw [h]
  payments := by
    change t.database.payments = s.database.payments
    rw [h]
  paymentOptions := by
    change t.database.paymentOptions = s.database.paymentOptions
    rw [h]
  paymentRequests := by
    change t.database.paymentRequests = s.database.paymentRequests
    rw [h]
  settlements := by
    change t.database.settlements = s.database.settlements
    rw [h]

theorem keeps_spawn_ledger (j : Job) : (spawn j).Keeps World.ledger :=
  keeps_spawn j fun _ => rfl

theorem keeps_publish_ledger (key : String) (body : Json) :
    (publish key body).Keeps World.ledger :=
  keeps_publish key body fun _ _ => rfl

theorem keeps_ask {α δ : Type} {view : World → δ} (f : Answer → Except Failure α) :
    (ask f).Keeps view :=
  keeps_query

theorem keeps_reject {α δ : Type} {view : World → δ} (message : String) :
    (reject message : Task α).Keeps view := trivial

theorem keeps_detached {δ : Type} {view : World → δ} {p : Task Unit} (h : p.Keeps view) :
    (detached p).Keeps view :=
  keeps_tryCatch h fun _ => trivial

/-- A call whose failure nobody sees does not fail. -/
theorem wp_detached {δ : Type} {view : World → δ} {p : Task Unit} {A : Answer → Prop}
    {Q : Unit → World → Prop} {E : Failure → World → Prop} {s : World}
    (hp : p.Keeps view) (h : ∀ t, view t = view s → Q () t) : (detached p).wp A Q E s := by
  rw [detached, wp_tryCatch]
  exact wp_of_keeps hp (fun _ => h) fun _ => h

/-- Publishing leaves every view alone that does not show the messages. -/
theorem keeps_publishEvent {δ : Type} {view : World → δ} (key : String) (e : Event)
    (hview : ∀ w ms, view { w with published := ms } = view w := by intros; rfl) :
    (publishEvent key e).Keeps view := by
  have hpublish : ∀ k, (publish k e.toJson).Keeps view := fun k =>
    keeps_publish k e.toJson hview
  have hrest : (Proc.bind (publish key e.toJson) fun _ =>
      (forEach (followers "apps" e.app_id e.topic) fun k => publish k e.toJson).bind fun _ =>
        forEach (followers "accounts" e.account_id e.topic) fun k =>
          publish k e.toJson).Keeps view :=
    keeps_bind (hpublish key) fun _ =>
      keeps_bind (keeps_forEach fun k _ => hpublish k) fun _ =>
        keeps_forEach fun k _ => hpublish k
  unfold publishEvent
  refine keeps_bind (keeps_publish _ _ hview) fun _ => ?_
  split
  · split
    · exact hrest
    · exact trivial
  · exact hrest

theorem keeps_findAppWebhooks {δ : Type} {view : World → δ} (app_id : Option Json)
    (topic : String) : (findAppWebhooks app_id topic).Keeps view :=
  keeps_bind (keeps_ofExcept _) fun _ => keeps_query

theorem keeps_findAccountWebhooks {δ : Type} {view : World → δ}
    (account_id : Option Json) : (findAccountWebhooks account_id).Keeps view :=
  keeps_bind (keeps_ofExcept _) fun _ => keeps_query

/-- Webhooks are written and handed on; a view that shows neither is left alone. -/
theorem keeps_createAndSendWebhook {δ : Type} {view : World → δ} (topic : String)
    (payload : Json)
    (hwebhooks : ∀ w tb, view { w with webhooks := tb } = view w := by intros; rfl)
    (hjobs : ∀ w webhook, view { w with jobs := w.jobs ++ [.sendWebhook webhook] } = view w := by
      intros; rfl) :
    (createAndSendWebhook topic payload).Keeps view := by
  unfold createAndSendWebhook
  split
  · exact keeps_reject _
  · split
    · exact trivial
    · refine keeps_bind (keeps_findAppWebhooks _ _) fun _ => ?_
      refine keeps_bind (keeps_findAccountWebhooks _) fun _ => ?_
      refine keeps_bind (keeps_forEach fun _ _ => ?_) fun _ => keeps_forEach fun _ _ => ?_
      all_goals
        refine keeps_bind (keeps_ofExcept _) fun _ => ?_
        exact keeps_bind (Delegate.keeps_create hwebhooks) fun webhook =>
          keeps_spawn _ fun w => hjobs w webhook

theorem keeps_createAndSendWebhook_ledger (topic : String) (payload : Json) :
    (createAndSendWebhook topic payload).Keeps World.ledger :=
  keeps_createAndSendWebhook topic payload

/-- Sending a webhook leaves every view alone that shows neither posts nor webhooks. -/
theorem keeps_sendWebhook {δ : Type} {view : World → δ} (webhook : Webhook)
    (hposts : ∀ w ps, view { w with posts := ps } = view w := by intros; rfl)
    (hwebhooks : ∀ w tb, view { w with webhooks := tb } = view w := by intros; rfl) :
    (sendWebhook webhook).Keeps view := by
  unfold sendWebhook
  simp only [bind_eq, pure_eq]
  split
  · exact trivial
  · split
    · exact trivial
    · refine keeps_bind (keeps_step fun _ w => hposts w _) fun reply => ?_
      cases reply with
      | ok _ => exact keeps_bind (Delegate.keeps_update hwebhooks) fun _ => trivial
      | error _ => exact keeps_bind (Delegate.keeps_update hwebhooks) fun _ => trivial

theorem keeps_sendWebhookForInvoice {δ : Type} {view : World → δ} (uid : Option String)
    (type : String) (hposts : ∀ w ps, view { w with posts := ps } = view w := by intros; rfl)
    (hwebhooks : ∀ w tb, view { w with webhooks := tb } = view w := by intros; rfl) :
    (sendWebhookForInvoice uid type).Keeps view := by
  unfold sendWebhookForInvoice storedWebhook fillPayload
  simp only [bind_eq, pure_eq]
  refine keeps_bind keeps_query fun invoice => ?_
  refine keeps_bind (keeps_bind keeps_query fun found => ?_) fun webhook => ?_
  · cases found with
    | some _ => exact trivial
    | none => exact Delegate.keeps_create hwebhooks
  · refine keeps_bind ?_ fun webhook => keeps_sendWebhook webhook hposts hwebhooks
    split
    · exact Delegate.keeps_update hwebhooks
    · exact trivial

theorem keeps_createWebhookForInvoice {δ : Type} {view : World → δ} (env : Env)
    (invoice : Invoice)
    (hwebhooks : ∀ w tb, view { w with webhooks := tb } = view w := by intros; rfl) :
    (createWebhookForInvoice env invoice).Keeps view := by
  refine keeps_bind keeps_query fun found => ?_
  cases found with
  | some _ => exact trivial
  | none => exact Delegate.keeps_create hwebhooks

theorem keeps_broadcastTx (plugin : Plugin) (transaction : Transaction) :
    (broadcastTx plugin transaction).Keeps World.ledger := by
  refine keeps_step fun c w => ?_
  cases plugin.broadcastTx transaction c <;> rfl

/-- Finding the id of a payment reads no table. -/
theorem keeps_paymentTxid {δ : Type} {view : World → δ} (env : Env) (option : PaymentOption)
    (chain : String) (transaction : Transaction) :
    (paymentTxid env option chain transaction).Keeps view := by
  unfold paymentTxid
  split
  · exact trivial
  · split
    · exact trivial
    · refine keeps_bind (keeps_ofExcept _) fun plugin => keeps_bind (keeps_ask _) fun ids => ?_
      cases ids <;> exact trivial

end Anypay
