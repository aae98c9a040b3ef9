/-
Anypay.InvoiceWebhooks — what the webhook of an invoice says (`lib/webhooks.ts`).

`createWebhookForInvoice` makes the row with no payload, `sendWebhookForInvoice`
fills a payload in where there is none and sends what is stored. They are the
calls of this machine, run one after the other; between them the invoices change.
Each POST is kept with the invoices its call found.
-/
import Anypay.Async.Machine
import Anypay.Webhooks

namespace Anypay

open Store Async Proc

namespace InvoiceWebhooks

/-- A POST of `sendWebhookForInvoice(uid)`, and the invoices as the call found them. -/
structure Sent where
  uid : String
  body : Json
  invoices : List Invoice

/-- It carries the invoice as it was at the call. -/
def Sent.Current (p : Sent) : Prop :=
  ∃ invoice ∈ p.invoices, invoice.uid = p.uid ∧ p.body = invoice.toJson

structure State where
  world : World := {}
  sent : List Sent := []

/-- A call with what it finds out on its way, or anything else: a world with the
same webhooks. -/
inductive Event where
  | createWebhookForInvoice (invoice : Invoice) (o : Nat → Answer)
  | sendWebhookForInvoice (uid type : String) (o : Nat → Answer)
  | elsewhere (w : World)

/-- What the POSTs since `w` said. -/
def postsSince (w t : World) : List Json := (t.posts.drop w.posts.length).map Prod.snd

def step (env : Env) (s : State) : Event → Option State
  | .createWebhookForInvoice invoice o =>
      some { s with world := ((createWebhookForInvoice env invoice).exec o s.world).2 }
  | .sendWebhookForInvoice uid type o =>
      let t := ((sendWebhookForInvoice (some uid) type).exec o s.world).2
      some { world := t, sent := s.sent ++ (postsSince s.world t).map fun body =>
        { uid, body, invoices := s.world.invoices.rows } }
  | .elsewhere w => some { s with world := { w with webhooks := s.world.webhooks } }

end InvoiceWebhooks

end Anypay
