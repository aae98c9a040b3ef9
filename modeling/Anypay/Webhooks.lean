/-
Anypay.Webhooks — events and webhooks.

The event schemas of `src/webhooks/schemas`, the publication of events
(`lib/amqp.ts`) and the webhook functions of `lib/webhooks.ts`: a subscription
webhook per matching row of AppWebhooks and AccountWebhooks, and the one webhook
an invoice has of its own.

A `where` field that is `undefined` is no constraint (`whereField`). An event
is published by un-awaited calls, whose failure nobody sees: a call site here
wraps them in `detached`.
-/
import Anypay.Json.Number
import Anypay.Json.Schema
import Anypay.Plugins

namespace Anypay

open Async Proc

/-! ## Event schemas -/

/-- `z.string().regex(/pattern/)`. -/
def matching (pattern : String) : Schema := .string (some pattern)

/-- What the six event schemas share: `{ topic, payload: { account_id?, app_id?,
invoice, … } }`. -/
def eventSchema (topic : String) (invoice : List (String × Bool × Schema))
    (rest : List (String × Bool × Schema)) : Schema :=
  .object [
    ("topic", false, matching topic),
    ("payload", false, .object ([
      ("account_id", true, .number),
      ("app_id", true, .number),
      ("invoice", false, .object (("uid", false, .string none) :: invoice))] ++ rest))]

/-- The `payment` field of an event, with the schema of its status. -/
def paymentField (status : Schema) : String × Bool × Schema :=
  ("payment", false, .object [
    ("chain", false, .string none),
    ("currency", false, .string none),
    ("txid", false, .string none),
    ("status", false, status)])

def InvoiceCreatedEvent : Schema :=
  eventSchema "invoice.created"
    [("status", false, matching "unpaid"),
     ("quote", false, .object [
       ("value", false, .number), ("currency", false, .string none)])] []

def InvoiceCancelledEvent : Schema :=
  eventSchema "invoice.cancelled" [("status", false, matching "cancelled")] []

def InvoicePaidEvent : Schema :=
  eventSchema "invoice.paid" [("status", false, matching "paid")]
    [paymentField (.string none)]

def PaymentConfirmingEvent : Schema :=
  eventSchema "payment.confirming" [("status", false, matching "confirming")]
    [paymentField (matching "confirming")]

def PaymentConfirmedEvent : Schema :=
  eventSchema "payment.confirmed" [("status", false, matching "paid")]
    [paymentField (matching "confirmed"),
     ("confirmation", false, .object [
       ("hash", false, .string none), ("height", false, .number)])]

def PaymentFailedEvent : Schema :=
  eventSchema "payment.failed" [("status", false, matching "unpaid")]
    [paymentField (matching "failed")]

/-- `webhookSchemas`. -/
def webhookSchemas : List (String × Schema) := [
  ("invoice.created", InvoiceCreatedEvent),
  ("invoice.cancelled", InvoiceCancelledEvent),
  ("invoice.paid", InvoicePaidEvent),
  ("payment.confirming", PaymentConfirmingEvent),
  ("payment.confirmed", PaymentConfirmedEvent),
  ("payment.failed", PaymentFailedEvent)]

/-- The schemas the library modules register with `registerSchema`. -/
def registeredSchemas : List (String × Schema) := [
  ("payment.confirming", PaymentConfirmingEvent),
  ("payment.failed", PaymentFailedEvent),
  ("invoice.paid", InvoicePaidEvent),
  ("invoice.created", InvoiceCreatedEvent),
  ("invoice.cancelled", InvoiceCancelledEvent)]

def getSchema (routingKey : String) : Option Schema := registeredSchemas.lookup routingKey

theorem getSchema_paid : getSchema "invoice.paid" = some InvoicePaidEvent := by
  simp [getSchema, registeredSchemas, List.lookup_cons]

theorem getSchema_created : getSchema "invoice.created" = some InvoiceCreatedEvent := by
  simp [getSchema, registeredSchemas, List.lookup_cons]

theorem getSchema_cancelled : getSchema "invoice.cancelled" = some InvoiceCancelledEvent := by
  simp [getSchema, registeredSchemas, List.lookup_cons]

/-! ## Publishing events -/

/-- An event: a topic and a payload with the ids of whom it concerns. -/
structure Event where
  topic : String
  account_id : Option Int := none
  app_id : Option Int := none
  body : List (String × Json)

/-- A property that is left out where it is `undefined`. -/
def optionalId (name : String) : Option Int → List (String × Json)
  | none => []
  | some n => [(name, .ofInt n)]

def Event.toJson (e : Event) : Json :=
  .obj [
    ("topic", .str e.topic),
    ("payload", .obj (optionalId "account_id" e.account_id ++
      (optionalId "app_id" e.app_id ++ e.body)))]

/-- `id || undefined`. -/
def orUndefined : Option Int → Option Int
  | some n => if n = 0 then none else some n
  | none => none

/-- An un-awaited call that runs at once: nobody sees it fail. -/
def detached (p : Task Unit) : Task Unit := p.tryCatch fun _ => done ()

/-- The messages `publishEvent` sends besides the event itself: to everyone who
follows the app or the account, where the event has its id. -/
def followers (kind : String) (id : Option Int) (topic : String) : List String :=
  match orUndefined id with
  | none => []
  | some n =>
      let key := kind ++ "." ++ toString n ++ ".events"
      [key, key ++ "." ++ topic]

/-- `publishEvent(routingKey, event)`. The log line is itself published, with
the event inside; then the event is checked and published. -/
def publishEvent (routingKey : String) (e : Event) : Task Unit := do
  publish routingKey (.obj [("topic", .str routingKey), ("payload", e.toJson)])
  match getSchema routingKey with
  | some schema =>
      match schema.parse e.toJson with
      | some _ => pure ()
      | none => throw .zod
  | none => pure ()
  publish routingKey e.toJson
  forEach (followers "apps" e.app_id e.topic) fun key => publish key e.toJson
  forEach (followers "accounts" e.account_id e.topic) fun key => publish key e.toJson

/-! ## Subscription webhooks -/

/-- A `where` field on a text column: `undefined` matches every row, a value
that is no string is refused. -/
def whereField (model : String) (x : Option Json) :
    Except Failure (String → Bool) :=
  match x with
  | none => .ok fun _ => true
  | some (.str s) => .ok fun column => column == s
  | some _ => .error (.invalidValue model)

/-- The subscriptions of an app, or of every app, to a topic. -/
def findAppWebhooks (app_id : Option Json) (topic : String) : Task (List AppWebhook) := do
  let isApp ← Proc.ofExcept (whereField "AppWebhooks" app_id)
  prisma.appWebhooks.findMany fun s => isApp s.app_id && s.topics.contains topic

/-- The subscriptions of an account, or of every account. -/
def findAccountWebhooks (account_id : Option Json) : Task (List AccountWebhook) := do
  let isAccount ← Proc.ofExcept (whereField "AccountWebhooks" account_id)
  prisma.accountWebhooks.findMany fun s => isAccount s.account_id

/-- `Number(id)` where an `Int` column is written: NaN is refused. -/
def columnId (id : String) : Except Failure Int :=
  match (number id).bind asInt with
  | some n => .ok n
  | none => .error (.invalidValue "Webhooks")

/-- `createAndSendWebhook(topic, payload)`. -/
def createAndSendWebhook (topic : String) (payload : Json) : Task Unit :=
  match webhookSchemas.lookup topic with
  | none => reject "invalid webhook type"
  | some schema =>
      match schema.parse payload with
      | none => throw .zod
      | some validated => do
          let appWebhooks ← findAppWebhooks (validated.get "app_id") topic
          let accountWebhooks ← findAccountWebhooks (validated.get "account_id")
          forEach appWebhooks fun appWebhook => do
            let app_id ← Proc.ofExcept (columnId appWebhook.app_id)
            let webhook ← prisma.webhooks.create fun now id =>
              { id, app_id := some app_id, url := some appWebhook.url, type := some topic,
                payload := validated, status := some "pending",
                createdAt := now, updatedAt := now }
            spawn (.sendWebhook webhook)
          forEach accountWebhooks fun accountWebhook => do
            let account_id ← Proc.ofExcept (columnId accountWebhook.account_id)
            let webhook ← prisma.webhooks.create fun now id =>
              { id, account_id := some account_id, url := some accountWebhook.url,
                type := some topic, payload := validated, status := some "pending",
                createdAt := now, updatedAt := now }
            spawn (.sendWebhook webhook)

/-- `axios.post(url, body)`: the body is sent whatever the answer is. -/
def post (url : String) (body : Json) : Task (Except String (Nat × String)) :=
  Proc.step fun c w => (.ok c.post, { w with posts := w.posts ++ [(url, body)] })

/-- `sendWebhook(webhook)`. -/
def sendWebhook (webhook : Webhook) : Task Unit :=
  match webhook.url with
  | none => pure ()
  | some url =>
      if url = "" then pure () else do
        match ← post url webhook.payload with
        | .ok (response_code, response_body) => do
            let _ ← prisma.webhooks.update webhook.id fun now r =>
              { r with response_code := some response_code,
                       response_body := some response_body,
                       status := some "success", ended_at := some now }
        | .error message => do
            let _ ← prisma.webhooks.update webhook.id fun now r =>
              { r with status := some "failed", error := some message,
                       ended_at := some now }

/-! ## The webhook of an invoice -/

/-- The payload was never filled in. -/
def emptyPayload : Json → Bool
  | .obj [] => true
  | _ => false

/-- A `where` field on a required text column, given as a string or
`undefined`. -/
def matchesField (x : Option String) (column : String) : Bool :=
  match x with
  | none => true
  | some s => column == s

/-- The webhook an invoice has, or a new one with this payload. -/
def storedWebhook (invoice : Invoice) (type : String) (payload : Json) : Task Webhook := do
  match ← prisma.webhooks.findFirst fun r => r.invoice_uid == some invoice.uid with
  | some webhook => pure webhook
  | none => prisma.webhooks.create fun now id =>
      { id, account_id := invoice.account_id, invoice_uid := some invoice.uid,
        url := invoice.webhook_url, type := some type, status := some "pending",
        payload, createdAt := now, updatedAt := now }

/-- A webhook whose payload was never filled in gets it. -/
def fillPayload (webhook : Webhook) (payload : Json) : Task Webhook :=
  if emptyPayload webhook.payload then
    prisma.webhooks.update webhook.id fun _ r => { r with payload }
  else pure webhook

/-- `sendWebhookForInvoice(invoiceUid, type)`. -/
def sendWebhookForInvoice (uid : Option String) (type : String) : Task Unit := do
  let invoice ← prisma.invoices.findFirstOrThrow fun r => matchesField uid r.uid
  let webhook ← storedWebhook invoice type invoice.toJson
  let webhook ← fillPayload webhook invoice.toJson
  sendWebhook webhook

/-- `createWebhookForInvoice(invoice)`. -/
def createWebhookForInvoice (env : Env) (invoice : Invoice) : Task Webhook := do
  match ← prisma.webhooks.findFirst fun r => r.invoice_uid == some invoice.uid with
  | some webhook => pure webhook
  | none => prisma.webhooks.create fun now id =>
      { id, invoice_uid := some invoice.uid,
        url := some (orElse invoice.webhook_url (env.apiBase ++ "/v1/api/test/webhooks")),
        account_id := invoice.account_id, status := some "pending",
        createdAt := now, updatedAt := now }

/-- `getPaidWebhookForInvoice(invoice)`. -/
def getPaidWebhookForInvoice (invoice : Invoice) : Task Webhook :=
  prisma.webhooks.findFirstOrThrow fun r =>
    r.invoice_uid == some invoice.uid && r.status == some "paid"

/-- `String(x)` of a nullable column. -/
def nullText (x : Option String) : String := x.getD "null"

/-- `attemptWebhook(webhook)`. The updates inside its `try` find their rows: neither
webhooks nor attempts are ever deleted. -/
def attemptWebhook (webhook : Webhook) : Task WebhookAttempt :=
  if webhook.status = some "success" then
    reject "webhook already sent for this invoice"
  else do
    let attempt ← prisma.webhookAttempts.create fun now id =>
      { id, webhook_id := some webhook.id, started_at := some now,
        createdAt := now, updatedAt := now }
    let invoice ← prisma.invoices.findFirstOrThrow fun r =>
      r.uid == nullText webhook.invoice_uid
    match ← post (nullText webhook.url) invoice.toJson with
    | .ok (response_code, response_body) => do
        let attempt ← prisma.webhookAttempts.update attempt.id fun now r =>
          { r with response_code := some response_code, response_body := some response_body,
                   ended_at := some now, updatedAt := now }
        let _ ← prisma.webhooks.update webhook.id fun now r =>
          { r with status := some "success", ended_at := some now }
        pure attempt
    | .error message => do
        let _ ← prisma.webhookAttempts.update attempt.id fun now r =>
          { r with error := some message, ended_at := some now, updatedAt := now }
        pure attempt

end Anypay
