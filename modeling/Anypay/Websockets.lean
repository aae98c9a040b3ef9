/-
Anypay.Websockets — the sessions of `websockets/session.ts`.

A session has a queue. `authenticate` looks the token up, and binds the queue to
the key of the token's app, where it has one, and to the key of its account. A
copy of every message published under a bound key comes to the queue; what is no
valid event is dropped there (`validate` of `lib/webhooks.ts`), the rest is sent
to the client.
-/
import Anypay.Webhooks

namespace Anypay

open Async Proc

/-- `new URL(request.url).searchParams.get('token')` is `token`. -/
structure WebsocketRequest where
  authorization : Option String := none
  token : Option String := none

/-- `WebsocketClientSession`, the fields that decide what it is sent. -/
structure Session where
  account_id : Option Int := none
  app_id : Option Int := none
  /-- What the queue is bound to. -/
  keys : List String := []
  deriving DecidableEq

namespace Session

/-- `subscribeToAppEvents()`. -/
def subscribeToAppEvents (session : Session) : Session :=
  match orUndefined session.app_id with
  | none => session
  | some n => { session with keys := session.keys ++ ["apps." ++ toString n ++ ".events"] }

/-- `subscribeToAccountEvents()`. -/
def subscribeToAccountEvents (session : Session) : Session :=
  match orUndefined session.account_id with
  | none => session
  | some n => { session with keys := session.keys ++ ["accounts." ++ toString n ++ ".events"] }

end Session

/-- The token of the header, or else of the query; the empty text counts as none. -/
def WebsocketRequest.bearer (request : WebsocketRequest) : Option String :=
  let header := match (request.authorization.getD "").toList.splitOn ' ' with
    | ['B', 'e', 'a', 'r', 'e', 'r'] :: token :: _ => nonEmpty (some (.ofList token))
    | _ => none
  match header with
  | some token => some token
  | none => nonEmpty request.token

/-- `authenticate({ request })`: `none` closes the session. -/
def authenticate (request : WebsocketRequest) : Task (Option Session) :=
  match request.bearer with
  | none => pure none
  | some token => do
      let accessToken ← prisma.access_tokens.findFirstOrThrow fun r => r.uid == some token
      let account ← prisma.accounts.findFirstOrThrow fun r => r.id == accessToken.account_id
      let session ← match orUndefined accessToken.app_id with
        | none => pure {}
        | some app_id => do
            let app ← prisma.apps.findFirstOrThrow fun r => r.id == app_id
            pure ({ app_id := some app.id : Session }).subscribeToAppEvents
      pure (some { session with account_id := some account.id }.subscribeToAccountEvents)

/-- `validate({ topic, payload })`. -/
def validate (topic payload : Option Json) : Bool :=
  match topic with
  | some (.str t) =>
      match webhookSchemas.lookup t with
      | none => false
      | some schema =>
          (schema.parse (.obj (("topic", .str t) ::
            (payload.map fun x => ("payload", x)).toList))).isSome
  | _ => false

/-- The consumer of the queue: what the client is sent for one message. -/
def onQueueMessage (json : Json) : Option (Option Json × Option Json) :=
  if validate (json.get "topic") (json.get "payload") then
    some (json.get "topic", json.get "payload")
  else none

/-- What a session is sent out of the messages published. -/
def Session.receives (session : Session) (published : List (String × Json)) :
    List (Option Json × Option Json) :=
  (published.filter fun message => session.keys.contains message.1).filterMap
    fun message => onQueueMessage message.2

/-- Calls of `publishEvent`, one after another; nobody waits for them. -/
def publishEvents (calls : List (String × Event)) : Task Unit :=
  forEach calls fun call => detached (publishEvent call.1 call.2)

end Anypay
