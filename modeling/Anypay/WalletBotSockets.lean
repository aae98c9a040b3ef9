/-
Anypay.WalletBotSockets — the websocket connections of wallet bots
(`wss.on('connection')` of `apps/wallet-bot/plugin.ts`, `apps/wallet-bot/auth.ts`,
`apps/wallet-bot/sockets.ts`, `socket.io/amqp_queue_socket_binding.ts`).

The server keeps one live socket for each bot in memory. A connection's handler
authenticates, puts the socket in the registry, binds a queue of the broker to
it and then attaches the listener that takes it out again when it closes. A
socket may close at any of the handler's awaits; its listeners run if they are
attached by then.

Sockets are numbered; the messages of a socket are not modelled.
-/
import Anypay.WalletBots

namespace Anypay

open Async Proc

namespace WalletBotSockets

/-- `Context`: what `bind` hands over to `unbind`. -/
structure Context where
  socket : Nat
  walletBot : WalletBot
  consumerTag : String

/-- The database, and what the process has in memory. -/
structure LiveSockets where
  db : World := {}
  /-- `sockets`: the bot's id and its socket. -/
  sockets : List (Nat × Nat) := []
  /-- The close listeners attached. -/
  listeners : List Context := []
  /-- The sockets that have closed. -/
  closed : List Nat := []
  /-- The consumers of the broker's queues: bot's id and tag. -/
  consumers : List (Nat × String) := []

/-- An async function of the process. -/
abbrev SocketTask (α : Type) := Proc LiveSockets Answer Failure α

/-- A call of a function that only works on the database. -/
def query {α : Type} (p : Task α) : SocketTask α :=
  p.within LiveSockets.db fun w s => { s with db := w }

/-- `getSocket(walletBot)`. -/
def LiveSockets.getSocket (s : LiveSockets) (walletBot : WalletBot) : Option Nat :=
  s.sockets.lookup walletBot.id

/-- `authenticate(socket, request)`: the bot of the header's token, none where
anything fails. A header without a blank has no token. -/
def authenticate (authorization : Option String) : SocketTask (Option WalletBot) :=
  match nonEmpty authorization with
  | none => pure none
  | some header => Proc.tryCatch (do
      let walletBot ← query (WalletBot.getWalletBot
        ((header.toList.splitOn ' ')[1]?.map String.ofList))
      pure (some walletBot)) fun _ => pure none

/-- `setSocket(walletBot, socket)`. -/
def setSocket (walletBot : WalletBot) (socket : Nat) : SocketTask Unit :=
  Proc.step fun _ s =>
    match s.getSocket walletBot with
    | some _ => (.error (.error "Socket Already Connected For Wallet Bot"), s)
    | none => (.ok (), { s with sockets := (walletBot.id, socket) :: s.sockets })

/-- `removeSocket({ socket, walletBot })`: whatever socket the bot has. -/
def LiveSockets.removeSocket (s : LiveSockets) (walletBot : WalletBot) : LiveSockets :=
  { s with sockets := s.sockets.filter fun entry => entry.1 != walletBot.id }

/-- `unbind(context)`. -/
def LiveSockets.unbind (s : LiveSockets) (context : Context) : LiveSockets :=
  { s with consumers := s.consumers.filter fun consumer => consumer.2 != context.consumerTag }

/-- `bind({ socket, walletBot })`. -/
def bind (socket : Nat) (walletBot : WalletBot) : SocketTask Context := do
  let consumerTag ← Proc.query fun c _ => .ok c.uuid
  Proc.query fun c _ => c.assertQueue
  Proc.step fun _ s =>
    (.ok { socket, walletBot, consumerTag },
      { s with consumers := s.consumers ++ [(walletBot.id, consumerTag)] })

/-- `ws.on('close', …)`. -/
def onClose (binding : Context) : SocketTask Unit :=
  Proc.step fun _ s => (.ok (), { s with listeners := s.listeners ++ [binding] })

/-- `wss.on('connection')`. -/
def connection (ws : Nat) (authorization : Option String) : SocketTask Unit :=
  Proc.tryCatch (do
    match ← authenticate authorization with
    | none => throw (.error "unauthorized")
    | some walletBot => do
        setSocket walletBot ws
        let binding ← bind ws walletBot
        onClose binding) fun _ => pure ()

/-- A socket closes: its listeners run, each once. -/
def LiveSockets.close (s : LiveSockets) (ws : Nat) : LiveSockets :=
  if ws ∈ s.closed then s
  else (s.listeners.filter fun binding => binding.socket == ws).foldl
    (fun s binding => (s.unbind binding).removeSocket binding.walletBot)
    { s with closed := ws :: s.closed }

/-- What happens to the server: a socket connects, a socket closes. -/
inductive SocketEvent where
  | connection (ws : Nat) (authorization : Option String)
  | close (ws : Nat)

/-- What an event runs. -/
def handle : SocketEvent → SocketTask Unit
  | .connection ws authorization => connection ws authorization
  | .close ws => Proc.step fun _ s => (.ok (), s.close ws)

/-- The event is a connection. -/
def SocketEvent.isConnection : SocketEvent → Prop
  | .connection _ _ => True
  | .close _ => False

end WalletBotSockets

end Anypay
