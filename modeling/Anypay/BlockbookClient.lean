/-
Anypay.BlockbookClient — the websocket of `packages/blockbook/src/client.ts`.

One client, its sockets and its reconnect timers. An event is something the `ws`
library emits on a socket, a timer that fires, or a call of `connect` or
`disconnect`. The library emits 'error' before the 'close' of a connection that
failed, and nothing on a socket that is closed.

`connect` opens a socket and returns a promise, which 'open' resolves and 'error'
rejects; only the timer's own `connect` has somebody who reacts to the rejection,
by another timer. Every 'close' starts a timer too.

Listeners, messages to them and `processBlock` change no socket. What a socket is
sent is left out.
-/
import Anypay.Async.Machine

namespace Anypay.BlockbookClient

/-- `readyState`. -/
inductive ReadyState where
  | connecting
  | open_
  | closing
  | closed
  deriving DecidableEq

/-- A socket and the promise of the `connect` that opened it. -/
structure Socket where
  readyState : ReadyState := .connecting
  /-- Opened by a timer of `reconnect`, which catches a rejection. -/
  retry : Bool
  /-- The promise was resolved or rejected. -/
  settled : Bool := false
  deriving DecidableEq

structure Client where
  /-- Every socket there ever was. -/
  sockets : List Socket := []
  /-- `this.ws`, as a place in the list. -/
  ws : Option Nat := none
  /-- Timers of `reconnect` that have not fired. -/
  timers : Nat := 0
  /-- History: `disconnect` was called, and `connect` not since. -/
  disconnected : Bool := false
  /-- History: a timer opened a connection all the same. -/
  reopened : Bool := false
  deriving DecidableEq

inductive Event where
  | connect
  | disconnect
  | timer
  | open_ (i : Nat)
  | message (i : Nat)
  | error (i : Nat)
  | close (i : Nat)

/-- `connect()`, up to its promise. -/
def Client.connect (client : Client) (retry : Bool) : Client :=
  { client with sockets := client.sockets ++ [{ retry }], ws := some client.sockets.length }

/-- `reconnect()`. -/
def Client.reconnect (client : Client) : Client := { client with timers := client.timers + 1 }

def Client.setSocket (client : Client) (i : Nat) (socket : Socket) : Client :=
  { client with sockets := client.sockets.set i socket }

/-- `resolve()` of the promise of socket `i`. -/
def Client.resolve (client : Client) (i : Nat) (socket : Socket) : Client :=
  client.setSocket i { socket with settled := true }

/-- `reject(error)`: a promise that is settled stays as it is. -/
def Client.reject (client : Client) (i : Nat) (socket : Socket) : Client :=
  if socket.settled then client.setSocket i socket
  else
    let client := client.setSocket i { socket with settled := true }
    if socket.retry then client.reconnect else client

/-- `this.ws.send` throws where there is no socket, or one that is connecting. -/
def Client.canSend (client : Client) : Bool :=
  match client.ws.bind fun i => client.sockets[i]? with
  | none => false
  | some socket => socket.readyState != .connecting

/-- The handler of 'open': `subscribe` sends on the client's socket, whichever
that is by now. -/
def Client.onOpen (client : Client) (i : Nat) (socket : Socket) : Client :=
  let socket := { socket with readyState := .open_ }
  let client := client.setSocket i socket
  if client.canSend then client.resolve i socket else client.reject i socket

/-- The handler of 'error'. -/
def Client.onError (client : Client) (i : Nat) (socket : Socket) : Client :=
  client.reject i { socket with readyState := .closing }

/-- The handler of 'close'. -/
def Client.onClose (client : Client) (i : Nat) (socket : Socket) : Client :=
  (client.setSocket i { socket with readyState := .closed }).reconnect

/-- `disconnect()`: the socket is told to close, and forgotten. -/
def Client.disconnect (client : Client) : Client :=
  match client.ws with
  | none => client
  | some i =>
      let client := { client with ws := none }
      match client.sockets[i]? with
      | none => client
      | some socket =>
          if socket.readyState = .closed then client
          else client.setSocket i { socket with readyState := .closing }

/-- What the library can emit on a socket. -/
def Socket.emits (socket : Socket) : Event → Bool
  | .open_ _ => socket.readyState == .connecting
  | .message _ => socket.readyState == .open_ || socket.readyState == .closing
  | .error _ => socket.readyState != .closed
  | .close _ => socket.readyState == .open_ || socket.readyState == .closing
  | _ => false

/-- An event of socket `i`, where it can have one. -/
def onSocket (client : Client) (i : Nat) (e : Event) (f : Socket → Client) : Option Client :=
  (client.sockets[i]?).bind fun socket => if socket.emits e then some (f socket) else none

/-- One event. -/
def step (client : Client) : Event → Option Client
  | .connect => some { client.connect false with disconnected := false }
  | .disconnect => some { client.disconnect with disconnected := true }
  | .timer =>
      if client.timers = 0 then none
      else
        let fired := { client with timers := client.timers - 1 }
        some { fired.connect true with reopened := client.reopened || client.disconnected }
  | .open_ i => onSocket client i (.open_ i) (client.onOpen i)
  | .message i => onSocket client i (.message i) fun _ => client
  | .error i => onSocket client i (.error i) (client.onError i)
  | .close i => onSocket client i (.close i) (client.onClose i)

end Anypay.BlockbookClient
