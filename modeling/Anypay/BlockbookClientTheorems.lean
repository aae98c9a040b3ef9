/-
Anypay.BlockbookClientTheorems — how many connections a blockbook client has.

One socket that is not closed, or one timer, and never both: `Inv` counts them
together. An event of the socket keeps the sum, since 'close' trades the socket
for a timer and the timer for a socket. Three things raise it: `connect` where
there is one already, a `disconnect`, whose 'close' starts a timer again, and a
connection attempt of a TIMER that fails, whose 'error' and 'close' start one
timer each. `safe_of_careful` is every run without them; `two_timers` is the
third.
-/
import Anypay.BlockbookClient

namespace Anypay.BlockbookClient

open Async

/-! ## What is promised -/

/-- Connecting or open. -/
def Socket.live (socket : Socket) : Bool :=
  socket.readyState == .connecting || socket.readyState == .open_

def Socket.unclosed (socket : Socket) : Bool := socket.readyState != .closed

/-- Live sockets and pending timers. -/
def Client.pending (client : Client) : Nat := client.sockets.countP Socket.live + client.timers

structure Safe (client : Client) : Prop where
  one : client.pending ≤ 1
  stays : client.reopened = false

/-- There is no socket that is not closed, and no timer. -/
def Idle (client : Client) : Prop :=
  client.sockets.countP Socket.unclosed = 0 ∧ client.timers = 0

/-- `connect` and `disconnect` are called where there is nothing yet, and no
attempt of a timer fails. -/
def Careful (client : Client) : Event → Prop
  | .connect => Idle client
  | .disconnect => Idle client
  | .error i => ∀ socket, client.sockets[i]? = some socket → socket.retry = true →
      socket.settled = true
  | _ => True

/-! ## The invariant -/

structure Inv (client : Client) : Prop where
  one : client.sockets.countP Socket.unclosed + client.timers ≤ 1
  /-- The socket that is not closed is the client's. -/
  ws : ∀ (i : Nat) (socket : Socket), client.sockets[i]? = some socket →
    socket.unclosed = true → client.ws = some i
  disconnected : client.disconnected = true → Idle client
  stays : client.reopened = false

theorem inv_start : Inv {} where
  one := by simp
  ws := by simp
  disconnected := by simp
  stays := rfl

theorem live_unclosed (socket : Socket) (h : socket.live = true) : socket.unclosed = true := by
  unfold Socket.live at h
  unfold Socket.unclosed
  cases hstate : socket.readyState with
  | connecting => rfl
  | open_ => rfl
  | closing => rw [hstate] at h; cases h
  | closed => rw [hstate] at h; cases h

theorem Inv.safe {client : Client} (h : Inv client) : Safe client where
  one := by
    have hlive : client.sockets.countP Socket.live ≤ client.sockets.countP Socket.unclosed :=
      List.countP_mono_left fun socket _ => live_unclosed socket
    have hone := h.one
    unfold Client.pending
    omega
  stays := h.stays

/-! ## Changing one socket -/

section Set

variable {client : Client} {i : Nat} {socket : Socket}

/-- The sockets not closed, once one was replaced. -/
theorem countP_set (socket' : Socket) (hi : client.sockets[i]? = some socket)
    (hopen : socket.unclosed = true) :
    (client.sockets.set i socket').countP Socket.unclosed + 1 =
      client.sockets.countP Socket.unclosed + if socket'.unclosed = true then 1 else 0 := by
  obtain ⟨hlt, hget⟩ := List.getElem?_eq_some_iff.mp hi
  have hpos : 0 < client.sockets.countP Socket.unclosed :=
    List.countP_pos_iff.mpr ⟨socket, List.mem_of_getElem? hi, hopen⟩
  rw [List.countP_set hlt, hget, if_pos hopen]
  omega

/-- Replacing the socket that is not closed by another such. -/
theorem Inv.setSocket {socket' : Socket} (h : Inv client) (hi : client.sockets[i]? = some socket)
    (hopen : socket.unclosed = true) (hopen' : socket'.unclosed = true) :
    Inv (client.setSocket i socket') := by
  have hcount : (client.sockets.set i socket').countP Socket.unclosed =
      client.sockets.countP Socket.unclosed := by
    have hset := countP_set socket' hi hopen
    rw [if_pos hopen'] at hset
    omega
  constructor
  · change (client.sockets.set i socket').countP Socket.unclosed + client.timers ≤ 1
    rw [hcount]
    exact h.one
  · intro j other hj hother
    change (client.sockets.set i socket')[j]? = some other at hj
    by_cases hij : i = j
    · subst hij
      exact h.ws i socket hi hopen
    · rw [List.getElem?_set_ne hij] at hj
      exact h.ws j other hj hother
  · intro hdis
    change (client.sockets.set i socket').countP Socket.unclosed = 0 ∧ client.timers = 0
    rw [hcount]
    exact h.disconnected hdis
  · exact h.stays

/-- A socket that is not closed is the only one, and there is no timer. -/
theorem Inv.only (h : Inv client) (hi : client.sockets[i]? = some socket)
    (hopen : socket.unclosed = true) :
    client.sockets.countP Socket.unclosed = 1 ∧ client.timers = 0 := by
  have hpos : 0 < client.sockets.countP Socket.unclosed :=
    List.countP_pos_iff.mpr ⟨socket, List.mem_of_getElem? hi, hopen⟩
  have hone := h.one
  omega

theorem Inv.not_disconnected (h : Inv client) (hi : client.sockets[i]? = some socket)
    (hopen : socket.unclosed = true) : client.disconnected = false := by
  cases hdis : client.disconnected with
  | false => rfl
  | true =>
      have honly := h.only hi hopen
      have hidle := h.disconnected hdis
      unfold Idle at hidle
      omega

end Set

/-! ## One event -/

section Events

variable {client : Client} {i : Nat} {socket : Socket}

/-- A connection that is opened where there is nothing. -/
theorem inv_opened {retry : Bool} (hsockets : client.sockets.countP Socket.unclosed = 0)
    (htimers : client.timers = 0) (hdis : client.disconnected = false)
    (hstays : client.reopened = false) : Inv (client.connect retry) := by
  have hclosed : ∀ other ∈ client.sockets, ¬ other.unclosed = true :=
    List.countP_eq_zero.mp hsockets
  constructor
  · change (client.sockets ++ [({ retry := retry } : Socket)]).countP Socket.unclosed + client.timers ≤ 1
    rw [List.countP_append, hsockets, htimers]
    exact Nat.le_refl 1
  · intro j other hj hother
    change (client.sockets ++ [({ retry := retry } : Socket)])[j]? = some other at hj
    by_cases hlt : j < client.sockets.length
    · rw [List.getElem?_append_left hlt] at hj
      exact absurd hother (hclosed other (List.mem_of_getElem? hj))
    · have hjlt := (List.getElem?_eq_some_iff.mp hj).1
      rw [List.length_append, List.length_singleton] at hjlt
      have hlast : j = client.sockets.length := by omega
      rw [hlast]
      rfl
  · intro h
    change client.disconnected = true at h
    rw [hdis] at h
    cases h
  · exact hstays

theorem inv_timer (h : Inv client) (htimers : client.timers ≠ 0) :
    Inv { { client with timers := client.timers - 1 }.connect true with
      reopened := client.reopened || client.disconnected } := by
  have hone := h.one
  have hdis : client.disconnected = false := by
    cases hdis : client.disconnected with
    | false => rfl
    | true => exact absurd (h.disconnected hdis).2 htimers
  have hopened : Inv ({ client with timers := client.timers - 1 }.connect true) := by
    apply inv_opened
    · change client.sockets.countP Socket.unclosed = 0
      omega
    · change client.timers - 1 = 0
      omega
    · exact hdis
    · exact h.stays
  refine ⟨hopened.one, hopened.ws, hopened.disconnected, ?_⟩
  change (client.reopened || client.disconnected) = false
  rw [h.stays, hdis]
  rfl

theorem inv_onOpen (h : Inv client) (hi : client.sockets[i]? = some socket)
    (hconnecting : socket.readyState = .connecting) : Inv (client.onOpen i socket) := by
  have hopen : socket.unclosed = true := by
    unfold Socket.unclosed
    rw [hconnecting]
    rfl
  have hlt := (List.getElem?_eq_some_iff.mp hi).1
  -- the socket the client sends on is the one that opened
  have hsend : (client.setSocket i { socket with readyState := .open_ }).canSend = true := by
    unfold Client.canSend Client.setSocket
    rw [h.ws i socket hi hopen]
    simp only [Option.bind_some, List.getElem?_set_self hlt]
    rfl
  unfold Client.onOpen
  simp only [hsend, if_true]
  have hset : Inv (client.setSocket i { socket with readyState := .open_ }) :=
    h.setSocket hi hopen rfl
  exact hset.setSocket (List.getElem?_set_self hlt) rfl rfl

theorem inv_onError (h : Inv client) (hi : client.sockets[i]? = some socket)
    (hopen : socket.unclosed = true) (hcareful : socket.retry = true → socket.settled = true) :
    Inv (client.onError i socket) := by
  unfold Client.onError Client.reject
  by_cases hsettled : socket.settled = true
  · simp only [hsettled, if_true]
    exact h.setSocket hi hopen rfl
  · have hretry : ¬ socket.retry = true := fun hretry => hsettled (hcareful hretry)
    rw [if_neg hsettled]
    simp only
    rw [if_neg hretry]
    exact h.setSocket hi hopen rfl

theorem inv_onClose (h : Inv client) (hi : client.sockets[i]? = some socket)
    (hopen : socket.unclosed = true) : Inv (client.onClose i socket) := by
  have honly := h.only hi hopen
  have hcount : (client.sockets.set i { socket with readyState := .closed }).countP
      Socket.unclosed = 0 := by
    have hset := countP_set { socket with readyState := .closed } hi hopen
    have hshut : ¬ Socket.unclosed { socket with readyState := .closed } = true := by
      simp [Socket.unclosed]
    rw [if_neg hshut] at hset
    have hone := honly.1
    omega
  have hclosed : ∀ other ∈ client.sockets.set i { socket with readyState := .closed },
      ¬ other.unclosed = true := List.countP_eq_zero.mp hcount
  constructor
  · have hidle : client.timers = 0 := honly.2
    show (client.sockets.set i _).countP Socket.unclosed + (client.timers + 1) ≤ 1
    omega
  · intro j other hj hother
    exact absurd hother (hclosed other (List.mem_of_getElem? hj))
  · intro hdis
    change client.disconnected = true at hdis
    rw [h.not_disconnected hi hopen] at hdis
    cases hdis
  · exact h.stays

/-- Where there is nothing, `disconnect` does nothing but forget the socket. -/
theorem inv_disconnect (h : Inv client) (hidle : Idle client) :
    Inv { client.disconnect with disconnected := true } := by
  have hclosed : ∀ other ∈ client.sockets, ¬ other.unclosed = true :=
    List.countP_eq_zero.mp hidle.1
  have hsame : client.disconnect.sockets = client.sockets ∧
      client.disconnect.timers = client.timers ∧ client.disconnect.reopened = client.reopened := by
    unfold Client.disconnect
    cases client.ws with
    | none => exact ⟨rfl, rfl, rfl⟩
    | some i =>
        simp only
        cases hi : client.sockets[i]? with
        | none => exact ⟨rfl, rfl, rfl⟩
        | some socket =>
            have hstate : socket.readyState = .closed := by
              have hnot := hclosed socket (List.mem_of_getElem? hi)
              simpa [Socket.unclosed] using hnot
            simp only [hstate, if_true]
            exact ⟨trivial, trivial, trivial⟩
  obtain ⟨hsockets, htimers, hreopened⟩ := hsame
  constructor
  · change client.disconnect.sockets.countP Socket.unclosed + client.disconnect.timers ≤ 1
    rw [hsockets, htimers]
    exact h.one
  · intro j other hj hother
    change client.disconnect.sockets[j]? = some other at hj
    rw [hsockets] at hj
    exact absurd hother (hclosed other (List.mem_of_getElem? hj))
  · intro _
    change client.disconnect.sockets.countP Socket.unclosed = 0 ∧ client.disconnect.timers = 0
    rw [hsockets, htimers]
    exact hidle
  · change client.disconnect.reopened = false
    rw [hreopened]
    exact h.stays

/-- An event of a socket finds the socket, in a state that has such events. -/
theorem onSocket_some {e : Event} {f : Socket → Client} {client' : Client}
    (h : onSocket client i e f = some client') :
    ∃ socket, client.sockets[i]? = some socket ∧ socket.emits e = true ∧ client' = f socket := by
  obtain ⟨socket, hi, h⟩ := Option.bind_eq_some_iff.mp h
  split at h
  · rename_i hemits
    exact ⟨socket, hi, hemits, (Option.some.inj h).symm⟩
  · cases h

theorem inv_step {e : Event} {client' : Client} (h : Inv client) (hcareful : Careful client e)
    (hstep : step client e = some client') : Inv client' := by
  cases e with
  | connect =>
      obtain rfl := Option.some.inj hstep
      have hopened : Inv ({ client with disconnected := false }.connect false) :=
        inv_opened hcareful.1 hcareful.2 rfl h.stays
      exact hopened
  | disconnect =>
      obtain rfl := Option.some.inj hstep
      exact inv_disconnect h hcareful
  | timer =>
      unfold step at hstep
      simp only at hstep
      split at hstep
      · cases hstep
      · rename_i htimers
        obtain rfl := Option.some.inj hstep
        exact inv_timer h htimers
  | open_ i =>
      obtain ⟨socket, hi, hemits, rfl⟩ := onSocket_some hstep
      exact inv_onOpen h hi (beq_iff_eq.mp hemits)
  | message i =>
      obtain ⟨socket, hi, hemits, rfl⟩ := onSocket_some hstep
      exact h
  | error i =>
      obtain ⟨socket, hi, hemits, rfl⟩ := onSocket_some hstep
      exact inv_onError h hi hemits (hcareful socket hi)
  | close i =>
      obtain ⟨socket, hi, hemits, rfl⟩ := onSocket_some hstep
      apply inv_onClose h hi
      unfold Socket.emits at hemits
      unfold Socket.unclosed
      cases hstate : socket.readyState with
      | connecting => rw [hstate] at hemits; cases hemits
      | open_ => rfl
      | closing => rfl
      | closed => rw [hstate] at hemits; cases hemits

end Events

/-! ## Every run -/

/-- **At most one connection, and none after `disconnect`**, in every state of
every run that calls `connect` and `disconnect` where there is nothing and in
which no connection attempt of a timer fails. -/
theorem safe_of_careful {client : Client} (h : Machine.Reach step Careful {} client) :
    Safe client :=
  (h.inv inv_start fun _ _ _ hinv hcareful hstep => inv_step hinv hcareful hstep).safe

/-- A connection that is lost and found again. -/
def dropped : List Event := [.connect, .open_ 0, .message 0, .close 0, .timer, .open_ 1]

/-- There is one connection then. -/
theorem safe_dropped : ∃ client, Machine.run step dropped {} = some client ∧
    client.pending = 1 ∧ Safe client := by
  obtain ⟨client, hrun, hpending⟩ : ∃ client, Machine.run step dropped {} = some client ∧
      client.pending = 1 := ⟨_, rfl, by decide⟩
  have hguarded : Machine.Guarded step Careful dropped {} := by
    constructor
    · exact ⟨rfl, rfl⟩
    · intro t _
      apply Machine.guarded_of_forall
      intro e he s
      simp only [List.mem_cons, List.not_mem_nil, or_false] at he
      rcases he with rfl | rfl | rfl | rfl | rfl <;> trivial
  exact ⟨client, hrun, hpending, safe_of_careful (Machine.reach_of_run hguarded hrun)⟩

/-- A timer's connection attempt fails: 'error' starts a timer, 'close' another. -/
theorem two_timers : ¬ ∀ client, Machine.Reach step Machine.Unguarded {} client →
    Safe client := by
  intro h
  have hguarded : Machine.Guarded step Machine.Unguarded
      [.connect, .error 0, .close 0, .timer, .error 1, .close 1] {} :=
    Machine.guarded_unguarded _ _
  have hreach := Machine.reach_of_run hguarded rfl
  have hone := (h _ hreach).one
  exact absurd hone (by decide)

end Anypay.BlockbookClient
