/-
Anypay.WalletBotSocketTheorems — the registry of live sockets.

The registry is CLEAN where no socket in it has closed. Two kinds of step can
spoil that: a handler puts a socket in that has closed already, and a socket
that is in closes before its listener is attached. `clean_iff` says that these
are all: a step keeps the registry clean exactly where it is TIMELY. From this,
by induction over a run in which every step is, `live_sockets_open`.
-/
import Anypay.WalletBotSockets
import Anypay.Db.Rules

namespace Anypay.WalletBotSockets

open Async Proc Pool

variable {s t : LiveSockets}

/-- No socket in the registry has closed. -/
def Clean (s : LiveSockets) : Prop := ∀ entry ∈ s.sockets, entry.2 ∉ s.closed

/-- A step puts no closed socket in the registry, and a socket in the registry that
closes by it has a listener that takes it out. -/
structure Timely (s t : LiveSockets) : Prop where
  registers : ∀ entry ∈ t.sockets, entry ∉ s.sockets → entry.2 ∉ s.closed
  closes : ∀ entry ∈ s.sockets, entry.2 ∈ t.closed → entry.2 ∉ s.closed →
    ∃ binding ∈ s.listeners, binding.socket = entry.2 ∧ binding.walletBot.id = entry.1

/-! ## What a step can do -/

/-- The part of the state the registry is about. -/
def LiveSockets.registry (s : LiveSockets) :
    List (Nat × Nat) × List Context × List Nat := (s.sockets, s.listeners, s.closed)

/-- What a step of the server may do to the registry. -/
inductive Effect (s t : LiveSockets) : Prop where
  | quiet (h : t.registry = s.registry)
  | register (walletBot : WalletBot) (ws : Nat) (hfree : s.getSocket walletBot = none)
      (h : t = { s with sockets := (walletBot.id, ws) :: s.sockets })
  | attach (binding : Context) (h : t = { s with listeners := s.listeners ++ [binding] })
  | close (ws : Nat) (h : t = s.close ws)

theorem always_of_keeps {α : Type} {p : SocketTask α} (h : p.Keeps LiveSockets.registry) :
    p.Always Effect fun _ => True :=
  always_mono h (fun _ _ => .quiet) fun _ _ => trivial

theorem keeps_query {α : Type} (p : Task α) : (query p).Keeps LiveSockets.registry := by
  have hrest : ∀ (w : World) (s : LiveSockets),
      LiveSockets.registry { s with db := w } = s.registry := fun _ _ => rfl
  exact keeps_within hrest p

theorem keeps_authenticate (authorization : Option String) :
    (authenticate authorization).Keeps LiveSockets.registry := by
  unfold authenticate
  split
  · exact trivial
  · exact keeps_tryCatch (keeps_bind (keeps_query _) fun _ => trivial) fun _ => trivial

theorem keeps_bindQueue (ws : Nat) (walletBot : WalletBot) :
    (bind ws walletBot).Keeps LiveSockets.registry :=
  keeps_bind Proc.keeps_query fun _ => keeps_bind Proc.keeps_query fun _ =>
    keeps_step fun _ _ => rfl

theorem always_setSocket (walletBot : WalletBot) (ws : Nat) :
    (setSocket walletBot ws).Always Effect fun _ => True := by
  refine always_step (fun _ s => ?_) fun _ _ _ _ => trivial
  cases hfree : s.getSocket walletBot with
  | some _ => exact .quiet rfl
  | none => exact .register walletBot ws hfree rfl

theorem always_handle (e : SocketEvent) : (handle e).Always Effect fun _ => True := by
  cases e with
  | close ws => exact always_step (fun _ s => .close ws rfl) fun _ _ _ _ => trivial
  | connection ws authorization =>
      refine always_tryCatch ?_ fun _ => trivial
      refine always_bind (always_of_keeps (keeps_authenticate authorization)) fun bot _ => ?_
      cases bot with
      | none => exact trivial
      | some walletBot =>
          refine always_bind (always_setSocket walletBot ws) fun _ _ => ?_
          refine always_bind (always_of_keeps (keeps_bindQueue ws walletBot)) fun binding _ => ?_
          exact always_step (fun _ s => .attach binding rfl) fun _ _ _ _ => trivial

/-! ## A step and the registry -/

theorem mem_foldl_remove (bindings : List Context) (s : LiveSockets) (entry : Nat × Nat) :
    entry ∈ (bindings.foldl (fun s binding =>
        (s.unbind binding).removeSocket binding.walletBot) s).sockets ↔
      entry ∈ s.sockets ∧ ∀ binding ∈ bindings, binding.walletBot.id ≠ entry.1 := by
  induction bindings generalizing s with
  | nil => simp
  | cons binding bindings ih =>
      rw [List.foldl_cons, ih]
      simp only [LiveSockets.removeSocket, LiveSockets.unbind, List.mem_filter, bne_iff_ne,
        List.forall_mem_cons, and_assoc]
      exact and_congr_right fun _ => and_congr_left fun _ => ne_comm

theorem closed_foldl_remove (bindings : List Context) (s : LiveSockets) :
    (bindings.foldl (fun s binding =>
      (s.unbind binding).removeSocket binding.walletBot) s).closed = s.closed := by
  induction bindings generalizing s with
  | nil => rfl
  | cons binding bindings ih => exact ih _

/-- A close takes out the sockets of the bots whose listener is attached. -/
theorem mem_close {ws : Nat} (hopen : ws ∉ s.closed) {entry : Nat × Nat} :
    entry ∈ (s.close ws).sockets ↔ entry ∈ s.sockets ∧
      ∀ binding ∈ s.listeners, binding.socket = ws → binding.walletBot.id ≠ entry.1 := by
  rw [LiveSockets.close, if_neg hopen, mem_foldl_remove]
  simp

theorem closed_close {ws : Nat} (hopen : ws ∉ s.closed) :
    (s.close ws).closed = ws :: s.closed := by
  rw [LiveSockets.close, if_neg hopen, closed_foldl_remove]

theorem not_mem_of_getSocket {walletBot : WalletBot} (h : s.getSocket walletBot = none)
    (ws : Nat) : (walletBot.id, ws) ∉ s.sockets := by
  intro hmem
  have hne := List.lookup_eq_none_iff.mp h _ hmem
  simp at hne

/-- From a clean registry a step leads to a clean one exactly where it is timely. -/
theorem clean_iff (h : Effect s t) (hs : Clean s) : Clean t ↔ Timely s t := by
  cases h with
  | quiet h =>
      obtain ⟨hsockets, hrest⟩ := Prod.mk.inj h
      obtain ⟨-, hclosed⟩ := Prod.mk.inj hrest
      refine iff_of_true ?_ ⟨?_, ?_⟩
      · intro entry
        rw [hsockets, hclosed]
        exact hs entry
      · intro entry hmem hnew
        exact absurd (hsockets ▸ hmem) hnew
      · intro entry _ hmem hnew
        exact absurd (hclosed ▸ hmem) hnew
  | register walletBot ws hfree h =>
      subst h
      constructor
      · intro ht
        exact ⟨fun entry hmem _ => ht entry hmem, fun _ _ hmem hnew => absurd hmem hnew⟩
      · intro htimely entry hmem
        rcases List.mem_cons.mp hmem with rfl | hmem
        · exact htimely.registers _ List.mem_cons_self (not_mem_of_getSocket hfree ws)
        · exact hs entry hmem
  | attach binding h =>
      subst h
      exact iff_of_true hs ⟨fun _ hmem hnew => absurd hmem hnew,
        fun _ _ hmem hnew => absurd hmem hnew⟩
  | close ws h =>
      subst h
      by_cases hopen : ws ∈ s.closed
      · rw [LiveSockets.close, if_pos hopen]
        exact iff_of_true hs ⟨fun _ hmem hnew => absurd hmem hnew,
          fun _ _ hmem hnew => absurd hmem hnew⟩
      constructor
      · intro ht
        refine ⟨fun entry hmem hnew => absurd ((mem_close hopen).mp hmem).1 hnew, ?_⟩
        intro entry hmem hclosed hwas
        by_contra hnone
        have hself : entry.2 = ws := by
          rw [closed_close hopen] at hclosed
          exact (List.mem_cons.mp hclosed).resolve_right hwas
        refine ht entry ((mem_close hopen).mpr ⟨hmem, fun binding hb hsocket hbot => ?_⟩) hclosed
        exact hnone ⟨binding, hb, hsocket.trans hself.symm, hbot⟩
      · intro htimely entry hmem hclosed
        obtain ⟨hold, hkept⟩ := (mem_close hopen).mp hmem
        rw [closed_close hopen] at hclosed
        have hself : entry.2 = ws := (List.mem_cons.mp hclosed).resolve_right (hs entry hold)
        obtain ⟨binding, hb, hsocket, hbot⟩ := htimely.closes entry hold
          (by rw [closed_close hopen]; exact hclosed) (hs entry hold)
        exact hkept binding hb (hsocket.trans hself) hbot

/-! ## Whole runs -/

/-- Every step is timely. -/
def admits (p : Pool LiveSockets Answer Failure SocketEvent) :
    Move Answer SocketEvent → Prop
  | .start _ => True
  | .run i c => ∀ q, p.move handle (.run i c) = some q → Timely p.state q.state

/-- In a run of connections and closures whose steps are all timely, whenever no
handler is running the registry holds open sockets only, and a bot without an open
one can connect. -/
theorem live_sockets_open {db : World} {q : Pool LiveSockets Answer Failure SocketEvent}
    (h : Reaches handle admits (Pool.init { db }) q) :
    q.Idle SocketEvent.isConnection → Clean q.state ∧
      ∀ walletBot, (∀ ws, (walletBot.id, ws) ∈ q.state.sockets → ws ∈ q.state.closed) →
        q.state.getSocket walletBot = none := by
  intro _
  have hclean : Clean q.state := by
    refine inv_of_always (fun _ t _ => always_handle t) (fun p i c r hm hmv heffect hp => ?_) ?_ h
    · exact (clean_iff heffect hp).mpr (hm r hmv)
    · exact fun _ hmem => (List.not_mem_nil hmem).elim
  refine ⟨hclean, fun walletBot hclosed => ?_⟩
  by_contra hsome
  obtain ⟨ws, hws⟩ := Option.ne_none_iff_exists'.mp hsome
  obtain ⟨_, _, heq, -⟩ := List.lookup_eq_some_iff.mp hws
  have hmem : (walletBot.id, ws) ∈ q.state.sockets := by simp [heq]
  exact hclean _ hmem (hclosed ws hmem)

/-! ## One bot -/

/-- A database in which a token opens the socket of one bot. -/
def oneBot : World where
  accessTokens := .single { id := 1, uid := some "t", account_id := 1, app_id := some 1 }
  apps := .single { id := 1, account_id := 1, name := WalletBot.appName }
  walletBots := .single { id := 1, account_id := some 1, app_id := some 1 }

/-- Nothing comes from outside. -/
def quietly : Answer := {}

/-- Its connection. The handler's steps: three reads, the registration, the tag and
the queue, the binding and the listener. -/
def connects : Move Answer SocketEvent := .start (.connection 7 (some "Bearer t"))

/-- The socket closes while the broker is asked for the queue. -/
def closedEarly : List (Move Answer SocketEvent) :=
  [connects] ++ steps 0 5 quietly ++ [.start (.close 7), .run 1 quietly] ++ steps 0 3 quietly

/-- It closes once the handler is done. -/
def closedLate : List (Move Answer SocketEvent) :=
  [connects] ++ steps 0 8 quietly ++ [.start (.close 7), .run 1 quietly]

/-- No call is under way. -/
def quiet (p : Pool LiveSockets Answer Failure SocketEvent) : Bool :=
  p.threads.all fun th => !th.2.running

theorem idle_of_quiet {p : Pool LiveSockets Answer Failure SocketEvent} (h : quiet p = true) :
    p.Idle SocketEvent.isConnection := by
  intro th hth hrun _
  have hdone := List.all_eq_true.mp h th hth
  rw [hrun] at hdone
  cases hdone

/-- A bot whose socket closed early is shut out: the closed socket stays. -/
theorem closed_early_stays : ∃ q, Reaches handle (fun _ _ => True) (Pool.init { db := oneBot }) q ∧
    q.Idle SocketEvent.isConnection ∧ (1, 7) ∈ q.state.sockets ∧ 7 ∈ q.state.closed := by
  have hadm : Admitted handle (fun _ _ => True) closedEarly (Pool.init { db := oneBot }) :=
    admitted_all (fun _ _ _ => trivial) _
  obtain ⟨q, hreach, htest⟩ := exists_reaches (fun q => quiet q &&
    decide ((1, 7) ∈ q.state.sockets) && decide (7 ∈ q.state.closed)) hadm (by decide +kernel)
  simp only [Bool.and_eq_true, decide_eq_true_eq] at htest
  exact ⟨q, hreach, idle_of_quiet htest.1.1, htest.1.2, htest.2⟩

instance (s t : LiveSockets) : Decidable (Timely s t) :=
  decidable_of_iff ((∀ entry ∈ t.sockets, entry ∉ s.sockets → entry.2 ∉ s.closed) ∧
    ∀ entry ∈ s.sockets, entry.2 ∈ t.closed → entry.2 ∉ s.closed →
      ∃ binding ∈ s.listeners, binding.socket = entry.2 ∧ binding.walletBot.id = entry.1)
    ⟨fun h => ⟨h.1, h.2⟩, fun h => ⟨h.registers, h.closes⟩⟩

/-- A move is timely. -/
def timely (p : Pool LiveSockets Answer Failure SocketEvent) (m : Move Answer SocketEvent) :
    Bool := (p.move handle m).all fun q => decide (Timely p.state q.state)

/-- Where the socket closes late the bot can connect again. -/
theorem closed_late_leaves : ∃ q, Reaches handle admits (Pool.init { db := oneBot }) q ∧
    7 ∈ q.state.closed ∧ Clean q.state ∧
    q.state.getSocket { id := 1, account_id := some 1, app_id := some 1 } = none := by
  have hadm : Admitted handle admits closedLate (Pool.init { db := oneBot }) := by
    have hchecks : checks handle timely closedLate (Pool.init { db := oneBot }) = true := by
      decide +kernel
    refine admitted_of_checks (fun p m h => ?_) hchecks
    cases m with
    | start e => exact trivial
    | run i c =>
        intro q hq
        simpa [timely, hq] using h
  obtain ⟨q, hreach, htest⟩ := exists_reaches (fun q => quiet q && decide (7 ∈ q.state.closed) &&
    decide (∀ entry ∈ q.state.sockets, entry.2 ∈ q.state.closed)) hadm (by decide +kernel)
  simp only [Bool.and_eq_true, decide_eq_true_eq] at htest
  obtain ⟨hclean, hconnect⟩ := live_sockets_open hreach (idle_of_quiet htest.1.1)
  exact ⟨q, hreach, htest.1.2, hclean, hconnect _ fun ws hmem => htest.2 _ hmem⟩

end Anypay.WalletBotSockets
