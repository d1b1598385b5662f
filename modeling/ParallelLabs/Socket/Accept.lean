import Mathlib.Data.Fintype.Card
import ParallelLabs.Socket.Stream

/-!
# `tcp_server.h`: the acceptor and its sessions

The constructor of `server` makes a session and starts an accept for it. When an accept is
over, `handle_accept` starts the session, or deletes it if there was an error, and in both
cases makes another session and starts an accept for that one. A client is connected before
its connection is accepted, and may send its first request: it waits in the stream until
the session is started and reads it.

A session deletes itself when one of its operations ends with an error, which happens when
its connection is closed or fails. The operations that are pending then have handlers that
would run on a deleted session. That is undefined, and a run goes up to there; when it can
happen is the subject of `SessionLife`.

So one accept is in hand at every moment, each session is used once, and each client has
one session, is about to get one, or has lost it (`acceptInv_of_run`).
-/

set_option autoImplicit false

namespace ParallelLabs.Socket

open Library

/-- The server process. Sessions are numbered in the order in which they are made. -/
structure TcpServer (Client : Type) where
  /-- The status, and the connections with what their sessions do. -/
  server : Server Client
  /-- How many sessions have been made. -/
  made : Nat
  /-- The sessions for which an accept is outstanding. -/
  accepting : List Nat
  /-- The accepts that are over and whose `handle_accept` has not run: the session, and the
  client unless there was an error. -/
  accepted : List (Nat × Option Client)
  /-- The sessions that have been started and are alive, and their clients. -/
  started : List (Nat × Client)
  /-- Those that were deleted after they had been started, with their clients and the number
  of operations that were pending. -/
  closed : List (Nat × Client × Nat)
  /-- Those that were deleted because their accept had failed. -/
  deleted : List Nat
  /-- The connections that no accept has taken, in their order. -/
  backlog : List Client
  /-- How many accepts will still fail. -/
  failures : Nat

inductive TcpEvent (Client : Type) where
  /-- What a client or a session does. -/
  | stream (event : StreamEvent Client)
  | accept (session : Nat) (client : Client)
  | acceptFails (session : Nat)
  | handleAccept (session : Nat) (client : Client)
  | handleAcceptError (session : Nat)
  /-- A read or a write of a session ends with an error, and its handler runs. -/
  | handleReadError (session : Nat) (client : Client)
  | handleWriteError (session : Nat) (client : Client)

/-- `start`: the session posts its first read. Its buffer is not initialized. -/
def Link.start (link : Link) (data : Data) : Link :=
  { link with data := data, reads := link.reads + 1 }

/-- The operations of the session of a connection. -/
def Link.operations (link : Link) : Nat := link.reads + link.completed + link.writes

/-- The connection without its session. -/
def Link.abandon (link : Link) : Link := { link with reads := 0, completed := 0, writes := 0 }

namespace TcpServer

variable {Client : Type}

/-- `start_accept`. -/
def startAccept (s : TcpServer Client) : TcpServer Client :=
  { s with made := s.made + 1, accepting := s.accepting ++ [s.made] }

/-- All sessions, by what has become of them. -/
def sessions (s : TcpServer Client) : List Nat :=
  s.accepting ++ s.accepted.map Prod.fst ++ s.started.map Prod.fst ++ s.closed.map Prod.fst ++
    s.deleted

/-- All clients, by how far their connections have come. -/
def clients (s : TcpServer Client) : List Client :=
  s.backlog ++ s.accepted.filterMap Prod.snd ++ s.started.map Prod.snd ++
    s.closed.map fun entry => entry.2.1

theorem count_sessions (s : TcpServer Client) (session : Nat) :
    s.sessions.count session = s.accepting.count session +
      (s.accepted.map Prod.fst).count session + (s.started.map Prod.fst).count session +
        (s.closed.map Prod.fst).count session + s.deleted.count session := by
  simp only [sessions, List.count_append]

/-- `start_accept` makes the next session. -/
theorem count_startAccept (s : TcpServer Client) (session : Nat)
    (counted : s.sessions.count session = (List.range s.made).count session) :
    s.startAccept.sessions.count session = (List.range s.startAccept.made).count session := by
  rw [count_sessions] at counted
  rw [count_sessions]
  simp only [startAccept, List.range_succ, List.count_append]
  omega

variable [DecidableEq Client]

theorem count_clients (s : TcpServer Client) (client : Client) :
    s.clients.count client = s.backlog.count client +
      (s.accepted.filterMap Prod.snd).count client + (s.started.map Prod.snd).count client +
        (s.closed.map fun entry => entry.2.1).count client := by
  simp only [clients, List.count_append]

/-- `delete this`, in the handler of one of the operations. -/
def close (s : TcpServer Client) (session : Nat) (client : Client) : TcpServer Client :=
  { s with
    server := s.server.set client (s.server.links client).abandon
    started := s.started.erase (session, client)
    closed := s.closed ++ [(session, client, (s.server.links client).operations - 1)] }

/-- The steps of the server process. The connections may be closed or fail, or they may
not. -/
inductive Step (closing : Bool) (s : TcpServer Client) :
    TcpEvent Client → TcpServer Client → Prop where
  | stream (event : StreamEvent Client) {server : Server Client}
      (own : s.server.Step event server) :
      Step closing s (.stream event) { s with server := server }
  | accept (session : Nat) (client : Client) {rest : List Client}
      (posted : session ∈ s.accepting) (arrived : s.backlog = client :: rest) :
      Step closing s (.accept session client)
        { s with
          accepting := s.accepting.erase session
          accepted := s.accepted ++ [(session, some client)]
          backlog := rest }
  | acceptFails (session : Nat) (posted : session ∈ s.accepting) (fails : 0 < s.failures) :
      Step closing s (.acceptFails session)
        { s with
          accepting := s.accepting.erase session
          accepted := s.accepted ++ [(session, none)]
          failures := s.failures - 1 }
  | handleAccept (session : Nat) (client : Client) (data : Data)
      (ended : (session, some client) ∈ s.accepted) :
      Step closing s (.handleAccept session client)
        (startAccept { s with
          accepted := s.accepted.erase (session, some client)
          started := s.started ++ [(session, client)]
          server := s.server.set client ((s.server.links client).start data) })
  | handleAcceptError (session : Nat) (ended : (session, none) ∈ s.accepted) :
      Step closing s (.handleAcceptError session)
        (startAccept { s with
          accepted := s.accepted.erase (session, none)
          deleted := s.deleted ++ [session] })
  | handleReadError (session : Nat) (client : Client) (closes : closing = true)
      (live : (session, client) ∈ s.started) (posted : 0 < (s.server.links client).reads)
      (handled : handleRead true (s.server.links client).data s.server.value = none) :
      Step closing s (.handleReadError session client) (s.close session client)
  | handleWriteError (session : Nat) (client : Client) (closes : closing = true)
      (live : (session, client) ∈ s.started) (posted : 0 < (s.server.links client).writes) :
      Step closing s (.handleWriteError session client) (s.close session client)

/-- The constructor of `server` has returned, and all clients are connected. -/
structure Started (failures : Nat) (s : TcpServer Client) : Prop where
  value : s.server.value = 0
  links : ∀ client, ∃ data, s.server.links client = ⟨data, 0, 0, 0, [], [], none⟩
  made : s.made = 1
  accepting : s.accepting = [0]
  accepted : s.accepted = []
  started : s.started = []
  closed : s.closed = []
  deleted : s.deleted = []
  backlog : ∀ client, s.backlog.count client = 1
  failures : s.failures = failures

end TcpServer

open TcpServer

variable {Client : Type}

/-- The one accept in hand: it is outstanding, or its `handle_accept` is to run. -/
inductive Hand (s : TcpServer Client) : Prop where
  | accepting (session : Nat) (posted : s.accepting = [session]) (none : s.accepted = [])
  | accepted (session : Nat) (client : Option Client) (none : s.accepting = [])
      (ended : s.accepted = [(session, client)])

section Inv

variable [DecidableEq Client] {closing : Bool} {failures : Nat} {s s' : TcpServer Client}
  {event : TcpEvent Client} {events : List (TcpEvent Client)}

/-- **The invariant of the acceptor.** -/
structure AcceptInv (s : TcpServer Client) : Prop where
  hand : Hand s
  sessions : ∀ session, s.sessions.count session = (List.range s.made).count session
  clients : ∀ client, s.clients.count client = 1
  /-- A session works from its start on, as long as it is alive. -/
  working : ∀ client, client ∈ s.started.map Prod.snd ↔ 0 < (s.server.links client).operations

/-- The server works on a connection only after its session has been started, and the
session always has an operation. -/
theorem operations_step {server server' : Server Client} {event : StreamEvent Client}
    (step : server.Step event server') (client : Client) :
    0 < (server'.links client).operations ↔ 0 < (server.links client).operations := by
  have change : ∀ {k : Client} {link : Link},
      (0 < link.operations ↔ 0 < (server.links k).operations) →
        (0 < (Function.update server.links k link client).operations ↔
          0 < (server.links client).operations) := by
    intro k link own
    by_cases same : client = k
    · subst same
      rwa [Function.update_self]
    · rw [Function.update_of_ne same]
  cases step with
  | call k request free => exact change Iff.rfl
  | receive k count posted atLeast fits arrived =>
      refine change (iff_of_true ?_ ?_)
      · exact Nat.add_pos_left (Nat.add_pos_right _ (Nat.succ_pos _)) _
      · exact Nat.add_pos_left (Nat.add_pos_left posted _) _
  | @handleRead k replies value completed handled =>
      have answered : 0 < replies.length := by
        rw [handleRead_eq, Option.some.injEq] at handled
        obtain rfl : _ = replies := congrArg Prod.fst handled
        rw [answer, List.length_append]
        exact Nat.succ_pos _
      refine change (iff_of_true ?_ ?_)
      · exact Nat.add_pos_right _ (Nat.add_pos_right _ answered)
      · exact Nat.add_pos_left (Nat.add_pos_right _ completed) _
  | handleWrite k posted =>
      refine change (iff_of_true ?_ ?_)
      · exact Nat.add_pos_left (Nat.add_pos_left (Nat.succ_pos _) _) _
      · exact Nat.add_pos_right _ posted
  | read k count calling atLeast arrived => exact change Iff.rfl

omit [DecidableEq Client] in
/-- The accept of a session that is posted is the one in hand. -/
theorem Hand.of_accepting (hand : Hand s) {session : Nat} (posted : session ∈ s.accepting) :
    s.accepting = [session] ∧ s.accepted = [] := by
  cases hand with
  | accepting other one none =>
      rw [one, List.mem_singleton] at posted
      exact ⟨posted ▸ one, none⟩
  | accepted other client none ended =>
      rw [none] at posted
      cases posted

omit [DecidableEq Client] in
theorem Hand.of_accepted (hand : Hand s) {session : Nat} {client : Option Client}
    (ended : (session, client) ∈ s.accepted) :
    s.accepting = [] ∧ s.accepted = [(session, client)] := by
  cases hand with
  | accepting other one none =>
      rw [none] at ended
      cases ended
  | accepted other k none one =>
      rw [one, List.mem_singleton] at ended
      exact ⟨none, ended ▸ one⟩

/-- An element is taken out of a list. -/
theorem count_map_erase {α β : Type} [BEq α] [LawfulBEq α] [DecidableEq β] {l : List α} {a : α}
    (member : a ∈ l) (f : α → β) (b : β) :
    (l.map f).count b = ((l.erase a).map f).count b + if f a = b then 1 else 0 := by
  rw [((List.perm_cons_erase member).map f).count_eq, List.map_cons, List.count_cons]
  simp only [beq_iff_eq]

/-- **A session that deletes itself.** -/
theorem AcceptInv.close (inv : AcceptInv s) {session : Nat} {client : Client}
    (live : (session, client) ∈ s.started) : AcceptInv (s.close session client) := by
  obtain ⟨hand, sessions, clients, working⟩ := inv
  refine ⟨?_, fun k => ?_, fun k => ?_, fun k => ?_⟩
  · cases hand with
    | accepting other posted none => exact .accepting other posted none
    | accepted other k none ended => exact .accepted other k none ended
  · have before := sessions k
    rw [count_sessions, count_map_erase live] at before
    rw [count_sessions]
    simp only [TcpServer.close, List.map_append, List.map_singleton, List.count_append,
      List.count_singleton, beq_iff_eq]
    dsimp only at before
    omega
  · have before := clients k
    rw [count_clients, count_map_erase live] at before
    rw [count_clients]
    simp only [TcpServer.close, List.map_append, List.map_singleton, List.count_append,
      List.count_singleton, beq_iff_eq]
    dsimp only at before
    omega
  · have once := clients k
    have before := working k
    rw [count_clients, count_map_erase live] at once
    rw [← List.count_pos_iff, count_map_erase live] at before
    rw [← List.count_pos_iff]
    simp only [TcpServer.close, Server.set]
    by_cases same : k = client
    · subst same
      rw [if_pos rfl] at once
      rw [Function.update_self, Link.operations, Link.abandon]
      refine iff_of_false ?_ (Nat.lt_irrefl 0)
      omega
    · rw [Function.update_of_ne same, ← before, if_neg (Ne.symm same), Nat.add_zero]

/-- **A step keeps the invariant.** -/
theorem AcceptInv.step (inv : AcceptInv s) (step : s.Step closing event s') : AcceptInv s' := by
  obtain ⟨hand, sessions, clients, working⟩ := inv
  cases step with
  | stream event own =>
      exact ⟨by cases hand with
        | accepting session posted none => exact .accepting session posted none
        | accepted session client none ended => exact .accepted session client none ended,
        sessions, clients, fun client => (working client).trans (operations_step own client).symm⟩
  | @accept session client rest posted arrived =>
      obtain ⟨one, none⟩ := hand.of_accepting posted
      refine ⟨.accepted session (some client) ?_ ?_, fun k => ?_, fun k => ?_, working⟩
      · rw [one, List.erase_cons_head]
      · rw [none, List.nil_append]
      · rw [← sessions k, count_sessions, count_sessions]
        simp [one, none]
      · rw [← clients k, count_clients, count_clients, arrived, none, List.count_cons]
        simp only [List.nil_append, List.filterMap_cons, List.filterMap_nil, List.count_cons,
          List.count_nil]
        omega
  | acceptFails session posted fails =>
      obtain ⟨one, none⟩ := hand.of_accepting posted
      refine ⟨.accepted session Option.none ?_ ?_, fun k => ?_, fun k => ?_, working⟩
      · rw [one, List.erase_cons_head]
      · rw [none, List.nil_append]
      · rw [← sessions k, count_sessions, count_sessions]
        simp [one, none]
      · rw [← clients k, count_clients, count_clients]
        simp [none]
  | handleAccept session client data ended =>
      obtain ⟨none, one⟩ := hand.of_accepted ended
      refine ⟨.accepting s.made ?_ ?_, fun k => count_startAccept _ k ?_, fun k => ?_,
        fun k => ?_⟩
      · rw [startAccept, none, List.nil_append]
      · rw [startAccept, one, List.erase_cons_head]
      · rw [← sessions k, count_sessions, count_sessions, one, List.erase_cons_head]
        simp only [List.map_append, List.map_cons, List.map_nil, List.count_append, List.count_nil]
        omega
      · rw [← clients k, count_clients, count_clients, startAccept, one, List.erase_cons_head]
        simp only [List.map_append, List.map_cons, List.map_nil, List.filterMap_cons,
          List.filterMap_nil, List.count_append, List.count_nil]
        omega
      · have before := working k
        simp only [startAccept, Server.set]
        by_cases same : k = client
        · subst same
          rw [Function.update_self]
          refine iff_of_true (by simp) ?_
          exact Nat.add_pos_left (Nat.add_pos_left (Nat.succ_pos _) _) _
        · rw [Function.update_of_ne same, ← before]
          simp [same]
  | handleAcceptError session ended =>
      obtain ⟨none, one⟩ := hand.of_accepted ended
      refine ⟨.accepting s.made ?_ ?_, fun k => count_startAccept _ k ?_, fun k => ?_, working⟩
      · rw [startAccept, none, List.nil_append]
      · rw [startAccept, one, List.erase_cons_head]
      · rw [← sessions k, count_sessions, count_sessions, one, List.erase_cons_head]
        simp only [List.map_cons, List.map_nil, List.count_append, List.count_nil]
        omega
      · rw [← clients k, count_clients, count_clients, startAccept, one, List.erase_cons_head]
        rfl
  | handleReadError session client closes live | handleWriteError session client closes live =>
      exact AcceptInv.close ⟨hand, sessions, clients, working⟩ live

theorem AcceptInv.of_started (started : s.Started failures) : AcceptInv s := by
  refine ⟨.accepting 0 started.accepting started.accepted, fun k => ?_, fun client => ?_,
    fun client => ?_⟩
  · simp [TcpServer.sessions, started.accepting, started.accepted, started.started,
      started.closed, started.deleted, started.made]
  · simp [TcpServer.clients, started.accepted, started.started, started.closed, started.backlog]
  · obtain ⟨data, link⟩ := started.links client
    simp [started.started, link, Link.operations]

end Inv

end ParallelLabs.Socket
