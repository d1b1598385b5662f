import Mathlib.Data.Finset.Dedup
import ParallelLabs.Library.Simulation
import ParallelLabs.Socket.Accept

/-!
# Whole requests

In `Net` all sessions have been started and a read takes one request as a whole. Byte by
byte, that is a special case of what the server does with its connections
(`netSimulation`), after a run of the acceptor (`exists_accepted`). So what can go wrong
between the clients and the server of `Net` can go wrong between them and the server
process (`net_run`).
-/

set_option autoImplicit false

namespace ParallelLabs.Socket

open Library

section Whole

variable {Client : Type} [DecidableEq Client]

/-- A connection, byte by byte. -/
def Connection.link (conn : Connection) : Link :=
  ⟨conn.data, conn.reads, 0, conn.writes, conn.requests.flatMap Request.bytes, conn.incoming,
    conn.calling⟩

/-- A server that handles whole requests, byte by byte. -/
def Net.server (s : Net Client) : Server Client :=
  ⟨s.value, fun client => (s.connections client).link⟩

/-- A change of one connection. -/
theorem server_update (s : Net Client) (client : Client) (conn : Connection) :
    (s.update client conn).server = s.server.set client conn.link := by
  rw [Net.server, Server.set, Net.server]
  congr 1
  exact Function.comp_update Connection.link s.connections client conn

theorem set_set (s : Server Client) (client : Client) (link link' : Link) :
    (s.set client link).set client link' = s.set client link' := by
  rw [Server.set, Server.set, Server.set]
  congr 1
  exact Function.update_idem _ _ _

section Serve

variable {conn : Connection} {request : Request} {rest : List Request}
  (arrived : conn.requests = request :: rest)

include arrived

theorem requests_link : conn.link.requests = request.bytes ++ rest.flatMap Request.bytes := by
  rw [Connection.link, arrived, List.flatMap_cons]

/-- The next three bytes are the next request. -/
theorem receive_link : conn.link.receive 3 =
    ⟨receive conn.data request.bytes, conn.reads - 1, 1, conn.writes,
      rest.flatMap Request.bytes, conn.incoming, conn.calling⟩ := by
  have length : request.bytes.length = 3 := request.length_bytes
  rw [Link.receive, requests_link arrived, List.take_left' length, List.drop_left' length]
  rfl

theorem handled_link (setHandled : Bool) (replies : List Reply) :
    (conn.link.receive 3).handled replies = (conn.serve setHandled request rest replies).link := by
  rw [receive_link arrived]
  rfl

end Serve

/-- The server receives a whole request and handles it. -/
theorem path_serve {s : Net Client} {client : Client} {request : Request} {rest : List Request}
    {replies : List Reply} {value : Int} (posted : 0 < (s.connections client).reads)
    (arrived : (s.connections client).requests = request :: rest)
    (handled : handleRead false (receive (s.connections client).data request.bytes) s.value =
      some (replies, value)) :
    Path Server.Step s.server [.receive client 3, .handleRead client]
      { s.server.set client ((s.connections client).serve s.setHandled request rest replies).link
        with value := value } := by
  have own : (s.server.set client ((s.connections client).link.receive 3)).links client =
      (s.connections client).link.receive 3 := Function.update_self _ _ _
  have enough : 3 ≤ (s.connections client).link.requests.length := by
    rw [requests_link arrived, List.length_append, request.length_bytes]
    exact Nat.le_add_right 3 _
  have received : s.server.Step (.receive client 3)
      (s.server.set client ((s.connections client).link.receive 3)) :=
    .receive client 3 posted (by decide) (by decide) enough
  have judged : handleRead false
      ((s.server.set client ((s.connections client).link.receive 3)).links client).data s.value =
        some (replies, value) := by
    rw [own, receive_link arrived]
    exact handled
  have answered := Server.Step.handleRead (s := s.server.set client _) client
    (by rw [own, receive_link arrived]; exact Nat.one_pos) judged
  rw [own, set_set, handled_link arrived s.setHandled] at answered
  exact .cons received (.single answered)

/-- What the clients do. -/
def StreamEvent.visible : StreamEvent Client → Option (StreamEvent Client)
  | .call client request => some (.call client request)
  | .read client count => some (.read client count)
  | .receive _ _ | .handleRead _ | .handleWrite _ => none

def Event.visible : Event Client → Option (StreamEvent Client)
  | .call client request => some (.call client request)
  | .read client count => some (.read client count)
  | .handleRead _ | .handleWrite _ => none

/-- **A run with whole requests is a run of the streams**, with the same calls and reads
of the clients. -/
theorem netSimulation : Simulation (@Net.Step Client _) Socket.Started Server.Step
    Server.Started fun past s past' t => t = s.server ∧
      past'.filterMap StreamEvent.visible = past.filterMap Event.visible where
  initially s started := by
    obtain ⟨value, _, connections⟩ := started
    refine ⟨_, ⟨value, fun client => ?_⟩, rfl, rfl⟩
    obtain ⟨data, conn⟩ := connections client
    exact ⟨data, congrArg Connection.link conn⟩
  preserved past s event s' past' t run related step := by
    obtain ⟨rfl, same⟩ := related
    -- The calls and reads so far, and those of the step.
    have seen : ∀ {later : List (StreamEvent Client)},
        later.filterMap StreamEvent.visible = [event].filterMap Event.visible →
        (past' ++ later).filterMap StreamEvent.visible =
          (past ++ [event]).filterMap Event.visible := by
      intro later now
      rw [List.filterMap_append, List.filterMap_append, same, now]
    cases step with
    | call client request free =>
        refine ⟨[.call client request], _, .single (.call client request free), ?_, seen rfl⟩
        rw [server_update]
        congr 1
        rw [Link.send, Connection.link, Connection.send]
        simp [Net.server, Connection.link]
    | @handleRead client request rest replies value posted arrived handled =>
        refine ⟨[.receive client 3, .handleRead client], _, path_serve posted arrived handled, ?_,
          seen rfl⟩
        rw [← server_update]
        rfl
    | handleWrite client posted =>
        refine ⟨[.handleWrite client], _, .single (.handleWrite client posted), ?_, seen rfl⟩
        rw [server_update]
        rfl
    | read client count calling atLeast arrived =>
        refine ⟨[.read client count], _, .single (.read client count calling atLeast arrived), ?_,
          seen rfl⟩
        rw [server_update]
        rfl

/-! ## After the acceptor -/

def TcpEvent.visible : TcpEvent Client → Option (StreamEvent Client)
  | .stream event => event.visible
  | .accept _ _ | .acceptFails _ | .handleAccept _ _ | .handleAcceptError _ | .handleReadError _ _
  | .handleWriteError _ _ => none

/-- The state after the session of a connection has been started. -/
def TcpServer.next (s : TcpServer Client) (session : Nat) (client : Client) (rest : List Client)
    (data : Data) : TcpServer Client :=
  { s with
    server := s.server.set client ((s.server.links client).start data)
    made := s.made + 1
    accepting := [s.made]
    accepted := []
    started := s.started ++ [(session, client)]
    backlog := rest }

section Next

variable (s : TcpServer Client) (session : Nat) (client : Client) (rest : List Client)
  (data : Data)

theorem links_next_self : (s.next session client rest data).server.links client =
    (s.server.links client).start data := Function.update_self _ _ _

theorem links_next_of_ne {other : Client} (same : other ≠ client) :
    (s.next session client rest data).server.links other = s.server.links other :=
  Function.update_of_ne same _ _

end Next

/-- The first connection of the backlog is accepted, and its session is started. -/
theorem path_accept {s : TcpServer Client} {session : Nat} {client : Client}
    {rest : List Client} (posted : s.accepting = [session]) (none : s.accepted = [])
    (backlog : s.backlog = client :: rest) (data : Data) :
    Path (TcpServer.Step false) s [.accept session client, .handleAccept session client]
      (s.next session client rest data) := by
  have accept : s.Step false _ _ :=
    .accept session client (posted ▸ List.mem_singleton_self _) backlog
  rw [posted, none, List.erase_cons_head, List.nil_append] at accept
  refine .cons accept (.single ?_)
  have start : TcpServer.Step false
      { s with accepting := [], accepted := [(session, some client)], backlog := rest } _ _ :=
    .handleAccept session client data (List.mem_singleton_self _)
  rwa [List.erase_cons_head] at start

/-- The connections of the backlog are accepted one after the other, and each session is
started with the buffer that it happens to have. -/
theorem exists_path_accepts (links : Client → Link) {rest : List Client} (nodup : rest.Nodup)
    {s : TcpServer Client} {session : Nat} (posted : s.accepting = [session])
    (none : s.accepted = []) (backlog : s.backlog = rest)
    (others : ∀ client, client ∉ rest → s.server.links client = links client)
    (own : ∀ client ∈ rest, ∃ data, links client = (s.server.links client).start data) :
    ∃ events t, Path (TcpServer.Step false) s events t ∧ t.server = ⟨s.server.value, links⟩ ∧
      events.filterMap TcpEvent.visible = [] := by
  induction rest generalizing s session with
  | nil =>
      refine ⟨[], s, .done s, ?_, rfl⟩
      have all : s.server.links = links := funext fun client => others client List.not_mem_nil
      rw [← all]
  | cons client rest ih =>
      obtain ⟨fresh, nodup⟩ := List.nodup_cons.mp nodup
      obtain ⟨data, link⟩ := own client (List.mem_cons_self ..)
      have others' : ∀ k, k ∉ rest →
          (s.next session client rest data).server.links k = links k := by
        intro k out
        by_cases same : k = client
        · subst same
          rw [links_next_self, link]
        · rw [links_next_of_ne s session client rest data same]
          exact others k fun member => (List.mem_cons.mp member).elim same out
      have own' : ∀ k ∈ rest, ∃ buffer,
          links k = ((s.next session client rest data).server.links k).start buffer := by
        intro k member
        have same : k ≠ client := fun same => fresh (same ▸ member)
        obtain ⟨buffer, link⟩ := own k (List.mem_cons_of_mem _ member)
        refine ⟨buffer, ?_⟩
        rw [links_next_of_ne s session client rest data same, link]
      obtain ⟨events, t, path, server, quiet⟩ :=
        ih nodup (s := s.next session client rest data) rfl rfl rfl others' own'
      exact ⟨_, t, (path_accept posted none backlog data).append path, server, quiet⟩

variable [Fintype Client]

/-- **The acceptor can start every session** before anything else happens. -/
theorem exists_accepted {server : Server Client} (started : server.Started) :
    ∃ events t, Run (TcpServer.Step false) (TcpServer.Started 0) events t ∧ t.server = server ∧
      events.filterMap TcpEvent.visible = [] := by
  obtain ⟨value, links⟩ := started
  have initial : TcpServer.Started 0 (⟨⟨0, fun client => ⟨(server.links client).data, 0, 0, 0, [],
      [], none⟩⟩, 1, [0], [], [], [], [], Finset.univ.toList, 0⟩ : TcpServer Client) :=
    ⟨rfl, fun _ => ⟨_, rfl⟩, rfl, rfl, rfl, rfl, rfl, rfl, fun client =>
      List.count_eq_one_of_mem (Finset.nodup_toList _) (Finset.mem_toList.mpr (Finset.mem_univ _)),
      rfl⟩
  obtain ⟨events, t, path, same, quiet⟩ := exists_path_accepts server.links
    (Finset.nodup_toList _) initial.accepting initial.accepted rfl
    (fun client out => absurd (Finset.mem_toList.mpr (Finset.mem_univ client)) out)
    (fun client _ => by
      obtain ⟨data, link⟩ := links client
      exact ⟨data, link⟩)
  refine ⟨[] ++ events, t, (Run.start initial).append path, same.trans ?_, quiet⟩
  rw [← value]

/-- A run of the sessions is a run of the server process. -/
theorem exists_tcpRun {events : List (StreamEvent Client)} {server : Server Client}
    (run : Run Server.Step Server.Started events server) :
    ∃ events' t, Run (TcpServer.Step false) (TcpServer.Started 0) events' t ∧ t.server = server ∧
      events'.filterMap TcpEvent.visible = events.filterMap StreamEvent.visible := by
  induction run with
  | start started => exact exists_accepted started
  | @snoc events server server' event run next ih =>
      obtain ⟨events', t, run', rfl, seen⟩ := ih
      refine ⟨events' ++ [.stream event], _, run'.snoc (.stream event next), rfl, ?_⟩
      rw [List.filterMap_append, List.filterMap_append, seen]
      rfl

/-- **A run with whole requests is a run of the server process**, with the same calls and
reads of the clients and the same bytes on their way. -/
theorem net_run {events : List (Event Client)} {s : Net Client}
    (run : Run Net.Step Socket.Started events s) :
    ∃ events' t, Run (TcpServer.Step false) (TcpServer.Started 0) events' t ∧ t.server = s.server ∧
      events'.filterMap TcpEvent.visible = events.filterMap Event.visible := by
  obtain ⟨between, server, run', rfl, seen⟩ := netSimulation.exists_run run
  obtain ⟨events', t, run'', same, seen'⟩ := exists_tcpRun run'
  exact ⟨events', t, run'', same, seen'.trans seen⟩

/-- A client that sets and then asks. -/
theorem net_run_surplus :
    ∃ (events : List (Event Unit)) (s : Net Unit) (events' : List (TcpEvent Unit))
      (t : TcpServer Unit), (s.connections ()).returned[1]? = some (.get, Reply.none.bytes) ∧
      Run (TcpServer.Step false) (TcpServer.Started 0) events' t ∧ t.server = s.server ∧
      events'.filterMap TcpEvent.visible = events.filterMap Event.visible := by
  obtain ⟨events, value, run⟩ := run_exchange run_newConnection .set rfl rfl (by decide)
  obtain ⟨events', value', run'⟩ := run_exchange run .get rfl rfl (by decide)
  obtain ⟨answered, t, server⟩ := net_run run'
  exact ⟨events', _, answered, t, rfl, server⟩

end Whole

end ParallelLabs.Socket
