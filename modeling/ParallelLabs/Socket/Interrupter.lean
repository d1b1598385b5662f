import ParallelLabs.Library.Runs
import ParallelLabs.Socket.Session
import Mathlib.Logic.Function.Basic

/-!
# `SocketServerSystemInterrupter.h`: clients and the server

Each client has a connection to a session of one server. A call of
`check_next_sync_call` or `handle_success` sends a request and reads at least
eight bytes of reply; a read may take more when more has arrived. The server
handles requests one by one, in any order between the connections, and its
replies reach the client as one stream of bytes.

A handled request leaves an answer of eight bytes in the stream and, after it,
the eight bytes of `none` (`handleRead_receive`). Nothing takes the second reply
out but a later read of the client. So the first read of a client is right when
it takes eight bytes, and every other read is wrong: the pairing of replies and
requests holds exactly as long as no client has got beyond one such read
(`paired_iff`).
-/

set_option autoImplicit false

namespace ParallelLabs.Socket

open Library

/-- `check_next_sync_call`: what it returns for the line read. -/
def checkNextSyncCall (line : List Byte) : Bool := line != Reply.finish.bytes

/-- A request that the server has handled: whether it had handled a `set`
before, and the answer. -/
structure Exchange where
  request : Request
  afterSet : Bool
  answer : Reply
  deriving DecidableEq, Repr

/-- A connection. Besides the state of its two ends and of the streams between
them it records the requests handled and the lines returned. -/
structure Connection where
  /-- The buffer of the session. -/
  data : Data
  /-- The outstanding operations of the session. -/
  reads : Nat
  writes : Nat
  /-- On their way to the server. -/
  requests : List Request
  /-- On their way to the client. -/
  incoming : List Byte
  /-- The call that the client is in. -/
  calling : Option Request
  handled : List Exchange
  returned : List (Request × List Byte)

/-- The `n`-th line returned to the client is the server's answer to the client's
`n`-th request, and a check is false exactly when the server had handled a `set`
before it. -/
def Connection.Paired (conn : Connection) : Prop :=
  ∀ (n : Nat) (request : Request) (line : List Byte), conn.returned[n]? = some (request, line) →
    ∃ exchange, conn.handled[n]? = some exchange ∧ exchange.request = request ∧
      line = exchange.answer.bytes ∧
      (request = .get → (checkNextSyncCall line = false ↔ exchange.afterSet = true))

/-- The client has not got beyond one read, and that read took eight bytes. -/
def Connection.OneShortRead (conn : Connection) : Prop :=
  conn.returned.length ≤ 1 ∧ ∀ entry ∈ conn.returned, entry.2.length = 8

/-- The server's status, whether it has handled a `set`, and the connections. -/
structure Net (Client : Type) where
  value : Int
  setHandled : Bool
  connections : Client → Connection

inductive Event (Client : Type) where
  | call (client : Client) (request : Request)
  | handleRead (client : Client)
  | handleWrite (client : Client)
  | read (client : Client) (count : Nat)

namespace Connection

/-- The client enters a call and writes its request. -/
def send (conn : Connection) (request : Request) : Connection :=
  { conn with requests := conn.requests ++ [request], calling := some request }

/-- A read of the session completes with a request, and the replies are written. -/
def serve (conn : Connection) (setHandled : Bool) (request : Request) (rest : List Request)
    (replies : List Reply) : Connection :=
  { conn with
    data := receive conn.data request.bytes
    reads := conn.reads - 1
    writes := conn.writes + replies.length
    requests := rest
    incoming := conn.incoming ++ replies.flatMap Reply.bytes
    handled := conn.handled ++ [⟨request, setHandled, replies.headD .none⟩] }

/-- A write of the session completes, and `handle_write` starts a read. -/
def written (conn : Connection) : Connection :=
  { conn with reads := conn.reads + 1, writes := conn.writes - 1 }

/-- The client's read returns the next bytes of the stream. -/
def complete (conn : Connection) (request : Request) (count : Nat) : Connection :=
  { conn with
    incoming := conn.incoming.drop count
    calling := none
    returned := conn.returned ++ [(request, conn.incoming.take count)] }

end Connection

section Steps

variable {Client : Type} [DecidableEq Client]

def Net.update (s : Net Client) (client : Client) (conn : Connection) : Net Client :=
  { s with connections := Function.update s.connections client conn }

inductive Net.Step (s : Net Client) : Event Client → Net Client → Prop where
  /-- `handle_success` or `check_next_sync_call` is called. -/
  | call (client : Client) (request : Request) (free : (s.connections client).calling = none) :
      Net.Step s (.call client request) (s.update client ((s.connections client).send request))
  /-- An outstanding read of the session completes with a request. -/
  | handleRead (client : Client) {request : Request} {rest : List Request}
      {replies : List Reply} {value : Int} (posted : 0 < (s.connections client).reads)
      (arrived : (s.connections client).requests = request :: rest)
      (handled : handleRead false (receive (s.connections client).data request.bytes) s.value =
        some (replies, value)) :
      Net.Step s (.handleRead client)
        ⟨value, s.setHandled || request == .set,
          (s.update client
            ((s.connections client).serve s.setHandled request rest replies)).connections⟩
  | handleWrite (client : Client) (posted : 0 < (s.connections client).writes) :
      Net.Step s (.handleWrite client) (s.update client (s.connections client).written)
  /-- The read of the call returns, with eight bytes or more. -/
  | read (client : Client) {request : Request} (count : Nat)
      (calling : (s.connections client).calling = some request) (atLeast : 8 ≤ count)
      (arrived : count ≤ (s.connections client).incoming.length) :
      Net.Step s (.read client count)
        (s.update client ((s.connections client).complete request count))

/-- All clients are connected and every session has started its first read. -/
def Started (s : Net Client) : Prop :=
  s.value = 0 ∧ s.setHandled = false ∧
    ∀ client, ∃ data, s.connections client = ⟨data, 1, 0, [], [], none, [], []⟩

end Steps

/-! ## What the server answers -/

/-- The answer to a request, given whether a `set` has been handled before. -/
def answerTo (request : Request) (afterSet : Bool) : Reply :=
  match request with
  | .get => if afterSet then .finish else .cont
  | .set => .ok

theorem answerTo_ne_none (request : Request) (afterSet : Bool) :
    answerTo request afterSet ≠ .none := by
  cases request <;> cases afterSet <;> decide

theorem checkNextSyncCall_answerTo (afterSet : Bool) :
    checkNextSyncCall (answerTo .get afterSet).bytes = false ↔ afterSet = true := by
  cases afterSet <;> decide

/-- The bytes that a handled request leaves in the stream. -/
def Exchange.bytes (exchange : Exchange) : List Byte :=
  exchange.answer.bytes ++ Reply.none.bytes

/-- **The invariant of a connection.** The bytes returned and those still on
their way are the bytes of the exchanges, in order; the requests likewise. -/
structure ConnectionInv (conn : Connection) : Prop where
  answers : ∀ exchange ∈ conn.handled, exchange.answer = answerTo exchange.request exchange.afterSet
  requests : conn.returned.map Prod.fst ++ conn.calling.toList =
    conn.handled.map Exchange.request ++ conn.requests
  bytes : (conn.returned.map Prod.snd).flatten ++ conn.incoming =
    conn.handled.flatMap Exchange.bytes
  lines : ∀ entry ∈ conn.returned, 8 ≤ entry.2.length

namespace ConnectionInv

variable {conn : Connection} (inv : ConnectionInv conn)

include inv

theorem send (request : Request) (free : conn.calling = none) :
    ConnectionInv (conn.send request) where
  answers := inv.answers
  requests := by
    have order := inv.requests
    rw [free, Option.toList_none, List.append_nil] at order
    rw [Connection.send, order, Option.toList_some, List.append_assoc]
  bytes := inv.bytes
  lines := inv.lines

theorem serve {setHandled : Bool} {request : Request} {rest : List Request}
    (arrived : conn.requests = request :: rest) :
    ConnectionInv (conn.serve setHandled request rest [answerTo request setHandled, .none]) := by
  obtain ⟨answers, order, stream, lines⟩ := inv
  refine ⟨?_, ?_, ?_, by simpa only [Connection.serve] using lines⟩
  · intro exchange member
    rcases List.mem_append.mp member with earlier | last
    · exact answers exchange earlier
    · rw [List.mem_singleton.mp last, List.headD_cons]
  · rw [arrived] at order
    simp only [Connection.serve]
    rw [order, List.map_append, List.append_assoc, List.map_singleton, List.singleton_append]
  · simp only [Connection.serve]
    rw [← List.append_assoc, stream, List.flatMap_append]
    simp [Exchange.bytes]

theorem written : ConnectionInv conn.written := ⟨inv.answers, inv.requests, inv.bytes, inv.lines⟩

theorem complete {request : Request} {count : Nat} (calling : conn.calling = some request)
    (atLeast : 8 ≤ count) (arrived : count ≤ conn.incoming.length) :
    ConnectionInv (conn.complete request count) where
  answers := inv.answers
  requests := by
    have order := inv.requests
    rw [calling] at order
    rw [Connection.complete, List.map_append, Option.toList_none, List.append_nil]
    exact order
  bytes := by
    have stream := inv.bytes
    rw [Connection.complete, List.map_append, List.flatten_append, List.append_assoc, ← stream]
    simp
  lines := by
    intro entry member
    rcases List.mem_append.mp member with earlier | last
    · exact inv.lines entry earlier
    · rw [List.mem_singleton.mp last, List.length_take, Nat.min_eq_left arrived]
      exact atLeast

/-- A returned line begins with the answer of the first exchange. -/
theorem first_line {request : Request} {line : List Byte} {more : List (Request × List Byte)}
    (returned : conn.returned = (request, line) :: more) :
    ∃ exchange rest, conn.handled = exchange :: rest ∧ exchange.request = request ∧
      line ++ ((more.map Prod.snd).flatten ++ conn.incoming) =
        exchange.answer.bytes ++ (Reply.none.bytes ++ rest.flatMap Exchange.bytes) := by
  have stream := inv.bytes
  have order := inv.requests
  have long := inv.lines (request, line) (returned ▸ List.mem_cons_self ..)
  rw [returned] at stream order
  rw [List.map_cons, List.flatten_cons, List.append_assoc] at stream
  cases exchanges : conn.handled with
  | nil =>
      rw [exchanges, List.flatMap_nil] at stream
      rw [(List.append_eq_nil_iff.mp stream).1, List.length_nil] at long
      exact absurd long (by decide)
  | cons exchange rest =>
      rw [exchanges] at stream order
      rw [List.flatMap_cons, Exchange.bytes, List.append_assoc] at stream
      exact ⟨exchange, rest, rfl, (List.cons.inj order).1.symm, stream⟩

/-- A first read of eight bytes takes the answer. -/
theorem first_paired {request : Request} {line : List Byte} {more : List (Request × List Byte)}
    (returned : conn.returned = (request, line) :: more) (short : line.length = 8) :
    ∃ exchange, conn.handled[0]? = some exchange ∧ exchange.request = request ∧
      line = exchange.answer.bytes ∧
      (request = .get → (checkNextSyncCall line = false ↔ exchange.afterSet = true)) := by
  obtain ⟨exchange, rest, handled, same, stream⟩ := inv.first_line returned
  have correct := inv.answers exchange (handled ▸ List.mem_cons_self ..)
  obtain ⟨rfl, -⟩ := List.append_inj stream (by rw [short, Reply.length_bytes])
  refine ⟨exchange, by rw [handled]; rfl, same, rfl, ?_⟩
  rintro rfl
  rw [correct, same]
  exact checkNextSyncCall_answerTo exchange.afterSet

/-- A second read begins in the surplus reply, so it does not take the second
answer alone. -/
theorem second_not_paired {request request' : Request} {line line' : List Byte}
    {more : List (Request × List Byte)}
    (returned : conn.returned = (request, line) :: (request', line') :: more) : ¬ conn.Paired := by
  intro paired
  obtain ⟨exchange, rest, handled, -, stream⟩ := inv.first_line returned
  obtain ⟨first, found, -, answer, -⟩ := paired 0 request line (by rw [returned]; rfl)
  obtain ⟨second, found', -, answer', -⟩ := paired 1 request' line' (by rw [returned]; rfl)
  rw [handled, List.getElem?_cons_zero, Option.some.injEq] at found
  subst found
  rw [answer, List.append_cancel_left_eq, List.map_cons, List.flatten_cons, List.append_assoc,
    answer'] at stream
  have surplus := (List.append_inj stream (by rw [Reply.length_bytes, Reply.length_bytes])).1
  have correct := inv.answers second (List.mem_of_getElem? found')
  exact answerTo_ne_none _ _ (correct.symm.trans (Reply.bytes_injective surplus))

/-- **Pairing of one connection.** -/
theorem paired_iff_oneShortRead : conn.Paired ↔ conn.OneShortRead := by
  constructor
  · intro paired
    rcases returned : conn.returned with _ | ⟨⟨request, line⟩, _ | ⟨⟨request', line'⟩, more⟩⟩
    · simp [Connection.OneShortRead, returned]
    · obtain ⟨exchange, -, -, answer, -⟩ := paired 0 request line (by rw [returned]; rfl)
      simp [Connection.OneShortRead, returned, answer]
    · exact absurd paired (inv.second_not_paired returned)
  · rintro ⟨single, short⟩ n request line entry
    have inside : n < conn.returned.length := (List.getElem?_eq_some_iff.mp entry).1
    obtain rfl : n = 0 := by omega
    rcases returned : conn.returned with _ | ⟨head, more⟩
    · rw [returned] at entry
      cases entry
    · rw [returned, List.getElem?_cons_zero, Option.some.injEq] at entry
      subst entry
      exact inv.first_paired returned (short _ (returned ▸ List.mem_cons_self ..))

end ConnectionInv

section Pairing

variable {Client : Type}

/-- **The invariant of the server and its connections.** -/
structure NetInv (s : Net Client) : Prop where
  status : s.value ≠ 0 ↔ s.setHandled = true
  connections : ∀ client, ConnectionInv (s.connections client)

theorem NetInv.update [DecidableEq Client] {s : Net Client} (inv : NetInv s) (client : Client)
    {conn : Connection} (changed : ConnectionInv conn) (other : Client) :
    ConnectionInv ((s.update client conn).connections other) :=
  (Function.forall_update_iff s.connections fun _ conn => ConnectionInv conn).mpr
    ⟨changed, fun other _ => inv.connections other⟩ other

theorem NetInv.of_started {s : Net Client} (started : Started s) : NetInv s := by
  obtain ⟨value, handled, connections⟩ := started
  refine ⟨by simp [value, handled], fun client => ?_⟩
  obtain ⟨data, conn⟩ := connections client
  rw [conn]
  exact ⟨by simp, rfl, rfl, by simp⟩

/-- The replies and the status after a request. -/
theorem NetInv.handled {s : Net Client} (inv : NetInv s) {data : Data} {request : Request}
    {replies : List Reply} {value : Int}
    (handled : handleRead false (receive data request.bytes) s.value = some (replies, value)) :
    replies = [answerTo request s.setHandled, .none] ∧
      (value ≠ 0 ↔ (s.setHandled || request == .set) = true) := by
  rw [handleRead_receive] at handled
  cases request with
  | get =>
      simp only [Option.some.injEq, Prod.mk.injEq] at handled
      obtain ⟨rfl, rfl⟩ := handled
      refine ⟨?_, by rw [inv.status, Bool.or_eq_true]; simp⟩
      rw [answerTo]
      simp only [inv.status]
  | set =>
      simp only [Option.some.injEq, Prod.mk.injEq] at handled
      obtain ⟨rfl, rfl⟩ := handled
      exact ⟨rfl, by simp⟩

variable [DecidableEq Client]

/-- **A step keeps the invariant.** -/
theorem NetInv.step {s s' : Net Client} {event : Event Client} (inv : NetInv s)
    (step : Net.Step s event s') : NetInv s' := by
  cases step with
  | call client request free =>
      exact ⟨inv.status, inv.update client ((inv.connections client).send request free)⟩
  | handleRead client posted arrived handled =>
      obtain ⟨rfl, status⟩ := inv.handled handled
      exact ⟨status, inv.update client ((inv.connections client).serve arrived)⟩
  | handleWrite client posted =>
      exact ⟨inv.status, inv.update client (inv.connections client).written⟩
  | read client count calling atLeast arrived =>
      exact ⟨inv.status,
        inv.update client ((inv.connections client).complete calling atLeast arrived)⟩

/-- **Pairing holds exactly up to one short read of each client**, in every
reachable state and for any clients. -/
theorem paired_iff {events : List (Event Client)} {s : Net Client}
    (run : Run Net.Step Started events s) :
    (∀ client, (s.connections client).Paired) ↔
      ∀ client, (s.connections client).OneShortRead := by
  have inv : NetInv s := run.invariant (fun _ s => NetInv s)
    (fun _ started => .of_started started) (fun _ _ _ _ inv step => inv.step step)
  exact forall_congr' fun client => (inv.connections client).paired_iff_oneShortRead

end Pairing

/-! ## One client -/

/-- The server and one client. -/
def single (value : Int) (setHandled : Bool) (conn : Connection) : Net Unit :=
  ⟨value, setHandled, fun _ => conn⟩

theorem single_update (value : Int) (setHandled : Bool) (conn conn' : Connection) :
    (single value setHandled conn).update () conn' = single value setHandled conn' := by
  rw [Net.update, single, single]
  congr 1

/-- A whole exchange: the request is sent and handled, a write of the session
completes, and the client reads eight bytes. -/
def Connection.exchange (conn : Connection) (setHandled : Bool) (request : Request) : Connection :=
  ((conn.send request).serve setHandled request []
    [answerTo request setHandled, .none]).written.complete request 8

theorem run_exchange {events : List (Event Unit)} {value : Int} {setHandled : Bool}
    {conn : Connection} (run : Run Net.Step Started events (single value setHandled conn))
    (request : Request) (free : conn.calling = none) (silent : conn.requests = [])
    (posted : 0 < conn.reads) :
    ∃ events' value', Run Net.Step Started events'
      (single value' (setHandled || request == .set) (conn.exchange setHandled request)) := by
  have inv : NetInv (single value setHandled conn) := run.invariant (fun _ s => NetInv s)
    (fun _ started => .of_started started) (fun _ _ _ _ inv step => inv.step step)
  obtain ⟨replies, value', handled⟩ : ∃ replies value',
      handleRead false (receive conn.data request.bytes) value = some (replies, value') := by
    rw [handleRead_receive]
    cases request <;> exact ⟨_, _, rfl⟩
  obtain ⟨rfl, -⟩ := inv.handled handled
  have sent := Net.Step.call (s := single value setHandled conn) () request free
  rw [single_update] at sent
  have arrived : (conn.send request).requests = [request] := by
    rw [Connection.send, silent]
    rfl
  have served := Net.Step.handleRead (s := single value setHandled (conn.send request)) ()
    posted arrived handled
  rw [single_update] at served
  have written := Net.Step.handleWrite (s := single value' (setHandled || request == .set)
    ((conn.send request).serve setHandled request [] [answerTo request setHandled, .none])) ()
    (by simp [single, Connection.serve])
  rw [single_update] at written
  have completed := Net.Step.read (s := single value' (setHandled || request == .set)
    ((conn.send request).serve setHandled request []
      [answerTo request setHandled, .none]).written) () 8 (rfl : _ = some request)
    (Nat.le_refl _) (by simp [single, Connection.serve, Connection.written])
  rw [single_update] at completed
  exact ⟨_, value', .snoc (.snoc (.snoc (.snoc run sent) served) written) completed⟩

/-- A new connection. -/
def newConnection : Connection := ⟨Vector.replicate max_length 0, 1, 0, [], [], none, [], []⟩

theorem run_newConnection :
    Run Net.Step Started ([] : List (Event Unit)) (single 0 false newConnection) :=
  .start ⟨rfl, rfl, fun _ => ⟨_, rfl⟩⟩

/-- One client that asks once is answered. -/
theorem paired_iff_once :
    ∃ s : Net Unit, (s.connections ()).returned = [(.get, Reply.cont.bytes)] ∧
      ((∀ client, (s.connections client).Paired) ↔
        ∀ client, (s.connections client).OneShortRead) := by
  obtain ⟨events, value, run⟩ := run_exchange run_newConnection .get rfl rfl (by decide)
  exact ⟨_, rfl, paired_iff run⟩

/-- **The surplus reply is read.** A client that sets and then asks reads `none`
as the answer to its question and goes on, although the server answered
`finished`. -/
theorem surplus_reply_read :
    ∃ (events : List (Event Unit)) (s : Net Unit), Run Net.Step Started events s ∧
      (s.connections ()).handled[1]? = some ⟨.get, true, .finish⟩ ∧
      (s.connections ()).returned[1]? = some (.get, Reply.none.bytes) ∧
      checkNextSyncCall Reply.none.bytes = true ∧ ¬ ∀ client, (s.connections client).Paired := by
  obtain ⟨events, value, run⟩ := run_exchange run_newConnection .set rfl rfl (by decide)
  obtain ⟨events', value', run'⟩ := run_exchange run .get rfl rfl (by decide)
  refine ⟨events', _, run', rfl, rfl, by decide, ?_⟩
  intro paired
  obtain ⟨exchange, handled, -, line, -⟩ := paired () 1 .get Reply.none.bytes rfl
  cases handled
  exact absurd line (by decide)

end ParallelLabs.Socket
