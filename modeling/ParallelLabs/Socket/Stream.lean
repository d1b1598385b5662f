import ParallelLabs.Socket.Interrupter
import ParallelLabs.Socket.ShortReads

/-!
# Clients and the server, byte by byte

The requests of a client are a stream of bytes. A read of its session takes any number
of them: a part of a request, a request, or parts of several. The bytes are in the
buffer before `handle_read` runs, and another read may overwrite them until then. The
replies are a stream of bytes too, of which a read of the client takes eight or more.
-/

set_option autoImplicit false

namespace ParallelLabs.Socket

open Library

/-- The two ends of a connection and the bytes between them. -/
structure Link where
  /-- The buffer of the session. -/
  data : Data
  /-- The outstanding reads of the session. -/
  reads : Nat
  /-- The reads that have completed and whose `handle_read` has not run. -/
  completed : Nat
  /-- The outstanding writes. -/
  writes : Nat
  /-- On their way to the server. -/
  requests : List Byte
  /-- On their way to the client. -/
  incoming : List Byte
  /-- The call that the client is in. -/
  calling : Option Request

/-- The server's status and the connections. -/
structure Server (Client : Type) where
  value : Int
  links : Client → Link

inductive StreamEvent (Client : Type) where
  | call (client : Client) (request : Request)
  /-- A read of the session completes. -/
  | receive (client : Client) (count : Nat)
  | handleRead (client : Client)
  | handleWrite (client : Client)
  | read (client : Client) (count : Nat)

namespace Link

/-- The client enters a call and writes its request. -/
def send (link : Link) (request : Request) : Link :=
  { link with requests := link.requests ++ request.bytes, calling := some request }

/-- A read of the session completes with the next bytes. -/
def receive (link : Link) (count : Nat) : Link :=
  { link with
    data := Socket.receive link.data (link.requests.take count)
    reads := link.reads - 1
    completed := link.completed + 1
    requests := link.requests.drop count }

/-- `handle_read` writes its replies. -/
def handled (link : Link) (replies : List Reply) : Link :=
  { link with
    completed := link.completed - 1
    writes := link.writes + replies.length
    incoming := link.incoming ++ replies.flatMap Reply.bytes }

/-- A write of the session completes, and `handle_write` starts a read. -/
def written (link : Link) : Link :=
  { link with reads := link.reads + 1, writes := link.writes - 1 }

/-- The client's read returns the next bytes. -/
def complete (link : Link) (count : Nat) : Link :=
  { link with incoming := link.incoming.drop count, calling := none }

end Link

section Steps

variable {Client : Type} [DecidableEq Client]

def Server.set (s : Server Client) (client : Client) (link : Link) : Server Client :=
  { s with links := Function.update s.links client link }

inductive Server.Step (s : Server Client) : StreamEvent Client → Server Client → Prop where
  | call (client : Client) (request : Request) (free : (s.links client).calling = none) :
      Server.Step s (.call client request) (s.set client ((s.links client).send request))
  | receive (client : Client) (count : Nat) (posted : 0 < (s.links client).reads)
      (atLeast : 1 ≤ count) (fits : count ≤ max_length)
      (arrived : count ≤ (s.links client).requests.length) :
      Server.Step s (.receive client count) (s.set client ((s.links client).receive count))
  | handleRead (client : Client) {replies : List Reply} {value : Int}
      (completed : 0 < (s.links client).completed)
      (handled : handleRead false (s.links client).data s.value = some (replies, value)) :
      Server.Step s (.handleRead client)
        { s.set client ((s.links client).handled replies) with value := value }
  | handleWrite (client : Client) (posted : 0 < (s.links client).writes) :
      Server.Step s (.handleWrite client) (s.set client (s.links client).written)
  | read (client : Client) {request : Request} (count : Nat)
      (calling : (s.links client).calling = some request) (atLeast : 8 ≤ count)
      (arrived : count ≤ (s.links client).incoming.length) :
      Server.Step s (.read client count) (s.set client ((s.links client).complete count))

/-- All clients are connected and every session has started its first read. -/
def Server.Started (s : Server Client) : Prop :=
  s.value = 0 ∧ ∀ client, ∃ data, s.links client = ⟨data, 1, 0, 0, [], [], none⟩

end Steps

end ParallelLabs.Socket
