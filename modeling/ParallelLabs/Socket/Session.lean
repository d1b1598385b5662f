import Mathlib.Data.List.Basic

/-!
# `tcp_server.h`: a session of the server

A session reads into its buffer `data_`, compares the front of the buffer with
the two requests, and writes replies of eight bytes. The comparison looks at the
buffer, of which a read overwrites the front only (`checkRequest_receive`).

`handleRead` writes the answer to a request that it recognises and then writes
`none` in any case: there is no `else` and no `return` between the three writes.
So a recognised request is followed by two replies (`handleRead_receive`).
-/

set_option autoImplicit false

namespace ParallelLabs.Socket

/-- `char`. -/
abbrev Byte := BitVec 8

/-- The bytes of a string constant. -/
def text (characters : List Char) : List Byte := characters.map fun c => BitVec.ofNat 8 c.toNat

/-- The requests `_get_const` and `_set_const`. -/
inductive Request where
  | get
  | set
  deriving DecidableEq, Repr

def Request.bytes : Request → List Byte
  | .get => text ['g', 'e', 't']
  | .set => text ['s', 'e', 't']

/-- The replies `finish`, `cont`, `ok` and `none`. -/
inductive Reply where
  | finish
  | cont
  | ok
  | none
  deriving DecidableEq, Repr

def Reply.bytes : Reply → List Byte
  | .finish => text ['f', 'i', 'n', 'i', 's', 'h', 'e', 'd']
  | .cont => text ['c', 'o', 'n', 't', 'i', 'n', 'u', 'e']
  | .ok => text ['o', 'k', ' ', ' ', ' ', ' ', ' ', ' ']
  | .none => text ['n', 'o', 'n', 'e', ' ', ' ', ' ', ' ']

@[simp] theorem Reply.length_bytes (reply : Reply) : reply.bytes.length = 8 := by
  cases reply <;> rfl

theorem Reply.bytes_injective : Function.Injective Reply.bytes := by
  intro first second same
  cases first <;> cases second <;> first | rfl | exact absurd same (by decide)

def max_length : Nat := 1024

/-- `data_`. -/
abbrev Data := Vector Byte max_length

/-- A read of some bytes into the front of `data_`. -/
def receive (data : Data) (bytes : List Byte) : Data :=
  Vector.ofFn fun i => if inside : i < bytes.length then bytes[i] else data[i]

/-- `check_request`. -/
def checkRequest (data : Data) (strconst : List Byte) : Bool :=
  (List.range strconst.length).all fun i => data[i]! == strconst[i]!

/-- `handle_read`: the replies written, in order, and the new `*value`; nothing
when the session deletes itself. -/
def handleRead (error : Bool) (data : Data) (value : Int) : Option (List Reply × Int) :=
  if error then Option.none
  else
    let answered :=
      if checkRequest data Request.get.bytes then
        if value ≠ 0 then [Reply.finish] else [Reply.cont]
      else []
    let (acknowledged, value) :=
      if checkRequest data Request.set.bytes then ([Reply.ok], 1) else ([], value)
    some (answered ++ acknowledged ++ [Reply.none], value)

theorem getElem!_receive {data : Data} {bytes : List Byte} {i : Nat} (inside : i < bytes.length)
    (bound : i < max_length) : (receive data bytes)[i]! = bytes[i]! := by
  rw [getElem!_pos _ i bound, getElem!_pos bytes i inside, receive, Vector.getElem_ofFn,
    dif_pos inside]
  rfl

@[simp] theorem Request.length_bytes (request : Request) : request.bytes.length = 3 := by
  cases request <;> rfl

/-- A request read as a whole is compared as a whole. -/
theorem checkRequest_receive (data : Data) (request other : Request) :
    checkRequest (receive data request.bytes) other.bytes = decide (request = other) := by
  have read : ∀ i < 3, (receive data request.bytes)[i]! = request.bytes[i]! := fun i below =>
    getElem!_receive (by rwa [Request.length_bytes]) (by rw [max_length]; omega)
  have compared : checkRequest (receive data request.bytes) other.bytes =
      (List.range 3).all fun i => request.bytes[i]! == other.bytes[i]! := by
    rw [checkRequest, Request.length_bytes]
    simp only [List.range_succ, List.range_zero, List.nil_append, List.all_append, List.all_cons,
      List.all_nil, read 0 (by decide), read 1 (by decide), read 2 (by decide)]
  rw [compared]
  cases request <;> cases other <;> decide

/-- **A recognised request gets two replies**: its answer and `none`. -/
theorem handleRead_receive (data : Data) (request : Request) (value : Int) :
    handleRead false (receive data request.bytes) value =
      match request with
      | .get => some ([if value ≠ 0 then Reply.finish else Reply.cont, Reply.none], value)
      | .set => some ([Reply.ok, Reply.none], 1) := by
  cases request with
  | get =>
      simp only [handleRead, checkRequest_receive]
      by_cases stopped : value ≠ 0 <;> simp [stopped]
  | set => simp [handleRead, checkRequest_receive]

end ParallelLabs.Socket
