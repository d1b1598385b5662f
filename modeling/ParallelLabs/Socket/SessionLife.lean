import ParallelLabs.Library.Runs
import ParallelLabs.Socket.Session

/-!
# `tcp_server.h`: the life of a session

A session lives as long as it has an operation outstanding: `start` posts a read,
a completed read posts writes, a completed write posts a read, and the completion
of an operation with an error deletes the session. Operations complete in any
order. The handler of an operation that outlives the session runs all the same.

One operation in, one operation out would keep a single operation outstanding. A
completed read breaks this when it finds a request in the buffer: it posts two
writes. So there is one operation at a time, and one deletion at most, exactly as
long as no completed read finds a request (`oneAtATime_iff`).
-/

set_option autoImplicit false

namespace ParallelLabs.Socket

open Library

/-- A session: its buffer and its outstanding operations, and for each time that
it deleted itself the operations that were still pending. -/
structure SessionObject where
  data : Data
  reads : Nat
  writes : Nat
  deletes : List Nat

/-- The completions of the operations of a session. -/
inductive Completion where
  /-- A read, with the buffer that `handle_read` finds. -/
  | handleRead (data : Data)
  | handleReadError
  | handleWrite
  | handleWriteError

namespace SessionObject

/-- A new session. Its buffer is not initialized. -/
def make (data : Data) : SessionObject := ⟨data, 0, 0, []⟩

/-- `start`. -/
def start (s : SessionObject) : SessionObject := { s with reads := s.reads + 1 }

/-- The operations in flight. -/
def outstanding (s : SessionObject) : Nat := s.reads + s.writes

/-- A read or a write is over. -/
def readOver (s : SessionObject) : SessionObject := { s with reads := s.reads - 1 }

def writeOver (s : SessionObject) : SessionObject := { s with writes := s.writes - 1 }

/-- `delete this`. -/
def delete (s : SessionObject) : SessionObject := { s with deletes := s.deletes ++ [s.outstanding] }

/-- The completions that the outstanding operations allow. The status of the
server, to which the session has a pointer, may be anything. -/
inductive Step (s : SessionObject) : Completion → SessionObject → Prop where
  | handleRead (bytes : List Byte) (status : Int) {replies : List Reply} {status' : Int}
      (posted : 0 < s.reads) (received : 0 < bytes.length) (fits : bytes.length ≤ max_length)
      (handled : handleRead false (receive s.data bytes) status = some (replies, status')) :
      Step s (.handleRead (receive s.data bytes))
        { s.readOver with
          data := receive s.data bytes
          writes := s.writes + replies.length }
  | handleReadError (status : Int) (posted : 0 < s.reads)
      (handled : Socket.handleRead true s.data status = none) :
      Step s .handleReadError s.readOver.delete
  /-- `handle_write` posts the next read. -/
  | handleWrite (posted : 0 < s.writes) : Step s .handleWrite s.writeOver.start
  | handleWriteError (posted : 0 < s.writes) : Step s .handleWriteError s.writeOver.delete

/-- A session that has been started. -/
def Started (s : SessionObject) : Prop := ∃ data, s = (make data).start

end SessionObject

open SessionObject

/-- The buffer has a request at its front. -/
def Recognised (data : Data) : Prop :=
  checkRequest data Request.get.bytes = true ∨ checkRequest data Request.set.bytes = true

/-- The completion is not a read that finds a request. -/
def Unrecognised (_ : SessionObject) (completion : Completion) : Prop :=
  ∀ data, completion = .handleRead data → ¬ Recognised data

/-- At every moment at most one operation is outstanding, and the session deletes
itself at most once and with no operation pending. -/
def OneAtATime (past : List (SessionObject × Completion)) (s : SessionObject) : Prop :=
  Always (fun s => s.outstanding ≤ 1) past s ∧
    s.deletes.length ≤ 1 ∧ ∀ pending ∈ s.deletes, pending = 0

/-- **`handle_read` posts one write more for a request.** -/
theorem length_replies {data : Data} {status status' : Int} {replies : List Reply}
    (handled : handleRead false data status = some (replies, status')) :
    (Recognised data → 2 ≤ replies.length) ∧ (¬ Recognised data → replies.length = 1) := by
  rw [handleRead, if_neg Bool.false_ne_true, Option.some.injEq, Prod.mk.injEq] at handled
  obtain ⟨rfl, _⟩ := handled
  cases get : checkRequest data Request.get.bytes <;>
    cases set : checkRequest data Request.set.bytes <;>
    by_cases stopped : status ≠ 0 <;> simp [Recognised, get, set, stopped]

/-- While no read has found a request, there is one operation or the session is
gone; from the first such read on, two operations have been outstanding. -/
def LifeInv (past : List (SessionObject × Completion)) (s : SessionObject) : Prop :=
  EveryStep Unrecognised past ∧ OneAtATime past s ∧ s.outstanding + s.deletes.length = 1 ∨
    ¬ EveryStep Unrecognised past ∧ ¬ Always (fun s => s.outstanding ≤ 1) past s

namespace LifeInv

variable {past : List (SessionObject × Completion)} {s s' : SessionObject} {completion : Completion}

theorem started (start : SessionObject.Started s) : LifeInv [] s := by
  obtain ⟨data, rfl⟩ := start
  refine .inl ⟨everyStep_nil _, ⟨⟨fun _ member => absurd member List.not_mem_nil, Nat.le_refl 1⟩,
    Nat.zero_le 1, fun _ member => absurd member List.not_mem_nil⟩, rfl⟩

/-- Once two operations have been outstanding, that stays in the past. -/
theorem broken (two : ¬ EveryStep Unrecognised past ∧
    ¬ Always (fun s => s.outstanding ≤ 1) past s) : LifeInv (past ++ [(s, completion)]) s' := by
  refine .inr ⟨fun all => two.1 (everyStep_snoc.mp all).1, fun always => ?_⟩
  exact two.2 (always_snoc.mp always).1

/-- A step by which the session keeps its one operation. -/
theorem kept (all : EveryStep Unrecognised past) (one : OneAtATime past s)
    (unrecognised : Unrecognised s completion) (deletes : s'.deletes = s.deletes)
    (count : s'.outstanding + s.deletes.length = 1) : LifeInv (past ++ [(s, completion)]) s' := by
  obtain ⟨always, once, idle⟩ := one
  refine .inl ⟨everyStep_snoc.mpr ⟨all, unrecognised⟩, ⟨always_snoc.mpr ⟨always, ?_⟩, ?_, ?_⟩, ?_⟩
  · exact Nat.le_of_add_right_le (Nat.le_of_eq count)
  · rwa [deletes]
  · rwa [deletes]
  · rwa [deletes]

/-- A step by which the session deletes itself. -/
theorem deleted (all : EveryStep Unrecognised past) (one : OneAtATime past s)
    (unrecognised : Unrecognised s completion) (deletes : s'.deletes = s.deletes)
    (last : s'.outstanding + s.deletes.length = 0) :
    LifeInv (past ++ [(s, completion)]) s'.delete := by
  obtain ⟨always, _, _⟩ := one
  obtain ⟨none, length⟩ := Nat.add_eq_zero_iff.mp last
  have empty : s'.delete.deletes = [0] := by
    rw [delete, deletes, List.length_eq_zero_iff.mp length, none]
    rfl
  have count : s'.delete.outstanding = 0 := none
  refine .inl ⟨everyStep_snoc.mpr ⟨all, unrecognised⟩, ⟨always_snoc.mpr ⟨always, ?_⟩, ?_, ?_⟩, ?_⟩
  · exact Nat.le_trans (Nat.le_of_eq count) (Nat.zero_le 1)
  · rw [empty]
    exact Nat.le_refl 1
  · rw [empty]
    exact fun pending member => List.mem_singleton.mp member
  · rw [empty, count]
    rfl

/-- **A completion keeps the invariant.** -/
theorem step (inv : LifeInv past s) (step : s.Step completion s') :
    LifeInv (past ++ [(s, completion)]) s' := by
  rcases inv with ⟨all, one, count⟩ | two
  case inr => exact broken two
  cases step with
  | handleRead bytes status posted received fits handled =>
      rename_i replies status'
      obtain ⟨more, single⟩ := length_replies handled
      by_cases recognised : Recognised (receive s.data bytes)
      · have two := more recognised
        refine .inr ⟨fun every => ?_, fun always => ?_⟩
        · exact (everyStep_snoc.mp every).2 _ rfl recognised
        · have now : s.reads - 1 + (s.writes + replies.length) ≤ 1 := (always_snoc.mp always).2
          omega
      · have length := single recognised
        refine kept all one (fun data same => ?_) rfl ?_
        · rwa [← Completion.handleRead.inj same]
        · show s.reads - 1 + (s.writes + replies.length) + s.deletes.length = 1
          rw [outstanding] at count
          omega
  | handleReadError status posted handled =>
      refine deleted all one (fun data same => by cases same) rfl ?_
      show s.reads - 1 + s.writes + s.deletes.length = 0
      rw [outstanding] at count
      omega
  | handleWrite posted =>
      refine kept all one (fun data same => by cases same) rfl ?_
      show s.reads + 1 + (s.writes - 1) + s.deletes.length = 1
      rw [outstanding] at count
      omega
  | handleWriteError posted =>
      refine deleted all one (fun data same => by cases same) rfl ?_
      show s.reads + (s.writes - 1) + s.deletes.length = 0
      rw [outstanding] at count
      omega

end LifeInv

/-- **A session has one operation at a time** and deletes itself at most once, with
nothing pending, exactly as long as no completed read finds a request. -/
theorem oneAtATime_iff {past : List (SessionObject × Completion)} {s : SessionObject}
    (trace : Trace SessionObject.Step SessionObject.Started past s) :
    OneAtATime past s ↔ EveryStep Unrecognised past := by
  have inv : LifeInv past s := trace.invariant LifeInv (fun _ => LifeInv.started)
    fun _ _ _ _ inv next => inv.step next
  rcases inv with ⟨all, one, _⟩ | ⟨broken, two⟩
  · exact iff_of_true one all
  · exact iff_of_false (fun one => two one.1) broken

/-- A client that closes its connection at once: the read fails, and the session
deletes itself. -/
theorem oneAtATime_iff_closed :
    OneAtATime [((make (Vector.replicate max_length 0)).start, .handleReadError)]
      (make (Vector.replicate max_length 0)).start.readOver.delete :=
  (oneAtATime_iff (.snoc (.start ⟨Vector.replicate max_length 0, rfl⟩)
    (.handleReadError 0 Nat.one_pos rfl))).mpr
    (everyStep_snoc.mpr ⟨everyStep_nil _, fun data same => by cases same⟩)

/-- **A session deletes itself twice.** Its first read is the request `get`, for
which it writes `continue` and `none`; then the client closes the connection, and
both writes fail. -/
theorem session_deleted_twice :
    ∃ past s, Trace SessionObject.Step SessionObject.Started past s ∧ s.deletes = [1, 0] ∧
      ¬ OneAtATime past s := by
  refine ⟨_, _, .snoc (.snoc (.snoc (.start ⟨Vector.replicate max_length 0, rfl⟩)
    (.handleRead Request.get.bytes 0 Nat.one_pos (by decide) (by decide)
      (handleRead_receive _ .get 0))) (.handleWriteError (by decide)))
    (.handleWriteError (by decide)), rfl, fun one => ?_⟩
  exact absurd one.2.1 (by decide)

end ParallelLabs.Socket
