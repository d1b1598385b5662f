import ParallelLabs.Socket.Session
import Mathlib.Tactic.Common

/-!
# Reads of fewer than three bytes

`handle_read` is told how many bytes a read has transferred, and does not look at
that number. `check_request` compares the first three bytes of the buffer
(`checkRequest_iff`). A read of three bytes or more has overwritten them. After a
shorter one, the rest of them is left over from an earlier read, or was never
written, and may complete the bytes received to a request (`Completes`).

So a read is judged by its bytes alone exactly when the leftovers of both sessions
complete it to `get` or those of neither do, and no leftovers complete it to `set`
(`judged_iff`).
-/

set_option autoImplicit false

namespace ParallelLabs.Socket

/-! ## What is compared -/

theorem checkRequest_iff (data : Data) (request : Request) :
    checkRequest data request.bytes = true ↔ data.toList.take 3 = request.bytes := by
  have length : (data.toList.take 3).length = 3 := by
    rw [List.length_take, Vector.length_toList, max_length]
    rfl
  rw [checkRequest, Request.length_bytes, List.all_eq_true]
  simp only [List.mem_range, beq_iff_eq]
  constructor
  · intro compared
    refine List.ext_getElem (length.trans request.length_bytes.symm) fun i inside inside' => ?_
    have bound : i < 3 := length ▸ inside
    have same := compared i bound
    rw [getElem!_pos data i (by rw [max_length]; omega),
      getElem!_pos request.bytes i inside'] at same
    rw [List.getElem_take, Vector.getElem_toList, same]
  · intro same i bound
    have entry := List.getElem_of_eq same (length.symm ▸ bound)
    rw [List.getElem_take, Vector.getElem_toList] at entry
    rw [getElem!_pos data i (by rw [max_length]; omega),
      getElem!_pos request.bytes i (by rwa [request.length_bytes]), entry]

theorem getElem_receive (data : Data) (bytes : List Byte) {i : Nat} (bound : i < max_length) :
    (receive data bytes)[i] = if inside : i < bytes.length then bytes[i] else data[i] := by
  rw [receive, Vector.getElem_ofFn]
  rfl

/-- The bytes that are compared after a read: those received, and the leftovers if
they are fewer than three. -/
theorem take_receive (data : Data) (bytes : List Byte) :
    (receive data bytes).toList.take 3 =
      bytes.take 3 ++ (data.toList.take 3).drop bytes.length := by
  rw [List.drop_take, ← List.take_append]
  refine List.ext_getElem ?_ fun i inside inside' => ?_
  · rw [List.length_take, List.length_take, List.length_append, List.length_drop,
      Vector.length_toList, Vector.length_toList, max_length]
    omega
  · rw [List.getElem_take, List.getElem_take, Vector.getElem_toList, getElem_receive]
    split
    · next received => rw [List.getElem_append_left received]
    · next left =>
        rw [List.getElem_append_right (Nat.le_of_not_lt left), List.getElem_drop,
          Vector.getElem_toList]
        congr 1
        omega

/-- The bytes of a read are too few, and the leftovers in the buffer complete them to
a request. -/
def Completes (data : Data) (bytes : List Byte) (request : Request) : Prop :=
  bytes.length < 3 ∧
    bytes ++ (data.toList.take 3).drop bytes.length = request.bytes

theorem checkRequest_short {bytes : List Byte} (short : bytes.length < 3) (data : Data)
    (request : Request) :
    checkRequest (receive data bytes) request.bytes = true ↔ Completes data bytes request := by
  rw [checkRequest_iff, take_receive, List.take_of_length_le (Nat.le_of_lt short)]
  exact (and_iff_right short).symm

theorem checkRequest_whole {bytes : List Byte} (whole : 3 ≤ bytes.length) (data : Data)
    (request : Request) :
    checkRequest (receive data bytes) request.bytes = true ↔ request.bytes <+: bytes := by
  rw [checkRequest_iff, take_receive, List.drop_take, Nat.sub_eq_zero_of_le whole, List.take_zero,
    List.append_nil, List.prefix_iff_eq_take, request.length_bytes]
  exact eq_comm

/-! ## What is answered -/

/-- The replies and the new `*value`, by the requests recognised. -/
def answer (get set : Bool) (value : Int) : List Reply × Int :=
  ((if get then [if value ≠ 0 then Reply.finish else Reply.cont] else []) ++
    (if set then [Reply.ok] else []) ++ [Reply.none], if set then 1 else value)

theorem handleRead_eq (data : Data) (value : Int) :
    handleRead false data value = some (answer (checkRequest data Request.get.bytes)
      (checkRequest data Request.set.bytes) value) := by
  rw [handleRead, answer]
  by_cases stopped : value = 0 <;> cases checkRequest data Request.get.bytes <;>
    cases checkRequest data Request.set.bytes <;> simp [stopped]

/-- The answer tells the requests recognised. -/
theorem answer_inj {get get' set set' : Bool} {value : Int}
    (same : answer get set value = answer get' set' value) : get = get' ∧ set = set' := by
  have replies := congrArg Prod.fst same
  rw [answer, answer] at replies
  by_cases stopped : value = 0 <;> cases get <;> cases get' <;> cases set <;> cases set' <;>
    simp_all

/-- `*value` is set when `set` is recognised. -/
theorem sets_iff (get set : Bool) (value : Int) :
    Reply.ok ∈ (answer get set value).1 ∨ (answer get set value).2 ≠ value ↔ set = true := by
  rw [answer]
  by_cases stopped : value = 0 <;> cases get <;> cases set <;> simp [stopped]

/-- **A read is judged by its bytes** in two sessions: they give the same replies and
update `*value` in the same way, and each sets it only when the bytes begin with `set`. -/
structure Judged (value : Int) (bytes : List Byte) (first second : Data) : Prop where
  same : handleRead false (receive first bytes) value =
    handleRead false (receive second bytes) value
  sets : ∀ data ∈ [first, second], ∀ outcome : List Reply × Int,
    handleRead false (receive data bytes) value = some outcome →
      Reply.ok ∈ outcome.1 ∨ outcome.2 ≠ value → Request.set.bytes <+: bytes

theorem judged_iff_checkRequest (value : Int) (bytes : List Byte) (first second : Data) :
    Judged value bytes first second ↔
      (∀ request : Request, checkRequest (receive first bytes) request.bytes =
        checkRequest (receive second bytes) request.bytes) ∧
      ∀ data ∈ [first, second], checkRequest (receive data bytes) Request.set.bytes = true →
        Request.set.bytes <+: bytes := by
  constructor
  · intro judged
    refine ⟨fun request => ?_, fun data member recognised => ?_⟩
    · have same := judged.same
      rw [handleRead_eq, handleRead_eq, Option.some.injEq] at same
      obtain ⟨get, set⟩ := answer_inj same
      cases request with
      | get => exact get
      | set => exact set
    · exact judged.sets data member _ (handleRead_eq _ value) ((sets_iff _ _ value).mpr recognised)
  · rintro ⟨same, sets⟩
    refine ⟨?_, fun data member outcome answered changed => ?_⟩
    · rw [handleRead_eq, handleRead_eq, same, same]
    · rw [handleRead_eq, Option.some.injEq] at answered
      rw [← answered] at changed
      exact sets data member ((sets_iff _ _ value).mp changed)

/-- **When a read is judged by its bytes**: unless it is short and the leftovers of
one session only complete it to `get`, or those of a session complete it to `set`. -/
theorem judged_iff (value : Int) (bytes : List Byte) (first second : Data) :
    Judged value bytes first second ↔
      (Completes first bytes .get ↔ Completes second bytes .get) ∧
        ¬ Completes first bytes .set ∧ ¬ Completes second bytes .set := by
  rw [judged_iff_checkRequest]
  rcases Nat.lt_or_ge bytes.length 3 with short | whole
  · have few : ¬ Request.set.bytes <+: bytes := fun begins =>
      absurd begins.length_le (by rw [Request.length_bytes]; omega)
    simp only [Bool.eq_iff_iff, checkRequest_short short, List.forall_mem_cons, few]
    constructor
    · rintro ⟨same, first', second', _⟩
      exact ⟨same .get, first', second'⟩
    · rintro ⟨get, first', second'⟩
      refine ⟨fun request => ?_, first', second', fun data member => by cases member⟩
      cases request with
      | get => exact get
      | set => exact ⟨fun done => absurd done first', fun done => absurd done second'⟩
  · have long : ∀ (data : Data) (request : Request), ¬ Completes data bytes request :=
      fun data request done => absurd done.1 (Nat.not_lt.mpr whole)
    simp only [Bool.eq_iff_iff, checkRequest_whole whole, long, not_false_iff, and_self, iff_self,
      implies_true, true_and, iff_true]
    exact fun _ _ begins => begins

/-- **One byte is taken for a request.** Two sessions receive the byte `s`. One of them
has read `set` before: the leftovers complete the byte, and `*value` is set. -/
theorem short_read_sets :
    let data : Data := Vector.replicate max_length 0
    let bytes : List Byte := text ['s']
    handleRead false (receive (receive data Request.set.bytes) bytes) 0 =
      some ([Reply.ok, Reply.none], 1) ∧
    handleRead false (receive data bytes) 0 = some ([Reply.none], 0) ∧
    ¬ Judged 0 bytes (receive data Request.set.bytes) data := by
  intro data bytes
  have read : (receive data Request.set.bytes).toList.take 3 = Request.set.bytes :=
    (checkRequest_iff _ .set).mp (checkRequest_receive data .set .set)
  have zeros : data.toList.take 3 = [0, 0, 0] := by
    rw [Vector.toList_replicate, List.take_replicate]
    rfl
  have recognised : ∀ request : Request,
      checkRequest (receive (receive data Request.set.bytes) bytes) request.bytes =
        decide (request = .set) ∧ checkRequest (receive data bytes) request.bytes = false := by
    intro request
    rw [Bool.eq_iff_iff, ← Bool.not_eq_true, checkRequest_short (by decide),
      checkRequest_short (by decide), Completes, Completes, read, zeros]
    cases request <;> decide
  have first : handleRead false (receive (receive data Request.set.bytes) bytes) 0 =
      some ([Reply.ok, Reply.none], 1) := by
    rw [handleRead_eq, (recognised .get).1, (recognised .set).1]
    rfl
  have second : handleRead false (receive data bytes) 0 = some ([Reply.none], 0) := by
    rw [handleRead_eq, (recognised .get).2, (recognised .set).2]
    rfl
  refine ⟨first, second, fun judged => ?_⟩
  have same := first.symm.trans (judged.same.trans second)
  revert same
  decide

end ParallelLabs.Socket
