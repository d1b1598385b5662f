import Mathlib.Data.List.GetD
import Mathlib.Data.List.TakeWhile

/-!
# `SharedMemorySystemInterrupter.cpp`: the shared mapping

The stop flag is a C string in an anonymous mapping. `handleSuccess` copies as
many bytes of the constant `success` as a pointer has, which is the string without
its terminator; the byte after it is zero because the mapping was created zeroed
and nothing else is written. `checkNextSyncCall` compares the string that the
mapping holds with the constant.

These are the methods run alone. A check after a success is false and a check of
a new mapping is true (`checkNextSyncCall_handleSuccess`,
`checkNextSyncCall_createSharedMemory`).
-/

set_option autoImplicit false

namespace ParallelLabs.SharedMemory

/-- `char`. -/
abbrev Byte := BitVec 8

/-- The bytes of the mapping, by offset. -/
abbrev Memory := Nat → Byte

/-- The constant `success`. -/
def success : List Byte :=
  ['f', 'i', 'n', 'i', 's', 'h', 'e', 'd'].map fun character => BitVec.ofNat 8 character.toNat

/-- The size of a mapping: the kernel rounds `mem_size` up to a page. -/
def pageSize : Nat := 4096

/-- `sizeof(c_str)`, the size of a pointer. -/
def pointerSize : Nat := 8

/-- `create_shared_memory`. An anonymous mapping is zeroed. -/
def createSharedMemory : Memory := fun _ => 0

/-- `read_msg`: the string up to the first zero byte. -/
def readMsg (memory : Memory) : List Byte :=
  ((List.range pageSize).map memory).takeWhile (· != 0)

/-- `write_msg`. -/
def writeMsg (memory : Memory) (str : List Byte) : Memory :=
  fun i => if i < pointerSize then (str ++ [0]).getD i 0 else memory i

/-- `handle_success`. -/
def handleSuccess (memory : Memory) : Memory := writeMsg memory success

/-- `check_next_sync_call`. -/
def checkNextSyncCall (memory : Memory) : Bool := readMsg memory != success

/-- The byte that `handle_success` writes at an offset. -/
def successByte (i : Nat) : Byte := success.getD i 0

theorem successByte_ne_zero {i : Nat} (inside : i < pointerSize) : successByte i ≠ 0 := by
  have all : ∀ i < 8, successByte i ≠ 0 := by decide
  exact all i inside

theorem handleSuccess_apply (memory : Memory) (i : Nat) :
    handleSuccess memory i = if i < pointerSize then successByte i else memory i := by
  rw [handleSuccess, writeMsg]
  split
  case isTrue inside => rw [successByte, List.getD_append _ _ _ _ inside]
  case isFalse => rfl

/-- The string in the mapping, when the first zero byte is at a known offset. -/
theorem readMsg_of_zero_at {memory : Memory} {length : Nat} (inside : length < pageSize)
    (before : ∀ i < length, memory i ≠ 0) (zero : memory length = 0) :
    readMsg memory = (List.range length).map memory := by
  obtain ⟨rest, split⟩ := Nat.exists_eq_add_of_lt inside
  have pages : List.range pageSize =
      List.range length ++ (List.range (rest + 1)).map (length + ·) := by
    rw [split, Nat.add_assoc, List.range_add]
  rw [readMsg, pages, List.map_append, List.takeWhile_append_of_pos]
  · rw [List.range_succ_eq_map, List.map_cons, List.map_cons, Nat.add_zero, zero,
      List.takeWhile_cons_of_neg (by decide), List.append_nil]
  · intro byte member
    obtain ⟨i, small, rfl⟩ := List.mem_map.mp member
    exact bne_iff_ne.mpr (before i (List.mem_range.mp small))

theorem map_successByte : (List.range pointerSize).map successByte = success := by decide

/-- **A new mapping says go on.** -/
theorem checkNextSyncCall_createSharedMemory : checkNextSyncCall createSharedMemory = true := by
  have empty : readMsg createSharedMemory = (List.range 0).map createSharedMemory :=
    readMsg_of_zero_at (by decide) (fun i small => absurd small (Nat.not_lt_zero i)) rfl
  rw [checkNextSyncCall, empty]
  decide

/-- **After a success the mapping says stop.** -/
theorem checkNextSyncCall_handleSuccess {memory : Memory} (zero : memory pointerSize = 0) :
    checkNextSyncCall (handleSuccess memory) = false := by
  have message : readMsg (handleSuccess memory) =
      (List.range pointerSize).map (handleSuccess memory) := by
    refine readMsg_of_zero_at (by decide) ?_ ?_
    · intro i inside
      rw [handleSuccess_apply, if_pos inside]
      exact successByte_ne_zero inside
    · rw [handleSuccess_apply, if_neg (Nat.lt_irrefl _), zero]
  have written : (List.range pointerSize).map (handleSuccess memory) = success := by
    rw [← map_successByte]
    refine List.map_congr_left fun i member => ?_
    rw [handleSuccess_apply, if_pos (List.mem_range.mp member)]
  rw [checkNextSyncCall, message, written, bne_self_eq_false]

end ParallelLabs.SharedMemory
