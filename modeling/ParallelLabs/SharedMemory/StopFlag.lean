import ParallelLabs.Library.Runs
import ParallelLabs.SharedMemory.Mapping
import Mathlib.Data.Finset.Card
import Mathlib.Data.Finset.Filter
import Mathlib.Data.Finset.Range
import Mathlib.Logic.Function.Basic

/-!
# The stop flag byte by byte

Workers call `handle_success` and `check_next_sync_call` at the same time. A
success writes the bytes of the message one at a time, in any order. A check
reads byte after byte up to the first zero byte, then copies that many bytes,
again one at a time and in any order, and compares the copy. The bytes of
different calls interleave in any way.

A byte of the mapping is either still zero or has its value in the message for
good (`WorldInv.memory`). So every byte that a scan has passed is one of the
message, the copy is a front part of the message, and it is the message itself
only if all its bytes were written. Once a success has completed no scan ends
early (`checkNextSyncCall_stop`).

A completed success leaves the mapping as `handleSuccess` does, whatever else overlaps it,
and a check that no write overlaps answers as `checkNextSyncCall` does (`methods_alone`).
-/

set_option autoImplicit false

namespace ParallelLabs.SharedMemory

open Library

/-- What a worker is doing. -/
inductive Activity where
  | idle
  /-- In `memcpy` of `write_msg`, with the offsets that are left. -/
  | writing (remaining : Finset Nat)
  /-- In the scan for the end of the string, about to read the byte at an offset. -/
  | scanning (offset : Nat)
  /-- Copying the bytes before the end that the scan has found. -/
  | copying (length : Nat) (copied : Nat → Option Byte)

namespace Activity

/-- The copy of the string. -/
def message (length : Nat) (copied : Nat → Option Byte) : List Byte :=
  (List.range length).map fun i => (copied i).getD 0

/-- The worker is inside `check_next_sync_call`. -/
def Checking : Activity → Prop
  | .idle | .writing _ => False
  | .scanning _ | .copying _ _ => True

end Activity

structure World (Worker : Type) where
  memory : Memory
  workers : Worker → Activity

inductive Event (Worker : Type) where
  | handleSuccess (worker : Worker)
  | write (worker : Worker) (offset : Nat)
  | handleSuccessReturns (worker : Worker)
  | checkNextSyncCall (worker : Worker)
  | scan (worker : Worker) (offset : Nat)
  | copy (worker : Worker) (offset : Nat)
  | checkReturns (worker : Worker) (answer : Bool)
  deriving DecidableEq

/-- The worker that takes the step. -/
def Event.worker {Worker : Type} : Event Worker → Worker
  | .handleSuccess worker | .write worker _ | .handleSuccessReturns worker
  | .checkNextSyncCall worker | .scan worker _ | .copy worker _ | .checkReturns worker _ => worker

section Steps

variable {Worker : Type} [DecidableEq Worker]

def World.set (s : World Worker) (worker : Worker) (activity : Activity) : World Worker :=
  { s with workers := Function.update s.workers worker activity }

@[simp] theorem workers_set_self (s : World Worker) (worker : Worker) (activity : Activity) :
    (s.set worker activity).workers worker = activity := Function.update_self _ _ _

theorem workers_set_of_ne (s : World Worker) {worker other : Worker} (different : other ≠ worker)
    (activity : Activity) : (s.set worker activity).workers other = s.workers other :=
  Function.update_of_ne different _ _

inductive World.Step (s : World Worker) : Event Worker → World Worker → Prop where
  | handleSuccess (worker : Worker) (idle : s.workers worker = .idle) :
      World.Step s (.handleSuccess worker) (s.set worker (.writing (Finset.range pointerSize)))
  /-- `memcpy` writes one of the bytes that are left. -/
  | write (worker : Worker) {remaining : Finset Nat} (offset : Nat)
      (writing : s.workers worker = .writing remaining) (left : offset ∈ remaining) :
      World.Step s (.write worker offset)
        ⟨Function.update s.memory offset (successByte offset),
          (s.set worker (.writing (remaining.erase offset))).workers⟩
  | handleSuccessReturns (worker : Worker) (written : s.workers worker = .writing ∅) :
      World.Step s (.handleSuccessReturns worker) (s.set worker .idle)
  | checkNextSyncCall (worker : Worker) (idle : s.workers worker = .idle) :
      World.Step s (.checkNextSyncCall worker) (s.set worker (.scanning 0))
  | scan (worker : Worker) (offset : Nat) (scanning : s.workers worker = .scanning offset)
      (more : s.memory offset ≠ 0) :
      World.Step s (.scan worker offset) (s.set worker (.scanning (offset + 1)))
  /-- The scan finds the end of the string. -/
  | scanEnd (worker : Worker) (offset : Nat) (scanning : s.workers worker = .scanning offset)
      (zero : s.memory offset = 0) :
      World.Step s (.scan worker offset) (s.set worker (.copying offset fun _ => none))
  | copy (worker : Worker) {length : Nat} {copied : Nat → Option Byte} (offset : Nat)
      (copying : s.workers worker = .copying length copied) (inside : offset < length)
      (missing : copied offset = none) :
      World.Step s (.copy worker offset)
        (s.set worker (.copying length (Function.update copied offset (some (s.memory offset)))))
  | checkReturns (worker : Worker) {length : Nat} {copied : Nat → Option Byte}
      (copying : s.workers worker = .copying length copied)
      (complete : ∀ offset < length, copied offset ≠ none) :
      World.Step s
        (.checkReturns worker (Activity.message length copied != success)) (s.set worker .idle)

end Steps

variable {Worker : Type}

/-- The mapping is new and nobody uses it. -/
def Started (s : World Worker) : Prop :=
  s.memory = createSharedMemory ∧ ∀ worker, s.workers worker = .idle

/-- Some `handle_success` has written the byte at an offset. -/
def Written (events : List (Event Worker)) (offset : Nat) : Prop :=
  ∃ worker, .write worker offset ∈ events

/-- Some `handle_success` has completed. -/
def Completed (events : List (Event Worker)) : Prop :=
  ∃ worker, .handleSuccessReturns worker ∈ events

/-- The latest check of a worker was called after some `handle_success` had completed. -/
def CheckedLate (events : List (Event Worker)) (worker : Worker) : Prop :=
  ∃ past later, events = past ++ .checkNextSyncCall worker :: later ∧
    .checkNextSyncCall worker ∉ later ∧ Completed past

/-! ## Histories -/

theorem Written.append {events : List (Event Worker)} {offset : Nat}
    (written : Written events offset)
    (later : List (Event Worker)) : Written (events ++ later) offset :=
  written.imp fun _ member => List.mem_append_left later member

theorem Completed.append {events : List (Event Worker)} (completed : Completed events)
    (later : List (Event Worker)) : Completed (events ++ later) :=
  completed.imp fun _ member => List.mem_append_left later member

theorem written_snoc {events : List (Event Worker)} {event : Event Worker} {offset : Nat} :
    Written (events ++ [event]) offset ↔
      Written events offset ∨ ∃ worker, event = .write worker offset := by
  simp only [Written, List.mem_append, List.mem_singleton, exists_or, eq_comm]

theorem completed_snoc {events : List (Event Worker)} {event : Event Worker} :
    Completed (events ++ [event]) ↔
      Completed events ∨ ∃ worker, event = .handleSuccessReturns worker := by
  simp only [Completed, List.mem_append, List.mem_singleton, exists_or, eq_comm]

theorem CheckedLate.completed {events : List (Event Worker)} {worker : Worker}
    (late : CheckedLate events worker) : Completed events := by
  obtain ⟨past, later, rfl, _, completed⟩ := late
  exact completed.append _

/-- An event other than a call of a check by the worker does not change which
check is its latest. -/
theorem CheckedLate.before {events : List (Event Worker)} {event : Event Worker} {worker : Worker}
    (late : CheckedLate (events ++ [event]) worker) (other : event ≠ .checkNextSyncCall worker) :
    CheckedLate events worker := by
  obtain ⟨past, later, split, last, completed⟩ := late
  induction later using List.reverseRecOn with
  | nil =>
      obtain ⟨_, same⟩ := List.append_inj' split rfl
      cases same
      exact absurd rfl other
  | append_singleton later final _ =>
      rw [← List.cons_append, ← List.append_assoc] at split
      obtain ⟨before, _⟩ := List.append_inj' split rfl
      exact ⟨past, later, before, fun member => last (List.mem_append_left _ member), completed⟩

/-! ## The invariant -/

/-- What holds of a worker, given the offsets written and whether its check was
called late. -/
def Activity.Inv (written : Nat → Prop) (late : Prop) : Activity → Prop
  | .idle => True
  | .writing remaining =>
      (∀ i ∈ remaining, i < pointerSize) ∧ ∀ i < pointerSize, i ∉ remaining → written i
  | .scanning offset => offset ≤ pointerSize ∧ ∀ i < offset, written i
  | .copying length copied =>
      length ≤ pointerSize ∧ (∀ i < length, written i) ∧ (late → length = pointerSize) ∧
        ∀ i byte, copied i = some byte → byte = successByte i

/-- **The invariant of the mapping and its workers.** -/
structure WorldInv (events : List (Event Worker)) (s : World Worker) : Prop where
  memory : ∀ i, Written events i ∧ i < pointerSize ∧ s.memory i = successByte i ∨
    ¬ Written events i ∧ s.memory i = 0
  completed : Completed events → ∀ i < pointerSize, Written events i
  workers : ∀ worker, (s.workers worker).Inv (Written events) (CheckedLate events worker)

theorem Activity.Inv.mono {written written' : Nat → Prop} {late late' : Prop} {activity : Activity}
    (inv : activity.Inv written late) (more : ∀ i, written i → written' i) (same : late' → late) :
    activity.Inv written' late' := by
  cases activity with
  | idle => exact trivial
  | writing remaining =>
      obtain ⟨inside, rest⟩ := inv
      exact ⟨inside, fun i small gone => more i (rest i small gone)⟩
  | scanning offset =>
      obtain ⟨bound, before⟩ := inv
      exact ⟨bound, fun i small => more i (before i small)⟩
  | copying length copied =>
      obtain ⟨bound, before, full, bytes⟩ := inv
      exact ⟨bound, fun i small => more i (before i small), fun late => full (same late), bytes⟩

namespace WorldInv

variable {events : List (Event Worker)} {s : World Worker}

theorem started {s : World Worker} (start : Started s) : WorldInv [] s := by
  obtain ⟨memory, idle⟩ := start
  refine ⟨fun i => .inr ⟨?_, by rw [memory]; rfl⟩, ?_, fun worker => ?_⟩
  · rintro ⟨worker, member⟩
    cases member
  · rintro ⟨worker, member⟩
    cases member
  · rw [idle worker]
    exact trivial

/-- A byte that is not zero has been written, and is the byte of the message. -/
theorem written_of_ne_zero (inv : WorldInv events s) {i : Nat} (byte : s.memory i ≠ 0) :
    Written events i ∧ i < pointerSize := by
  rcases inv.memory i with ⟨written, inside, _⟩ | ⟨_, zero⟩
  · exact ⟨written, inside⟩
  · exact absurd zero byte

theorem memory_of_written (inv : WorldInv events s) {i : Nat} (written : Written events i) :
    s.memory i = successByte i ∧ i < pointerSize := by
  rcases inv.memory i with ⟨_, inside, same⟩ | ⟨unwritten, _⟩
  · exact ⟨same, inside⟩
  · exact absurd written unwritten

/-- A scan that ends after a completed success has passed the whole message. -/
theorem full_of_zero (inv : WorldInv events s) (completed : Completed events) {offset : Nat}
    (bound : offset ≤ pointerSize) (zero : s.memory offset = 0) : offset = pointerSize := by
  rcases Nat.lt_or_eq_of_le bound with inside | full
  · obtain ⟨same, _⟩ := inv.memory_of_written (inv.completed completed offset inside)
    exact absurd (same.symm.trans zero) (successByte_ne_zero inside)
  · exact full

section Preservation

variable [DecidableEq Worker] {worker : Worker} {activity : Activity} {event : Event Worker}

/-- A step that leaves the memory alone. -/
theorem set (inv : WorldInv events s) (noWrite : ∀ w i, event ≠ .write w i)
    (completes : ∀ w, event = .handleSuccessReturns w → ∀ i < pointerSize, Written events i)
    (others : ∀ w, w ≠ worker → event ≠ .checkNextSyncCall w)
    (own : activity.Inv (Written events) (CheckedLate (events ++ [event]) worker)) :
    WorldInv (events ++ [event]) (s.set worker activity) := by
  have written : ∀ i, Written (events ++ [event]) i ↔ Written events i := by
    intro i
    rw [written_snoc]
    exact or_iff_left fun ⟨w, last⟩ => noWrite w i last
  refine ⟨fun i => ?_, ?_, ?_⟩
  · rw [written i]
    exact inv.memory i
  · intro completed i inside
    rw [written i]
    rcases completed_snoc.mp completed with before | ⟨w, last⟩
    · exact inv.completed before i inside
    · exact completes w last i inside
  · refine Function.forall_update_iff s.workers (p := fun w activity =>
      activity.Inv (Written (events ++ [event])) (CheckedLate (events ++ [event]) w)) |>.mpr ?_
    refine ⟨own.mono (fun i => (written i).mpr) id, fun w other => ?_⟩
    exact (inv.workers w).mono (fun i => (written i).mpr) fun late => late.before (others w other)

/-- A step that writes a byte of the message. -/
theorem write (inv : WorldInv events s) {remaining : Finset Nat} {offset : Nat}
    (writing : s.workers worker = .writing remaining) (left : offset ∈ remaining) :
    WorldInv (events ++ [.write worker offset])
      ⟨Function.update s.memory offset (successByte offset),
        (s.set worker (.writing (remaining.erase offset))).workers⟩ := by
  have before := inv.workers worker
  rw [writing] at before
  obtain ⟨inside, gone⟩ := before
  have now : Written (events ++ [.write worker offset]) offset :=
    written_snoc.mpr (.inr ⟨worker, rfl⟩)
  have elsewhere : ∀ i, i ≠ offset →
      (Written (events ++ [.write worker offset]) i ↔ Written events i) := by
    intro i other
    rw [written_snoc]
    refine or_iff_left fun ⟨w, last⟩ => ?_
    cases last
    exact other rfl
  refine ⟨fun i => ?_, ?_, ?_⟩
  · by_cases same : i = offset
    · subst same
      exact .inl ⟨now, inside i left, Function.update_self i _ _⟩
    · rw [elsewhere i same]
      show _ ∧ _ ∧ Function.update s.memory offset _ i = _ ∨
        _ ∧ Function.update s.memory offset _ i = _
      rw [Function.update_of_ne same]
      exact inv.memory i
  · intro completed i small
    rcases completed_snoc.mp completed with earlier | ⟨w, last⟩
    · exact (inv.completed earlier i small).append _
    · cases last
  · refine Function.forall_update_iff s.workers (p := fun w activity => activity.Inv
      (Written (events ++ [.write worker offset]))
      (CheckedLate (events ++ [.write worker offset]) w)) |>.mpr ?_
    refine ⟨⟨fun i member => inside i (Finset.mem_of_mem_erase member), ?_⟩, fun w _ => ?_⟩
    · intro i small erased
      by_cases same : i = offset
      · exact same ▸ now
      · exact (gone i small fun member => erased (Finset.mem_erase.mpr ⟨same, member⟩)).append _
    · exact (inv.workers w).mono (fun i earlier => earlier.append _) fun late =>
        late.before fun same => by cases same

/-- **A step keeps the invariant.** -/
theorem step {s' : World Worker} (inv : WorldInv events s) (step : s.Step event s') :
    WorldInv (events ++ [event]) s' := by
  cases step with
  | handleSuccess w idle =>
      refine inv.set (fun _ _ same => by cases same) (fun _ same => by cases same)
        (fun _ _ same => by cases same) ⟨fun i => Finset.mem_range.mp, fun i inside gone => ?_⟩
      exact absurd (Finset.mem_range.mpr inside) gone
  | write w offset writing left => exact inv.write writing left
  | handleSuccessReturns w written =>
      have before := inv.workers w
      rw [written] at before
      refine inv.set (fun _ _ same => by cases same) (fun _ _ i inside => ?_)
        (fun _ _ same => by cases same) trivial
      exact before.2 i inside (Finset.notMem_empty i)
  | checkNextSyncCall w idle =>
      refine inv.set (fun _ _ same => by cases same) (fun _ same => by cases same) ?_
        ⟨Nat.zero_le _, fun i small => absurd small (Nat.not_lt_zero i)⟩
      intro other different same
      cases same
      exact different rfl
  | scan w offset scanning more =>
      have before := inv.workers w
      rw [scanning] at before
      obtain ⟨_, passed⟩ := before
      obtain ⟨here, inside⟩ := inv.written_of_ne_zero more
      refine inv.set (fun _ _ same => by cases same) (fun _ same => by cases same)
        (fun _ _ same => by cases same) ⟨inside, fun i small => ?_⟩
      rcases Nat.lt_succ_iff_lt_or_eq.mp small with earlier | rfl
      · exact passed i earlier
      · exact here
  | scanEnd w offset scanning zero =>
      have before := inv.workers w
      rw [scanning] at before
      obtain ⟨bound, passed⟩ := before
      refine inv.set (fun _ _ same => by cases same) (fun _ same => by cases same)
        (fun _ _ same => by cases same) ⟨bound, passed, fun late => ?_, fun i byte none => by
          cases none⟩
      have completed := (late.before fun same => by cases same).completed
      exact inv.full_of_zero completed bound zero
  | copy w offset copying inside missing =>
      have before := inv.workers w
      rw [copying] at before
      obtain ⟨bound, passed, full, bytes⟩ := before
      refine inv.set (fun _ _ same => by cases same) (fun _ same => by cases same)
        (fun _ _ same => by cases same)
        ⟨bound, passed, fun late => full (late.before fun same => by cases same), ?_⟩
      intro i byte read
      by_cases here : i = offset
      · subst here
        rw [Function.update_self, Option.some.injEq] at read
        rw [← read]
        exact (inv.memory_of_written (passed i inside)).1
      · rw [Function.update_of_ne here] at read
        exact bytes i byte read
  | checkReturns w copying complete =>
      exact inv.set (fun _ _ same => by cases same) (fun _ same => by cases same)
        (fun _ _ same => by cases same) trivial

theorem of_run (run : Run World.Step Started events s) : WorldInv events s :=
  run.invariant WorldInv (fun _ start => started start) fun _ _ _ _ inv next => inv.step next

end Preservation

end WorldInv

/-! ## The answer of a check -/

/-- A complete copy is a front part of the message, and differs from the message
unless it has all its bytes. -/
theorem message_eq_success_iff {length : Nat} {copied : Nat → Option Byte}
    (complete : ∀ offset < length, copied offset ≠ none)
    (bytes : ∀ i byte, copied i = some byte → byte = successByte i) :
    Activity.message length copied = success ↔ length = pointerSize := by
  have copy : Activity.message length copied = (List.range length).map successByte := by
    refine List.map_congr_left fun i member => ?_
    obtain ⟨byte, read⟩ := Option.ne_none_iff_exists'.mp (complete i (List.mem_range.mp member))
    rw [read, Option.getD_some, bytes i byte read]
  rw [copy, ← map_successByte]
  constructor
  · intro same
    have lengths := congrArg List.length same
    rwa [List.length_map, List.length_map, List.length_range, List.length_range] at lengths
  · intro same
    rw [same]

/-! ## The methods run alone -/

/-- **After a success the mapping is as the method alone leaves it**, whatever else
happened: all successes write the same bytes. -/
theorem memory_of_completed [DecidableEq Worker] {events : List (Event Worker)} {s : World Worker}
    (run : Run World.Step Started events s) (completed : Completed events) :
    s.memory = handleSuccess createSharedMemory := by
  have inv := WorldInv.of_run run
  funext i
  rw [handleSuccess_apply]
  rcases inv.memory i with ⟨_, inside, same⟩ | ⟨unwritten, zero⟩
  · rw [if_pos inside, same]
  · have outside : ¬ i < pointerSize := fun inside =>
      unwritten (inv.completed completed i inside)
    rw [if_neg outside, zero]
    rfl

/-- A step that leaves the memory alone. -/
def NoWrite (_ : World Worker) (event : Event Worker) : Prop :=
  ∀ worker offset, event ≠ .write worker offset

/-- What a check has read of a memory that does not change. -/
def Activity.Read (memory : Memory) : Activity → Prop
  | .idle | .writing _ => True
  | .scanning offset => ∀ i < offset, memory i ≠ 0
  | .copying length copied =>
      (∀ i < length, memory i ≠ 0) ∧ memory length = 0 ∧
        ∀ i byte, copied i = some byte → byte = memory i

/-- A complete copy of a string is the string. -/
theorem message_eq_readMsg {memory : Memory} {length : Nat} {copied : Nat → Option Byte}
    (read : (Activity.copying length copied).Read memory) (inside : length < pageSize)
    (complete : ∀ offset < length, copied offset ≠ none) :
    Activity.message length copied = readMsg memory := by
  obtain ⟨before, zero, bytes⟩ := read
  rw [readMsg_of_zero_at inside before zero]
  refine List.map_congr_left fun i member => ?_
  obtain ⟨byte, here⟩ := Option.ne_none_iff_exists'.mp (complete i (List.mem_range.mp member))
  rw [here, Option.getD_some, bytes i byte here]

section Alone

variable [DecidableEq Worker] {worker : Worker} {memory : Memory} {s s' : World Worker}
  {event : Event Worker}

theorem read_set {w : Worker} {activity : Activity} (read : (s.workers worker).Read memory)
    (own : w = worker → activity.Read memory) :
    ((s.set w activity).workers worker).Read memory := by
  by_cases same : worker = w
  · subst same
    rw [workers_set_self]
    exact own rfl
  · rw [workers_set_of_ne s same]
    exact read

/-- A step that writes nothing keeps the memory and what a check has read of it. -/
theorem read_step (unchanged : s.memory = memory) (read : (s.workers worker).Read memory)
    (step : s.Step event s') (noWrite : NoWrite s event) :
    s'.memory = memory ∧ (s'.workers worker).Read memory := by
  cases step with
  | handleSuccess w idle => exact ⟨unchanged, read_set read fun _ => trivial⟩
  | write w offset writing left => exact absurd rfl (noWrite w offset)
  | handleSuccessReturns w written => exact ⟨unchanged, read_set read fun _ => trivial⟩
  | checkNextSyncCall w idle =>
      exact ⟨unchanged, read_set read fun _ i small => absurd small (Nat.not_lt_zero i)⟩
  | scan w offset scanning more =>
      refine ⟨unchanged, read_set read fun same i small => ?_⟩
      rw [← same, scanning] at read
      rcases Nat.lt_succ_iff_lt_or_eq.mp small with earlier | rfl
      · exact read i earlier
      · rwa [unchanged] at more
  | scanEnd w offset scanning zero =>
      refine ⟨unchanged, read_set read fun same => ?_⟩
      rw [← same, scanning] at read
      rw [unchanged] at zero
      exact ⟨read, zero, fun i byte none => by cases none⟩
  | copy w offset copying inside missing =>
      refine ⟨unchanged, read_set read fun same => ?_⟩
      rw [← same, copying] at read
      obtain ⟨before, zero, bytes⟩ := read
      refine ⟨before, zero, fun i byte copied => ?_⟩
      by_cases here : i = offset
      · subst here
        rw [Function.update_self, Option.some.injEq] at copied
        rw [← copied, unchanged]
      · rw [Function.update_of_ne here] at copied
        exact bytes i byte copied
  | checkReturns w copying complete => exact ⟨unchanged, read_set read fun _ => trivial⟩

/-- **A check that no write overlaps answers as the method run alone.** -/
theorem answer_of_noWrite {past later : List (Event Worker)} {t t' : World Worker} {answer : Bool}
    (run : Run World.Step Started past s) (idle : s.workers worker = .idle)
    (path : Path (Meeting World.Step NoWrite) s later t)
    (returns : t.Step (.checkReturns worker answer) t') : answer = checkNextSyncCall s.memory := by
  have started : (s.workers worker).Read s.memory := by
    rw [idle]
    exact trivial
  obtain ⟨_, read⟩ := path.invariant
    (fun t => t.memory = s.memory ∧ (t.workers worker).Read s.memory)
    (fun _ _ _ inv next => read_step inv.1 inv.2 next.1 next.2) ⟨rfl, started⟩
  have own := (WorldInv.of_run (run.append path.of_meeting)).workers worker
  cases returns with
  | checkReturns _ copying complete =>
      rw [copying] at read own
      have inside := own.1.trans_lt (by decide : pointerSize < pageSize)
      rw [checkNextSyncCall, message_eq_readMsg read inside complete]

end Alone

/-- **The methods byte by byte do what they do alone.** -/
theorem methods_alone [DecidableEq Worker] {past : List (Event Worker)} {s : World Worker}
    (run : Run World.Step Started past s) :
    (Completed past → s.memory = handleSuccess createSharedMemory) ∧
      ∀ (worker : Worker) (later : List (Event Worker)) (t t' : World Worker) (answer : Bool),
        s.workers worker = .idle → Path (Meeting World.Step NoWrite) s later t →
          t.Step (.checkReturns worker answer) t' → answer = checkNextSyncCall s.memory :=
  ⟨memory_of_completed run, fun _ _ _ _ _ idle path returns =>
    answer_of_noWrite run idle path returns⟩

/-- A success that has completed, and a whole check after it. -/
theorem methods_alone_completed :
    ∃ (past later : List (Event Bool)) (s t t' : World Bool) (answer : Bool),
      Run World.Step Started past s ∧ s.memory = handleSuccess createSharedMemory ∧
        Path (Meeting World.Step NoWrite) s later t ∧ t.Step (.checkReturns true answer) t' ∧
          answer = checkNextSyncCall s.memory := by
  have start : Run World.Step Started [] (⟨createSharedMemory, fun _ => .idle⟩ : World Bool) :=
    .start ⟨rfl, fun _ => rfl⟩
  have written := start
    |>.snoc (.handleSuccess false rfl)
    |>.snoc (.write false 7 rfl (by decide))
    |>.snoc (.write false 6 rfl (by decide))
    |>.snoc (.write false 5 rfl (by decide))
    |>.snoc (.write false 4 rfl (by decide))
    |>.snoc (.write false 3 rfl (by decide))
    |>.snoc (.write false 2 rfl (by decide))
    |>.snoc (.write false 1 rfl (by decide))
    |>.snoc (.write false 0 rfl (by decide))
  have run := written.snoc (.handleSuccessReturns false (congrArg Activity.writing (by decide)))
  have checked : ∃ (past later : List (Event Bool)) (s t t' : World Bool) (answer : Bool),
      Run World.Step Started past s ∧ Completed past ∧ s.workers true = .idle ∧
        Path (Meeting World.Step NoWrite) s later t ∧ t.Step (.checkReturns true answer) t' :=
    ⟨_, _, _, _, _, _, run, ⟨false, List.mem_append_right _ (List.mem_singleton_self _)⟩, rfl,
      .cons ⟨.checkNextSyncCall true rfl, fun _ _ same => by cases same⟩ <|
      .cons ⟨.scan true 0 rfl (by decide), fun _ _ same => by cases same⟩ <|
      .cons ⟨.scan true 1 rfl (by decide), fun _ _ same => by cases same⟩ <|
      .cons ⟨.scan true 2 rfl (by decide), fun _ _ same => by cases same⟩ <|
      .cons ⟨.scan true 3 rfl (by decide), fun _ _ same => by cases same⟩ <|
      .cons ⟨.scan true 4 rfl (by decide), fun _ _ same => by cases same⟩ <|
      .cons ⟨.scan true 5 rfl (by decide), fun _ _ same => by cases same⟩ <|
      .cons ⟨.scan true 6 rfl (by decide), fun _ _ same => by cases same⟩ <|
      .cons ⟨.scan true 7 rfl (by decide), fun _ _ same => by cases same⟩ <|
      .cons ⟨.scanEnd true 8 rfl (by decide), fun _ _ same => by cases same⟩ <|
      .cons ⟨.copy true 0 rfl (by decide) rfl, fun _ _ same => by cases same⟩ <|
      .cons ⟨.copy true 1 rfl (by decide) rfl, fun _ _ same => by cases same⟩ <|
      .cons ⟨.copy true 2 rfl (by decide) rfl, fun _ _ same => by cases same⟩ <|
      .cons ⟨.copy true 3 rfl (by decide) rfl, fun _ _ same => by cases same⟩ <|
      .cons ⟨.copy true 4 rfl (by decide) rfl, fun _ _ same => by cases same⟩ <|
      .cons ⟨.copy true 5 rfl (by decide) rfl, fun _ _ same => by cases same⟩ <|
      .cons ⟨.copy true 6 rfl (by decide) rfl, fun _ _ same => by cases same⟩ <|
      .cons ⟨.copy true 7 rfl (by decide) rfl, fun _ _ same => by cases same⟩ <| .done _,
      .checkReturns true rfl (by decide)⟩
  obtain ⟨past, later, s, t, t', answer, run, completed, idle, path, returns⟩ := checked
  obtain ⟨memory, answers⟩ := methods_alone run
  exact ⟨past, later, s, t, t', answer, run, memory completed, path, returns,
    answers true later t t' answer idle path returns⟩

/-! ## The end of a check -/

/-- A bound on the steps that a check still takes. -/
def Activity.left : Activity → Nat
  | .idle | .writing _ => 0
  | .scanning offset => 2 * pointerSize + 2 - offset
  | .copying length copied => ((Finset.range length).filter (copied · = none)).card + 1

theorem left_copying_le {length : Nat} (copied : Nat → Option Byte)
    (bound : length ≤ pointerSize) : (Activity.copying length copied).left ≤ pointerSize + 1 := by
  have missing := (Finset.card_filter_le (Finset.range length) (copied · = none)).trans_eq
    (Finset.card_range length)
  exact Nat.succ_le_succ (missing.trans bound)

theorem left_copy_lt {length offset : Nat} {copied : Nat → Option Byte} (byte : Byte)
    (inside : offset < length) (missing : copied offset = none) :
    (Activity.copying length (Function.update copied offset (some byte))).left <
      (Activity.copying length copied).left := by
  refine Nat.succ_lt_succ (Finset.card_lt_card (Finset.ssubset_iff_subset_ne.mpr ⟨?_, ?_⟩))
  · intro i member
    obtain ⟨small, none⟩ := Finset.mem_filter.mp member
    refine Finset.mem_filter.mpr ⟨small, ?_⟩
    by_cases here : i = offset
    · rw [here, missing]
    · rwa [Function.update_of_ne here] at none
  · intro same
    have member : offset ∈ (Finset.range length).filter (copied · = none) :=
      Finset.mem_filter.mpr ⟨Finset.mem_range.mpr inside, missing⟩
    rw [← same] at member
    have none := (Finset.mem_filter.mp member).2
    rw [Function.update_self] at none
    cases none

section Progress

variable [DecidableEq Worker] {events : List (Event Worker)} {s : World Worker} {worker : Worker}

/-- A worker inside a check can take its next step. -/
theorem exists_step_of_checking (checking : (s.workers worker).Checking) :
    ∃ event s', s.Step event s' ∧ event.worker = worker := by
  cases activity : s.workers worker with
  | idle | writing remaining =>
      rw [activity] at checking
      exact checking.elim
  | scanning offset =>
      by_cases zero : s.memory offset = 0
      · exact ⟨_, _, .scanEnd worker offset activity zero, rfl⟩
      · exact ⟨_, _, .scan worker offset activity zero, rfl⟩
  | copying length copied =>
      by_cases complete : ∀ offset < length, copied offset ≠ none
      · exact ⟨_, _, .checkReturns worker activity complete, rfl⟩
      · push Not at complete
        obtain ⟨offset, inside, missing⟩ := complete
        exact ⟨_, _, .copy worker offset activity inside missing, rfl⟩

/-- Every step of a worker inside a check brings the check closer to its end. -/
theorem left_lt_of_step (inv : WorldInv events s) (checking : (s.workers worker).Checking)
    {event : Event Worker} {s' : World Worker} (step : s.Step event s')
    (own : event.worker = worker) : (s'.workers worker).left < (s.workers worker).left := by
  have held := inv.workers worker
  cases step with
  | handleSuccess w idle =>
      obtain rfl : w = worker := own
      rw [idle] at checking
      exact checking.elim
  | write w offset writing left =>
      obtain rfl : w = worker := own
      rw [writing] at checking
      exact checking.elim
  | handleSuccessReturns w written =>
      obtain rfl : w = worker := own
      rw [written] at checking
      exact checking.elim
  | checkNextSyncCall w idle =>
      obtain rfl : w = worker := own
      rw [idle] at checking
      exact checking.elim
  | scan w offset scanning more =>
      obtain rfl : w = worker := own
      have inside : offset < pointerSize := (inv.written_of_ne_zero more).2
      rw [scanning, workers_set_self]
      exact Nat.sub_lt_sub_left (inside.trans (by decide)) (Nat.lt_succ_self offset)
  | scanEnd w offset scanning zero =>
      obtain rfl : w = worker := own
      rw [scanning] at held
      rw [scanning, workers_set_self]
      refine (left_copying_le _ held.1).trans_lt (Nat.lt_sub_of_add_lt ?_)
      calc pointerSize + 1 + offset ≤ pointerSize + 1 + pointerSize :=
            Nat.add_le_add_left held.1 _
        _ < 2 * pointerSize + 2 := by decide
  | copy w offset copying inside missing =>
      obtain rfl : w = worker := own
      rw [copying, workers_set_self]
      exact left_copy_lt _ inside missing
  | checkReturns w copying complete =>
      obtain rfl : w = worker := own
      rw [copying, workers_set_self]
      exact Nat.succ_pos _

end Progress

/-- **The stop flag is safe under interleaving.** A check returns false only
after all eight bytes of the message have been written by `handle_success`, and
it does return false if it was called after some `handle_success` had completed.
A check always has a next step, and it ends within a bounded number of them. -/
theorem checkNextSyncCall_stop [DecidableEq Worker] {events : List (Event Worker)}
    {s : World Worker} (run : Run World.Step Started events s) :
    (∀ worker answer s', s.Step (.checkReturns worker answer) s' →
      (answer = false → ∀ i < pointerSize, Written events i) ∧
        (CheckedLate events worker → answer = false)) ∧
    ∀ worker, (s.workers worker).Checking →
      (∃ event s', s.Step event s' ∧ event.worker = worker) ∧
        ∀ event s', s.Step event s' → event.worker = worker →
          (s'.workers worker).left < (s.workers worker).left := by
  have inv := WorldInv.of_run run
  refine ⟨fun worker answer s' returns => ?_, fun worker checking => ?_⟩
  · cases returns with
    | checkReturns _ copying complete =>
        have own := inv.workers worker
        rw [copying] at own
        obtain ⟨_, passed, full, bytes⟩ := own
        have compared := message_eq_success_iff complete bytes
        constructor
        · intro stop
          rw [bne_eq_false_iff_eq, compared] at stop
          exact fun i inside => passed i (stop ▸ inside)
        · intro late
          rw [bne_eq_false_iff_eq, compared]
          exact full late
  · exact ⟨exists_step_of_checking checking, fun _ _ => left_lt_of_step inv checking⟩

/-- A torn read: one byte of a success is written, and another worker's check
copies that byte alone and goes on. -/
theorem checkNextSyncCall_stop_torn :
    ∃ s s' : World Bool, s.Step (.checkReturns true true) s' ∧
      ¬ CheckedLate [.handleSuccess false, .write false 0, .checkNextSyncCall true, .scan true 0,
        .scan true 1, .copy true 0] true :=
  have returns := World.Step.checkReturns (s := ⟨_, Function.update _ true
      (.copying 1 (Function.update (fun _ => none) 0 (some (successByte 0))))⟩)
    true rfl fun offset inside => by
      cases Nat.lt_one_iff.mp inside
      exact Option.some_ne_none _
  ⟨_, _, returns, fun late => absurd (((checkNextSyncCall_stop
    (.snoc (.snoc (.snoc (.snoc (.snoc (.snoc
      (.start (s := ⟨createSharedMemory, fun _ => .idle⟩) ⟨rfl, fun _ => rfl⟩)
      (.handleSuccess false rfl)) (.write false 0 rfl (by decide)))
      (.checkNextSyncCall true rfl)) (.scan true 0 rfl (by decide))) (.scanEnd true 1 rfl rfl))
      (.copy true 0 rfl (by decide) rfl))).1 true true _ returns).2 late) (by decide)⟩

end ParallelLabs.SharedMemory
