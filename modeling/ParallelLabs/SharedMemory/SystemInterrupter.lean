import ParallelLabs.Callables.SystemInterrupter
import ParallelLabs.Library.Simulation
import ParallelLabs.Library.Termination
import ParallelLabs.SharedMemory.StopFlag

/-!
# `SharedMemorySystemInterrupter` as an interrupter

The calls and returns of the two methods are what the workers see of the stop flag;
the steps on single bytes are its own. It is sound: a check sees the whole message
only after some worker has called `handle_success` (`sound`).

A worker inside a method can always take its next step (`exists_step_of_inside`),
and every step brings the method closer to its return (`byte_cases`).
-/

set_option autoImplicit false

namespace ParallelLabs.SharedMemory

open Library Callables

variable {Worker : Type}

/-- The call or return that an event is. -/
def Event.talk : Event Worker → Option (Worker × Talk)
  | .handleSuccess worker => some (worker, .handleSuccess)
  | .handleSuccessReturns worker => some (worker, .handleSuccessReturns)
  | .checkNextSyncCall worker => some (worker, .checkNextSyncCall)
  | .checkReturns worker answer => some (worker, .checkReturns answer)
  | .write _ _ | .scan _ _ | .copy _ _ => none

/-- The method that a worker is in. -/
def Activity.method : Activity → Option Method
  | .idle => none
  | .writing _ => some .handleSuccess
  | .scanning _ | .copying _ _ => some .checkNextSyncCall

/-- The steps that the method still takes until it returns. -/
def Activity.rest : Activity → Nat
  | .idle => 0
  | .writing remaining => remaining.card
  | .scanning offset => (Activity.scanning offset).left
  | .copying length copied => (Activity.copying length copied).left

section

variable [DecidableEq Worker]

def SharedMemorySystemInterrupter (Worker : Type) [DecidableEq Worker] :
    SystemInterrupter Worker where
  State := World Worker
  initial := Started
  step s call s' := ∃ event, World.Step s event s' ∧ event.talk = call

/-- The bytes behind the calls of a run. -/
theorem exists_run_of_talks {talks : List (Option (Worker × Talk))} {s : World Worker}
    (run : Run (SharedMemorySystemInterrupter Worker).step
      (SharedMemorySystemInterrupter Worker).initial talks s) :
    ∃ events, Run World.Step Started events s ∧ events.map Event.talk = talks := by
  induction run with
  | start starts => exact ⟨[], .start starts, rfl⟩
  | snoc run next ih =>
      obtain ⟨events, run', same⟩ := ih
      obtain ⟨event, step, call⟩ := next
      refine ⟨events ++ [event], run'.snoc step, ?_⟩
      rw [List.map_append, List.map_singleton, same, call]

/-! ## The calls of a worker -/

section Calls

variable {s s' : World Worker} {worker : Worker}

theorem checkNextSyncCall_cases
    (step : (SharedMemorySystemInterrupter Worker).step s (some (worker, .checkNextSyncCall)) s') :
    s.workers worker = .idle ∧ s' = s.set worker (.scanning 0) := by
  obtain ⟨event, step, call⟩ := step
  cases step with
  | checkNextSyncCall w idle =>
      cases call
      exact ⟨idle, rfl⟩
  | handleSuccess | write | handleSuccessReturns | scan | scanEnd | copy | checkReturns =>
      cases call

theorem checkReturns_cases {answer : Bool}
    (step : (SharedMemorySystemInterrupter Worker).step s
      (some (worker, .checkReturns answer)) s') :
    ∃ length copied, s.workers worker = .copying length copied ∧ s' = s.set worker .idle := by
  obtain ⟨event, step, call⟩ := step
  cases step with
  | checkReturns w copying complete =>
      cases call
      exact ⟨_, _, copying, rfl⟩
  | handleSuccess | write | handleSuccessReturns | scan | scanEnd | copy | checkNextSyncCall =>
      cases call

theorem handleSuccess_cases
    (step : (SharedMemorySystemInterrupter Worker).step s (some (worker, .handleSuccess)) s') :
    s.workers worker = .idle ∧ s' = s.set worker (.writing (Finset.range pointerSize)) := by
  obtain ⟨event, step, call⟩ := step
  cases step with
  | handleSuccess w idle =>
      cases call
      exact ⟨idle, rfl⟩
  | write | handleSuccessReturns | scan | scanEnd | copy | checkNextSyncCall | checkReturns =>
      cases call

theorem handleSuccessReturns_cases
    (step : (SharedMemorySystemInterrupter Worker).step s
      (some (worker, .handleSuccessReturns)) s') :
    s.workers worker = .writing ∅ ∧ s' = s.set worker .idle := by
  obtain ⟨event, step, call⟩ := step
  cases step with
  | handleSuccessReturns w written =>
      cases call
      exact ⟨written, rfl⟩
  | handleSuccess | write | scan | scanEnd | copy | checkNextSyncCall | checkReturns => cases call

end Calls

/-! ## Steps on single bytes -/

section Bytes

variable {events : List (Event Worker)} {s s' : World Worker}

/-- **A step on a byte** is one of a worker inside a method, brings the method closer to
its return, and leaves the other workers alone. -/
theorem byte_cases (inv : WorldInv events s)
    (step : (SharedMemorySystemInterrupter Worker).step s none s') :
    ∃ worker activity, s'.workers = Function.update s.workers worker activity ∧
      activity.method = (s.workers worker).method ∧ activity.rest < (s.workers worker).rest := by
  obtain ⟨event, step, silent⟩ := step
  have less := fun (w : Worker) (checking : (s.workers w).Checking) (own : event.worker = w) =>
    left_lt_of_step inv checking step own
  cases step with
  | handleSuccess | handleSuccessReturns | checkNextSyncCall | checkReturns => cases silent
  | @write w remaining offset writing left =>
      refine ⟨w, .writing (remaining.erase offset), rfl, by rw [writing]; rfl, ?_⟩
      rw [writing]
      exact Finset.card_erase_lt_of_mem left
  | scan w offset scanning more =>
      have less := less w (by rw [scanning]; trivial) rfl
      rw [workers_set_self, scanning] at less
      exact ⟨w, _, rfl, by rw [scanning]; rfl, by rw [scanning]; exact less⟩
  | scanEnd w offset scanning zero =>
      have less := less w (by rw [scanning]; trivial) rfl
      rw [workers_set_self, scanning] at less
      exact ⟨w, _, rfl, by rw [scanning]; rfl, by rw [scanning]; exact less⟩
  | copy w offset copying inside missing =>
      have less := less w (by rw [copying]; trivial) rfl
      rw [workers_set_self, copying] at less
      exact ⟨w, _, rfl, by rw [copying]; rfl, by rw [copying]; exact less⟩

end Bytes

/-- **A worker inside a method can go on**: with a byte, or with the return. -/
theorem exists_step_of_inside (s : World Worker) {worker : Worker} {method : Method}
    (inside : (s.workers worker).method = some method) :
    (∃ s', (SharedMemorySystemInterrupter Worker).step s none s') ∨
      ∃ call s', method.Returns call ∧
        (SharedMemorySystemInterrupter Worker).step s (some (worker, call)) s' := by
  cases activity : s.workers worker with
  | idle => rw [activity] at inside; cases inside
  | writing remaining =>
      rw [activity] at inside
      cases inside
      rcases remaining.eq_empty_or_nonempty with rfl | ⟨offset, left⟩
      · exact .inr ⟨_, _, rfl, _, .handleSuccessReturns worker activity, rfl⟩
      · exact .inl ⟨_, _, .write worker offset activity left, rfl⟩
  | scanning offset =>
      by_cases zero : s.memory offset = 0
      · exact .inl ⟨_, _, .scanEnd worker offset activity zero, rfl⟩
      · exact .inl ⟨_, _, .scan worker offset activity zero, rfl⟩
  | copying length copied =>
      rw [activity] at inside
      cases inside
      by_cases complete : ∀ offset < length, copied offset ≠ none
      · exact .inr ⟨_, _, ⟨_, rfl⟩, _, .checkReturns worker activity complete, rfl⟩
      · push Not at complete
        obtain ⟨offset, small, missing⟩ := complete
        exact .inl ⟨_, _, .copy worker offset activity small missing, rfl⟩

section Responsive

variable {s : World Worker}

theorem method_set (s : World Worker) (worker : Worker) (activity : Activity) :
    (fun w => ((s.set worker activity).workers w).method) =
      Function.update (fun w => (s.workers w).method) worker activity.method :=
  Function.comp_update Activity.method _ _ _

/-- The steps on bytes after a change of one worker. -/
theorem sum_rest_update [Fintype Worker] (workers : Worker → Activity) (worker : Worker)
    (activity : Activity) :
    ∑ w, (Function.update workers worker activity w).rest + (workers worker).rest =
      ∑ w, (workers w).rest + activity.rest := by
  have changed := sum_add_of_ne (fun w => (workers w).rest)
    (fun w => (Function.update workers worker activity w).rest) worker
    fun w other => by rw [Function.update_of_ne other]
  rwa [Function.update_self] at changed

/-- **A worker inside a method of the stop flag waits for nobody.** A check takes at most
eighteen steps on bytes, a `handle_success` eight. -/
def sharedMemoryResponsive (Worker : Type) [Fintype Worker] [DecidableEq Worker] :
    (SharedMemorySystemInterrupter Worker).Responsive where
  occupation s worker := (World.workers s worker).method
  rest s := ∑ worker, (World.workers s worker).rest
  start := 0
  bound := 18
  initially s initial := by
    refine ⟨fun worker => by rw [initial.2 worker]; rfl, Nat.le_of_eq ?_⟩
    exact Finset.sum_eq_zero fun worker _ => by rw [initial.2 worker]; rfl
  entered := by
    intro talks s worker method s' run step
    cases method with
    | handleSuccess =>
        obtain ⟨idle, rfl⟩ := handleSuccess_cases step
        have sum := sum_rest_update (World.workers s) worker (.writing (Finset.range pointerSize))
        have own : (Activity.writing (Finset.range pointerSize)).rest ≤ 18 := by decide
        exact ⟨method_set s worker _, Nat.le_of_add_right_le (sum.le.trans (by gcongr))⟩
    | checkNextSyncCall =>
        obtain ⟨idle, rfl⟩ := checkNextSyncCall_cases step
        have sum := sum_rest_update (World.workers s) worker (.scanning 0)
        have own : (Activity.scanning 0).rest ≤ 18 := by decide
        exact ⟨method_set s worker _, Nat.le_of_add_right_le (sum.le.trans (by gcongr))⟩
  left := by
    intro talks s worker method call s' run returns step
    have back : s' = World.set s worker .idle := by
      cases method with
      | handleSuccess =>
          obtain rfl : call = .handleSuccessReturns := returns
          exact (handleSuccessReturns_cases step).2
      | checkNextSyncCall =>
          obtain ⟨answer, rfl⟩ := returns
          obtain ⟨length, copied, copying, same⟩ := checkReturns_cases step
          exact same
    subst back
    exact ⟨method_set s worker _,
      Nat.le_of_add_right_le (sum_rest_update (World.workers s) worker .idle).le⟩
  alone := by
    intro talks s s' run step
    obtain ⟨events, run', -⟩ := exists_run_of_talks run
    obtain ⟨worker, activity, changed, same, less⟩ := byte_cases (WorldInv.of_run run') step
    have sum := sum_rest_update (World.workers s) worker activity
    rw [changed]
    refine ⟨?_, by omega⟩
    refine (Function.comp_update Activity.method _ _ _).trans ?_
    rw [same]
    exact Function.update_eq_self worker _
  opens s worker method outside := by
    have idle : World.workers s worker = .idle := by
      cases activity : World.workers s worker with
      | idle => rfl
      | writing | scanning | copying => rw [activity] at outside; cases outside
    cases method with
    | handleSuccess => exact ⟨_, _, .handleSuccess worker idle, rfl⟩
    | checkNextSyncCall => exact ⟨_, _, .checkNextSyncCall worker idle, rfl⟩
  goes_on := by
    intro talks s worker method run inside
    exact exists_step_of_inside s inside

end Responsive

/-! ## After a success -/

section Completed

variable {talks : List (Option (Worker × Talk))} {s s' : World Worker} {worker : Worker}

/-- The whole message is in the mapping. -/
def Full (s : World Worker) : Prop := ∀ i < pointerSize, s.memory i = successByte i

theorem full_of_returned (run : Run (SharedMemorySystemInterrupter Worker).step
      (SharedMemorySystemInterrupter Worker).initial talks s)
    (returned : some (worker, Talk.handleSuccessReturns) ∈ talks) : Full s := by
  obtain ⟨events, run', same⟩ := exists_run_of_talks run
  have inv := WorldInv.of_run run'
  rw [← same] at returned
  obtain ⟨event, member, call⟩ := List.mem_map.mp returned
  have completed : Completed events := by
    cases event with
    | handleSuccessReturns w => exact ⟨w, member⟩
    | handleSuccess | write | checkNextSyncCall | scan | copy | checkReturns => cases call
  exact fun i inside => (inv.memory_of_written (inv.completed completed i inside)).1

/-- A scan of the whole message does not end early. -/
theorem copying_of_byte {events : List (Event Worker)} (inv : WorldInv events s) (full : Full s)
    (step : (SharedMemorySystemInterrupter Worker).step s none s') {length : Nat}
    {copied : Nat → Option Byte} (copying : s'.workers worker = .copying length copied) :
    (∃ copied', s.workers worker = .copying length copied') ∨ length = pointerSize := by
  obtain ⟨event, step, silent⟩ := step
  have frame : ∀ {w : Worker} {activity : Activity},
      Function.update s.workers w activity worker = .copying length copied →
      (activity = .copying length copied → (∃ copied', s.workers w = .copying length copied') ∨
        length = pointerSize) →
      (∃ copied', s.workers worker = .copying length copied') ∨ length = pointerSize := by
    intro w activity now own
    by_cases same : worker = w
    · subst same
      rw [Function.update_self] at now
      exact own now
    · rw [Function.update_of_ne same] at now
      exact .inl ⟨copied, now⟩
  cases step with
  | handleSuccess | handleSuccessReturns | checkNextSyncCall | checkReturns => cases silent
  | write w offset writing left => exact frame copying fun same => by cases same
  | scan w offset scanning more => exact frame copying fun same => by cases same
  | scanEnd w offset scanning zero =>
      refine frame copying fun same => .inr ?_
      cases same
      have own := inv.workers w
      rw [scanning] at own
      rcases Nat.lt_or_eq_of_le own.1 with inside | whole
      · exact absurd ((full _ inside).symm.trans zero) (successByte_ne_zero inside)
      · exact whole
  | copy w offset copying' inside missing =>
      refine frame copying fun same => .inl ?_
      cases same
      exact ⟨_, copying'⟩

/-- A check that has read the whole message says stop. -/
theorem stop_of_whole {events : List (Event Worker)} (inv : WorldInv events s) {answer : Bool}
    (step : (SharedMemorySystemInterrupter Worker).step s
      (some (worker, .checkReturns answer)) s')
    (whole : ∀ length copied, s.workers worker = .copying length copied → length = pointerSize) :
    answer = false := by
  obtain ⟨event, step, call⟩ := step
  cases step with
  | @checkReturns w length copied copying complete =>
      obtain ⟨rfl, rfl⟩ : w = worker ∧ (Activity.message length copied != success) = answer := by
        simpa [Event.talk] using call
      have own := inv.workers w
      rw [copying] at own
      rw [bne_eq_false_iff_eq, message_eq_success_iff complete own.2.2.2]
      exact whole length copied copying
  | handleSuccess | write | handleSuccessReturns | scan | scanEnd | copy | checkNextSyncCall =>
      cases call

end Completed

/-! ## Soundness -/

/-- A worker writes only after it has called `handle_success`. -/
theorem called_of_write {events : List (Event Worker)} {s : World Worker}
    (run : Run World.Step Started events s) :
    (∀ worker remaining, s.workers worker = .writing remaining → .handleSuccess worker ∈ events) ∧
      ∀ worker offset, .write worker offset ∈ events → .handleSuccess worker ∈ events := by
  induction run with
  | start starts =>
      refine ⟨fun worker remaining writing => ?_, fun _ _ member => absurd member List.not_mem_nil⟩
      rw [starts.2 worker] at writing
      cases writing
  | @snoc past s s' event run next ih =>
      obtain ⟨inside, wrote⟩ := ih
      have still : ∀ {worker}, .handleSuccess worker ∈ past →
          .handleSuccess worker ∈ past ++ [event] := fun member => List.mem_append_left _ member
      constructor
      · have frame : ∀ {w : Worker} {activity : Activity},
            (∀ remaining, activity = .writing remaining → .handleSuccess w ∈ past ++ [event]) →
              ∀ worker remaining, Function.update s.workers w activity worker =
                .writing remaining → .handleSuccess worker ∈ past ++ [event] := by
          intro w activity own
          refine (Function.forall_update_iff s.workers fun worker activity =>
            ∀ remaining, activity = .writing remaining →
              .handleSuccess worker ∈ past ++ [event]).mpr
              ⟨own, fun worker _ remaining writing => ?_⟩
          exact still (inside worker remaining writing)
        cases next with
        | handleSuccess w idle =>
            exact frame fun _ _ => List.mem_append_right _ (List.mem_singleton_self _)
        | write w offset writing left => exact frame fun _ _ => still (inside w _ writing)
        | handleSuccessReturns | checkNextSyncCall | scan | scanEnd | copy | checkReturns =>
            exact frame fun _ same => by cases same
      · intro worker offset member
        rcases List.mem_append.mp member with earlier | last
        · exact still (wrote worker offset earlier)
        · obtain rfl := List.mem_singleton.mp last
          cases next with
          | write w offset writing left => exact still (inside worker _ writing)

/-- **The stop flag is sound.** -/
theorem sharedMemory_sound (Worker : Type) [DecidableEq Worker] :
    (SharedMemorySystemInterrupter Worker).Sound := by
  intro talks s worker s' run step
  obtain ⟨events, run', same⟩ := exists_run_of_talks run
  obtain ⟨event, step, call⟩ := step
  have inv := WorldInv.of_run run'
  cases step with
  | @checkReturns w length copied copying complete =>
      have own := inv.workers w
      rw [copying] at own
      obtain ⟨_, passed, full, bytes⟩ := own
      obtain ⟨rfl, stop⟩ : w = worker ∧ Activity.message length copied = success := by
        simpa [Event.talk] using call
      rw [message_eq_success_iff complete bytes] at stop
      obtain ⟨writer, member⟩ := passed 0 (stop ▸ (by decide))
      refine ⟨writer, ?_⟩
      rw [← same]
      exact List.mem_map.mpr ⟨_, (called_of_write run').2 writer 0 member, rfl⟩
  | handleSuccess | write | handleSuccessReturns | scan | scanEnd | copy | checkNextSyncCall =>
      cases call

end

end ParallelLabs.SharedMemory
