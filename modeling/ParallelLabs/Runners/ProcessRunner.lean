import ParallelLabs.Callables.Abstract
import ParallelLabs.Library.Runs
import ParallelLabs.Runners.Output
import Mathlib.Logic.Function.Basic

/-!
# `LinuxProccessParallelRunner.h`: the signal to the process group

`run` forks a worker for each callable, the last one first, and waits for all of
them. A worker whose callable succeeds ignores `SIGINT` and then sends `SIGINT`
to its process group, which is that of the parent and of all workers.

The parent does not ignore the signal, so the first signal sent terminates it. A
worker that has begun to ignore the signal survives that of another one. So the
parent survives only as long as no signal is sent, and a signal leaves one worker
alone exactly when it is sent while all other workers have the default action
(`killExcept_iff`).
-/

set_option autoImplicit false

namespace ParallelLabs.Runners

open Library Callables

/-- The life of a worker process. -/
inductive WorkerPhase where
  | absent
  | alive
  | exited
  | killed
  deriving DecidableEq, Repr

/-- A worker: its copy of the callable, whether it has entered `run` of it,
whether it ignores `SIGINT`, and whether it is between the two calls of
`kill_except`. -/
structure Worker (Object : Type) where
  phase : WorkerPhase
  object : Object
  entered : Bool
  ignoring : Bool
  signalled : Bool

/-- The parent in `run`, after it, or terminated. -/
inductive ParentPhase where
  | running
  | returned
  | killed
  deriving DecidableEq, Repr

/-- The processes, and the number of workers that `forker` has still to fork. -/
structure Group (Object : Type) (n : Nat) where
  parent : ParentPhase
  toFork : Nat
  workers : Fin n → Worker Object

inductive GroupEvent (n : Nat) where
  | fork (worker : Fin n)
  | run (worker : Fin n)
  | work (worker : Fin n)
  | checkNextSyncCall (worker : Fin n)
  /-- The first call of `kill_except`. -/
  | signal (worker : Fin n)
  /-- The second one. -/
  | killpg (worker : Fin n)
  | exit (worker : Fin n)
  | returns
  deriving DecidableEq

/-- `SIGINT` is delivered to the worker. -/
def Worker.interrupt {Object : Type} (w : Worker Object) : Worker Object :=
  if w.phase = .alive ∧ w.ignoring = false then { w with phase := .killed } else w

namespace Group

variable {Object : Type} {n : Nat}

def set (s : Group Object n) (i : Fin n) (worker : Worker Object) : Group Object n :=
  { s with workers := Function.update s.workers i worker }

@[simp] theorem workers_set_self (s : Group Object n) (i : Fin n) (worker : Worker Object) :
    (s.set i worker).workers i = worker := Function.update_self _ _ _

theorem workers_set_of_ne (s : Group Object n) {i j : Fin n} (other : j ≠ i)
    (worker : Worker Object) : (s.set i worker).workers j = s.workers j :=
  Function.update_of_ne other _ _

/-- `SIGINT` is delivered to the parent and to all workers. -/
def interrupt (s : Group Object n) : Group Object n :=
  { s with
    parent := if s.parent = .running then .killed else s.parent
    workers := fun i => (s.workers i).interrupt }

/-- The worker is alive in `run` of its callable, and not in `kill_except`. -/
def Busy (s : Group Object n) (i : Fin n) : Prop :=
  (s.workers i).phase = .alive ∧ (s.workers i).entered = true ∧ (s.workers i).signalled = false

inductive Step (callables : Fin n → AbstractCallable Object) (s : Group Object n) :
    GroupEvent n → Group Object n → Prop where
  /-- `forker` counts down to `0`. -/
  | fork (i : Fin n) (few : launches n = true) (running : s.parent = .running)
      (next : s.toFork = i.val + 1) :
      Step callables s (.fork i)
        ⟨s.parent, i.val, (s.set i { s.workers i with phase := .alive }).workers⟩
  | run (i : Fin n) {object : Object} (alive : (s.workers i).phase = .alive)
      (outside : (s.workers i).entered = false)
      (own : (callables i).step (s.workers i).object .run object) :
      Step callables s (.run i) (s.set i { s.workers i with object := object, entered := true })
  | work (i : Fin n) {object : Object} (busy : s.Busy i)
      (own : (callables i).step (s.workers i).object .work object) :
      Step callables s (.work i) (s.set i { s.workers i with object := object })
  /-- The check of `LinuxSignalSystemInterrupter` is always true. -/
  | checkNextSyncCall (i : Fin n) {object : Object} (busy : s.Busy i)
      (own : (callables i).step (s.workers i).object (.checkNextSyncCall true) object) :
      Step callables s (.checkNextSyncCall i) (s.set i { s.workers i with object := object })
  | signal (i : Fin n) (busy : s.Busy i) (own : (callables i).Notifies (s.workers i).object) :
      Step callables s (.signal i)
        (s.set i { s.workers i with ignoring := true, signalled := true })
  | killpg (i : Fin n) {object : Object} (alive : (s.workers i).phase = .alive)
      (signalled : (s.workers i).signalled = true)
      (own : (callables i).step (s.workers i).object .handleSuccess object) :
      Step callables s (.killpg i)
        (s.set i { s.workers i with object := object, signalled := false }).interrupt
  /-- The callable returns, and the worker exits. -/
  | exit (i : Fin n) {object : Object} (busy : s.Busy i)
      (own : (callables i).step (s.workers i).object .returns object) :
      Step callables s (.exit i) (s.set i { s.workers i with phase := .exited })
  /-- An exception leaves the callable, and the worker ends. -/
  | terminate (i : Fin n) (busy : s.Busy i) :
      Step callables s (.exit i) (s.set i { s.workers i with phase := .exited })
  /-- The parent has waited for all its workers. -/
  | returns (running : s.parent = .running) (all : launches n = true → s.toFork = 0)
      (gone : ∀ i, (s.workers i).phase ≠ .alive) :
      Step callables s .returns { s with parent := .returned }

/-- The parent enters `run`. -/
def Started (callables : Fin n → AbstractCallable Object) (s : Group Object n) : Prop :=
  s.parent = .running ∧ s.toFork = n ∧ ∀ i, (callables i).initial (s.workers i).object ∧
    s.workers i = ⟨.absent, (s.workers i).object, false, false, false⟩

end Group

section Theorems

variable {Object : Type} {n : Nat} (callables : Fin n → AbstractCallable Object)

/-- The parent has not been terminated. -/
def ParentSafe (s : Group Object n) : Prop := s.parent ≠ .killed

/-- After a `kill_except` exactly one worker is alive. -/
def OneLeft (s : Group Object n) (event : GroupEvent n) : Prop :=
  ∀ i, event = .killpg i → ∀ s', s.Step callables event s' → ∃! j, (s'.workers j).phase = .alive

/-- No signal is sent. -/
def NoKillpg (_ : Group Object n) (event : GroupEvent n) : Prop := ∀ i, event ≠ .killpg i

/-- A signal is sent while the other workers that are alive have the default action. -/
def OthersDefault (s : Group Object n) (event : GroupEvent n) : Prop :=
  ∀ i, event = .killpg i → ∀ j, j ≠ i → (s.workers j).phase = .alive →
    (s.workers j).ignoring = false

variable {callables} {s s' : Group Object n} {event : GroupEvent n}
  {past : List (Group Object n × GroupEvent n)}

theorem Worker.interrupt_alive_iff (w : Worker Object) :
    w.interrupt.phase = .alive ↔ w.phase = .alive ∧ w.ignoring = true := by
  rw [interrupt]
  split
  case isTrue hit => simp [hit.2]
  case isFalse spared =>
    constructor
    · intro alive
      refine ⟨alive, ?_⟩
      cases ignoring : w.ignoring with
      | true => rfl
      | false => exact absurd ⟨alive, ignoring⟩ spared
    · exact And.left

@[simp] theorem Worker.interrupt_signalled (w : Worker Object) :
    w.interrupt.signalled = w.signalled := by
  rw [interrupt]
  split <;> rfl

@[simp] theorem Worker.interrupt_ignoring (w : Worker Object) :
    w.interrupt.ignoring = w.ignoring := by
  rw [interrupt]
  split <;> rfl

/-- A parent that has not returned is terminated by the signal. -/
theorem Group.parent_interrupt (inside : s.parent ≠ .returned) : s.interrupt.parent = .killed := by
  show (if s.parent = .running then ParentPhase.killed else s.parent) = .killed
  cases parent : s.parent with
  | running | killed => rfl
  | returned => exact absurd parent inside

/-- **Who survives a `kill_except`**: the workers that are alive and ignore the signal. -/
theorem alive_after_killpg {i : Fin n} (step : s.Step callables (.killpg i) s') (j : Fin n) :
    (s'.workers j).phase = .alive ↔
      (s.workers j).phase = .alive ∧ (s.workers j).ignoring = true := by
  cases step with
  | killpg _ alive signalled own =>
      rw [Group.interrupt, Worker.interrupt_alive_iff]
      by_cases same : j = i
      · rw [same, Group.workers_set_self]
      · rw [Group.workers_set_of_ne _ same]

/-- **A signal leaves one worker** exactly when the others have the default action. -/
theorem oneLeft_iff (step : s.Step callables event s')
    (ignores : ∀ i, (s.workers i).signalled = true → (s.workers i).ignoring = true) :
    OneLeft callables s event ↔ OthersDefault s event := by
  constructor
  · intro oneLeft i same j other alive
    subst same
    obtain ⟨k, _, unique⟩ := oneLeft i rfl s' step
    cases ignoring : (s.workers j).ignoring with
    | false => rfl
    | true =>
        have own : (s'.workers i).phase = .alive := by
          cases step with
          | killpg _ living signalled own =>
              exact (alive_after_killpg (.killpg i living signalled own) i).mpr
                ⟨living, ignores i signalled⟩
        have others := (alive_after_killpg step j).mpr ⟨alive, ignoring⟩
        exact absurd ((unique j others).trans (unique i own).symm) other
  · intro default i same s'' next
    subst same
    refine ⟨i, (alive_after_killpg next i).mpr ?_, fun j alive => ?_⟩
    · cases next with
      | killpg _ living signalled own => exact ⟨living, ignores i signalled⟩
    · obtain ⟨living, ignoring⟩ := (alive_after_killpg next j).mp alive
      by_cases own : j = i
      · exact own
      · rw [default i rfl j own living] at ignoring
        cases ignoring

/-- **The invariant of the processes.** A worker in `kill_except` ignores the
signal; nobody is alive when the parent has returned; the parent is terminated by
the first signal. -/
structure GroupInv (callables : Fin n → AbstractCallable Object)
    (past : List (Group Object n × GroupEvent n)) (s : Group Object n) : Prop where
  ignores : ∀ i, (s.workers i).signalled = true → (s.workers i).ignoring = true
  last : s.parent = .returned → ∀ i, (s.workers i).phase ≠ .alive
  safe : EveryStep NoKillpg past ∧ Always ParentSafe past s ∨
    ¬ EveryStep NoKillpg past ∧ ¬ Always ParentSafe past s
  left : EveryStep (OneLeft callables) past ↔ EveryStep OthersDefault past

namespace GroupInv

theorem started (start : Group.Started callables s) : GroupInv callables [] s := by
  obtain ⟨running, _, workers⟩ := start
  refine ⟨fun i signalled => ?_, fun returned => ?_, .inl ⟨everyStep_nil _, fun _ member => ?_, ?_⟩,
    iff_of_true (everyStep_nil _) (everyStep_nil _)⟩
  · rw [(workers i).2] at signalled
    cases signalled
  · rw [running] at returned
    cases returned
  · exact absurd member List.not_mem_nil
  · rw [ParentSafe, running]
    exact fun same => by cases same

/-- A step keeps the record of the signals. -/
theorem step_left (inv : GroupInv callables past s) (step : s.Step callables event s') :
    EveryStep (OneLeft callables) (past ++ [(s, event)]) ↔
      EveryStep OthersDefault (past ++ [(s, event)]) := by
  rw [everyStep_snoc, everyStep_snoc, inv.left, oneLeft_iff step inv.ignores]

/-- A step that sends no signal leaves the parent safe if it was. -/
theorem step_safe (inv : GroupInv callables past s) (quiet : NoKillpg s event)
    (parent : s.parent ≠ .killed → s'.parent ≠ .killed) :
    EveryStep NoKillpg (past ++ [(s, event)]) ∧ Always ParentSafe (past ++ [(s, event)]) s' ∨
      ¬ EveryStep NoKillpg (past ++ [(s, event)]) ∧
        ¬ Always ParentSafe (past ++ [(s, event)]) s' := by
  rw [everyStep_snoc, always_snoc]
  rcases inv.safe with ⟨none, safe⟩ | ⟨sent, terminated⟩
  · exact .inl ⟨⟨none, quiet⟩, safe, parent safe.2⟩
  · exact .inr ⟨fun every => sent every.1, fun always => terminated always.1⟩

/-- A change of one worker that is alive. -/
theorem set (inv : GroupInv callables past s) {i : Fin n} {worker : Worker Object}
    (step : s.Step callables event (s.set i worker)) (quiet : NoKillpg s event)
    (alive : (s.workers i).phase = .alive)
    (ignores : worker.signalled = true → worker.ignoring = true) :
    GroupInv callables (past ++ [(s, event)]) (s.set i worker) := by
  refine ⟨fun j signalled => ?_, fun returned => ?_, inv.step_safe quiet id, inv.step_left step⟩
  · by_cases same : j = i
    · subst same
      rw [Group.workers_set_self] at signalled ⊢
      exact ignores signalled
    · rw [Group.workers_set_of_ne _ same] at signalled ⊢
      exact inv.ignores j signalled
  · exact absurd alive (inv.last returned i)

/-- **A step keeps the invariant.** -/
theorem step (inv : GroupInv callables past s) (step : s.Step callables event s') :
    GroupInv callables (past ++ [(s, event)]) s' := by
  have whole := step
  cases step with
  | fork i few running next =>
      refine ⟨fun j signalled => ?_, fun returned => ?_,
        inv.step_safe (fun _ same => by cases same) id, inv.step_left whole⟩
      · show (Function.update s.workers i _ j).ignoring = true
        change (Function.update s.workers i _ j).signalled = true at signalled
        by_cases same : j = i
        · subst same
          rw [Function.update_self] at signalled ⊢
          exact inv.ignores j signalled
        · rw [Function.update_of_ne same] at signalled ⊢
          exact inv.ignores j signalled
      · rw [running] at returned
        cases returned
  | run i alive outside own =>
      exact inv.set whole (fun _ same => by cases same) alive (inv.ignores i)
  | work i busy own => exact inv.set whole (fun _ same => by cases same) busy.1 (inv.ignores i)
  | checkNextSyncCall i busy own =>
      exact inv.set whole (fun _ same => by cases same) busy.1 (inv.ignores i)
  | signal i busy own => exact inv.set whole (fun _ same => by cases same) busy.1 fun _ => rfl
  | exit i busy own => exact inv.set whole (fun _ same => by cases same) busy.1 (inv.ignores i)
  | terminate i busy => exact inv.set whole (fun _ same => by cases same) busy.1 (inv.ignores i)
  | returns running all gone =>
      exact ⟨inv.ignores, fun _ => gone,
        inv.step_safe (fun _ same => by cases same) (fun _ same => by cases same),
        inv.step_left whole⟩
  | killpg i alive signalled own =>
      have terminated : ∀ worker, (s.set i worker).interrupt.parent = .killed := fun _ =>
        Group.parent_interrupt fun returned => inv.last returned i alive
      refine ⟨fun j signalled => ?_, fun returned => ?_, .inr ⟨fun every => ?_, fun always => ?_⟩,
        inv.step_left whole⟩
      · rw [Group.interrupt, Worker.interrupt_signalled] at signalled
        rw [Group.interrupt, Worker.interrupt_ignoring]
        by_cases same : j = i
        · rw [same, Group.workers_set_self] at signalled
          cases signalled
        · rw [Group.workers_set_of_ne _ same] at signalled ⊢
          exact inv.ignores j signalled
      · rw [terminated] at returned
        cases returned
      · exact (everyStep_snoc.mp every).2 i rfl
      · exact (always_snoc.mp always).2 (terminated _)

end GroupInv

/-- **The signal of a `kill_except` always terminates the parent.** No signal
terminates the parent and each leaves exactly one worker alive, exactly as long
as none is sent. A signal that is sent leaves one worker alive exactly when all
other workers alive had the default action. -/
theorem killExcept_iff (trace : Trace (Group.Step callables) (Group.Started callables) past s) :
    (Always ParentSafe past s ∧ EveryStep (OneLeft callables) past ↔ EveryStep NoKillpg past) ∧
      (EveryStep (OneLeft callables) past ↔ EveryStep OthersDefault past) := by
  have inv : GroupInv callables past s := trace.invariant (GroupInv callables)
    (fun _ => GroupInv.started) fun _ _ _ _ inv next => inv.step next
  refine ⟨⟨fun both => ?_, fun none => ?_⟩, inv.left⟩
  · rcases inv.safe with ⟨none, _⟩ | ⟨_, terminated⟩
    · exact none
    · exact absurd both.1 terminated
  · rcases inv.safe with ⟨_, safe⟩ | ⟨sent, _⟩
    · refine ⟨safe, fun entry member i same => ?_⟩
      exact absurd same (none entry member i)
    · exact absurd none sent

end Theorems

/-! ## Two workers -/

/-- Workers with a fresh `Callable` each. -/
def twoCallables : Fin 2 → AbstractCallable (State Unit Unit Unit) :=
  fun _ => .ofClass (.callable ())

def freshWorker : Worker (State Unit Unit Unit) :=
  ⟨.absent, ⟨(Fields.make true).setSigHandler (some ()), .idle⟩, false, false, false⟩

/-- A worker that is forked and fails. -/
theorem killExcept_iff_rejected :
    ∃ (past : List (Group (State Unit Unit Unit) 2 × GroupEvent 2))
      (s : Group (State Unit Unit Unit) 2),
      Trace (Group.Step twoCallables) (Group.Started twoCallables) past s ∧ past ≠ [] ∧
        Always ParentSafe past s ∧ EveryStep (OneLeft twoCallables) past := by
  have start : Trace (Group.Step twoCallables) (Group.Started twoCallables) []
      ⟨.running, 2, fun _ => freshWorker⟩ := .start ⟨rfl, rfl, fun _ => ⟨⟨true, rfl⟩, rfl⟩⟩
  have trace := start
    |>.snoc (.fork 1 rfl rfl rfl)
    |>.snoc (.run 1 rfl rfl (.inr (.run _ rfl)))
    |>.snoc (.work 1 ⟨rfl, rfl, rfl⟩ ⟨_, .call _ () (), .inr (.call _ ())⟩)
    |>.snoc (.work 1 ⟨rfl, rfl, rfl⟩ ⟨_, .resultChecker _ () false, .inr (.rejected _ () rfl)⟩)
    |>.snoc (.exit 1 ⟨rfl, rfl, rfl⟩ ⟨rfl, rfl⟩)
  refine ⟨_, _, trace, List.append_ne_nil_of_right_ne_nil _ (List.cons_ne_nil _ _),
    (killExcept_iff trace).1.mpr ?_⟩
  simp only [everyStep_snoc]
  refine ⟨⟨⟨⟨⟨everyStep_nil _, ?_⟩, ?_⟩, ?_⟩, ?_⟩, ?_⟩ <;> exact fun _ same => by cases same

/-- **The parent is terminated and two workers are left.** Both workers succeed and
ignore the signal; then one of them sends it. -/
theorem parent_terminated :
    ∃ (past : List (Group (State Unit Unit Unit) 2 × GroupEvent 2))
      (s : Group (State Unit Unit Unit) 2),
      Trace (Group.Step twoCallables) (Group.Started twoCallables) past s ∧
        s.parent = .killed ∧ (∀ i, (s.workers i).phase = .alive) ∧
        ¬ (Always ParentSafe past s ∧ EveryStep (OneLeft twoCallables) past) := by
  have start : Trace (Group.Step twoCallables) (Group.Started twoCallables) []
      ⟨.running, 2, fun _ => freshWorker⟩ := .start ⟨rfl, rfl, fun _ => ⟨⟨true, rfl⟩, rfl⟩⟩
  have trace := start
    |>.snoc (.fork 1 rfl rfl rfl)
    |>.snoc (.fork 0 rfl rfl rfl)
    |>.snoc (.run 0 rfl rfl (.inr (.run _ rfl)))
    |>.snoc (.run 1 rfl rfl (.inr (.run _ rfl)))
    |>.snoc (.work 0 ⟨rfl, rfl, rfl⟩ ⟨_, .call _ () (), .inr (.call _ ())⟩)
    |>.snoc (.work 1 ⟨rfl, rfl, rfl⟩ ⟨_, .call _ () (), .inr (.call _ ())⟩)
    |>.snoc (.work 0 ⟨rfl, rfl, rfl⟩ ⟨_, .resultChecker _ () true, .inr (.accepted _ () rfl)⟩)
    |>.snoc (.work 1 ⟨rfl, rfl, rfl⟩ ⟨_, .resultChecker _ () true, .inr (.accepted _ () rfl)⟩)
    |>.snoc (.signal 0 ⟨rfl, rfl, rfl⟩ ⟨_, .inr (.handleSuccess _ () rfl)⟩)
    |>.snoc (.signal 1 ⟨rfl, rfl, rfl⟩ ⟨_, .inr (.handleSuccess _ () rfl)⟩)
    |>.snoc (.killpg 1 rfl rfl (.inr (.handleSuccess _ () rfl)))
  refine ⟨_, _, trace, rfl, fun i => ?_, fun both => ?_⟩
  · rcases Fin.exists_fin_two.mp ⟨i, rfl⟩ with same | same <;> subst same <;> rfl
  · exact both.1.2 rfl

end ParallelLabs.Runners
