import ParallelLabs.Callables.Abstract
import ParallelLabs.Library.Runs
import ParallelLabs.Runners.Output
import ParallelLabs.SharedMemory.Mapping
import Mathlib.Logic.Function.Basic

/-!
# Runners that share the stop flag

Every handler of a process uses the one mapping of the class. The constructor of
a handler makes a new mapping if no handler exists, and the destructors only count
down. A runner constructs a handler for each callable that it is given, and they
are destroyed with the runner.

So the flag is clean when a search begins only if all handlers were destroyed
since the last success. A check that finds the flag set is right if a worker of
the current run has set it, and wrong if it was set before: the checks are right
exactly as long as none is made in a run that began with the flag set and has had
no success yet (`justified_iff`).
-/

set_option autoImplicit false

namespace ParallelLabs.SharedMemory

open Library Callables

/-- The two runners that can use a `SharedMemorySystemInterrupter`. -/
inductive Kind where
  | process
  | thread
  deriving DecidableEq, Repr

/-- A runner and its callables. -/
structure Runner where
  kind : Kind
  proccesses : List Nat
  deriving DecidableEq, Repr

/-- A worker that has not started, that is in `run` of its callable, or is over. -/
inductive WorkerPhase where
  | absent
  | inside
  | done
  deriving DecidableEq, Repr

/-- The current run: the callables that its workers have, and how far each worker
is. It also records whether a worker has called `handle_success`, and whether one
of an earlier run had done so on the same mapping. -/
structure Current (Object : Type) where
  runner : Nat
  objects : Nat → Object
  phases : Nat → WorkerPhase
  succeeded : Bool
  signalledBefore : Bool

/-- The run after a step of a worker. -/
def Current.advance {Object : Type} (run : Current Object) (k : Nat) (object : Object)
    (phase : WorkerPhase) : Current Object :=
  { run with
    objects := Function.update run.objects k object
    phases := Function.update run.phases k phase }

@[simp] theorem Current.objects_advance_self {Object : Type} (run : Current Object) (k : Nat)
    (object : Object) (phase : WorkerPhase) : (run.advance k object phase).objects k = object :=
  Function.update_self _ _ _

/-- The process: the static members of the interrupter, the runners, the
callables, and those added to a runner. It also records whether `handle_success`
has been called since the mapping was made. -/
structure Host (Object : Type) where
  counter : Int
  sharedMem : Option Memory
  runners : Nat → Option Runner
  objects : Nat → Object
  added : Nat → Bool
  current : Option (Current Object)
  signalled : Bool

inductive Use where
  | create (runner : Nat) (kind : Kind)
  | add (runner callable : Nat)
  | destroy (runner : Nat)
  | run (runner : Nat)
  | start (callable : Nat)
  | work (callable : Nat)
  | checkNextSyncCall (callable : Nat) (answer : Bool)
  | handleSuccess (callable : Nat)
  | finish (callable : Nat)
  | returns
  deriving DecidableEq, Repr

/-- The use that is an act of a callable. -/
def Use.ofAct (k : Nat) : Act → Use
  | .run => .start k
  | .work => .work k
  | .checkNextSyncCall answer => .checkNextSyncCall k answer
  | .handleSuccess => .handleSuccess k
  | .returns => .finish k

namespace Host

variable {Object : Type}

/-- The constructor of a handler. -/
def construct (h : Host Object) : Host Object :=
  if h.counter = 0 then
    { h with sharedMem := some createSharedMemory, signalled := false, counter := h.counter + 1 }
  else { h with counter := h.counter + 1 }

@[simp] theorem current_construct (h : Host Object) : h.construct.current = h.current := by
  rw [construct]
  split <;> rfl

/-- `add` of a runner, after the construction of the handler. -/
def record (h : Host Object) (r k : Nat) (runner : Runner) : Host Object :=
  { h with
    runners := Function.update h.runners r
      (some { runner with proccesses := runner.proccesses ++ [k] })
    added := Function.update h.added k true }

/-- The runner is destroyed with its callables and their handlers. -/
def destroy (h : Host Object) (r : Nat) (runner : Runner) : Host Object :=
  { h with
    runners := Function.update h.runners r none
    counter := h.counter - runner.proccesses.length }

/-- A run begins. -/
def enter (h : Host Object) (r : Nat) : Host Object :=
  { h with current := some ⟨r, h.objects, fun _ => .absent, false, h.signalled⟩ }

/-- A worker of the current run takes a step. -/
def advance (h : Host Object) (run : Current Object) (k : Nat) (object : Object)
    (phase : WorkerPhase) : Host Object :=
  { h with
    current := some { run with
      objects := Function.update run.objects k object
      phases := Function.update run.phases k phase } }

/-- A worker calls `handle_success`. -/
def signal (h : Host Object) (run : Current Object) (k : Nat) (object : Object)
    (memory : Memory) : Host Object :=
  { h.advance { run with succeeded := true } k object .inside with
    sharedMem := some (SharedMemory.handleSuccess memory)
    signalled := true }

/-- The run is over. The workers of a process runner had copies of the callables. -/
def leave (h : Host Object) (run : Current Object) (kind : Kind) : Host Object :=
  { h with
    objects := match kind with
      | .process => h.objects
      | .thread => run.objects
    current := none }

/-- The worker of a callable is at a phase of the current run. -/
structure At (h : Host Object) (run : Current Object) (runner : Runner) (k : Nat)
    (phase : WorkerPhase) : Prop where
  current : h.current = some run
  there : h.runners run.runner = some runner
  member : k ∈ runner.proccesses
  few : Runners.launches runner.proccesses.length = true
  phase : run.phases k = phase

inductive Step (callables : Nat → AbstractCallable Object) (h : Host Object) :
    Use → Host Object → Prop where
  | create (r : Nat) (kind : Kind) (between : h.current = none) (new : h.runners r = none) :
      Step callables h (.create r kind)
        { h with runners := Function.update h.runners r (some ⟨kind, []⟩) }
  /-- A callable is owned, and in the end deleted, by one runner. -/
  | add (r k : Nat) {runner : Runner} (between : h.current = none)
      (there : h.runners r = some runner) (new : h.added k = false) :
      Step callables h (.add r k) (h.construct.record r k runner)
  | destroy (r : Nat) {runner : Runner} (between : h.current = none)
      (there : h.runners r = some runner) :
      Step callables h (.destroy r) (h.destroy r runner)
  | run (r : Nat) {runner : Runner} (between : h.current = none)
      (there : h.runners r = some runner) :
      Step callables h (.run r) (h.enter r)
  | start (k : Nat) {run : Current Object} {runner : Runner} {object : Object}
      (here : h.At run runner k .absent)
      (own : (callables k).step (run.objects k) .run object) :
      Step callables h (.start k) (h.advance run k object .inside)
  | work (k : Nat) {run : Current Object} {runner : Runner} {object : Object}
      (here : h.At run runner k .inside)
      (own : (callables k).step (run.objects k) .work object) :
      Step callables h (.work k) (h.advance run k object .inside)
  | checkNextSyncCall (k : Nat) {run : Current Object} {runner : Runner} {object : Object}
      {memory : Memory} {answer : Bool} (here : h.At run runner k .inside)
      (mapped : h.sharedMem = some memory)
      (compared : SharedMemory.checkNextSyncCall memory = answer)
      (own : (callables k).step (run.objects k) (.checkNextSyncCall answer) object) :
      Step callables h (.checkNextSyncCall k answer) (h.advance run k object .inside)
  | handleSuccess (k : Nat) {run : Current Object} {runner : Runner} {object : Object}
      {memory : Memory} (here : h.At run runner k .inside) (mapped : h.sharedMem = some memory)
      (own : (callables k).step (run.objects k) .handleSuccess object) :
      Step callables h (.handleSuccess k) (h.signal run k object memory)
  | finish (k : Nat) {run : Current Object} {runner : Runner} {object : Object}
      (here : h.At run runner k .inside)
      (own : (callables k).step (run.objects k) .returns object) :
      Step callables h (.finish k) (h.advance run k object .done)
  /-- An exception leaves the callable, and its process ends. -/
  | terminate (k : Nat) {run : Current Object} {runner : Runner}
      (here : h.At run runner k .inside) (process : runner.kind = .process) :
      Step callables h (.finish k) (h.advance run k (run.objects k) .done)
  /-- All workers are over, if any were started. -/
  | returns {run : Current Object} {runner : Runner} (running : h.current = some run)
      (there : h.runners run.runner = some runner)
      (ended : Runners.launches runner.proccesses.length = true → ∀ k ∈ runner.proccesses,
        run.phases k = .done) :
      Step callables h .returns (h.leave run runner.kind)

/-! ### Steps of one worker -/

section OneWorker

variable {callables : Nat → AbstractCallable Object} {h : Host Object} {run : Current Object}
  {runner : Runner} {k : Nat} {phase : WorkerPhase}

theorem advance_advance (object object' : Object) (phase phase' : WorkerPhase) :
    (h.advance run k object phase).advance (run.advance k object phase) k object' phase' =
      h.advance run k object' phase' := by
  simp only [advance, Current.advance, Function.update_idem]

theorem At.advance (here : h.At run runner k phase) (object : Object) (phase' : WorkerPhase) :
    (h.advance run k object phase').At (run.advance k object phase') runner k phase' :=
  ⟨rfl, here.there, here.member, here.few, Function.update_self _ _ _⟩

theorem At.signal (here : h.At run runner k phase) (object : Object) (memory : Memory) :
    (h.signal run k object memory).At ({ run with succeeded := true }.advance k object .inside)
      runner k .inside :=
  ⟨rfl, here.there, here.member, here.few, Function.update_self _ _ _⟩

/-- The worker of a runner with one callable. -/
theorem At.only {kind : Kind} (current : h.current = some run)
    (there : h.runners run.runner = some ⟨kind, [k]⟩) (now : run.phases k = phase) :
    h.At run ⟨kind, [k]⟩ k phase :=
  ⟨current, there, List.mem_singleton_self k, by rw [List.length_singleton]; rfl, now⟩

/-- An act of a callable that leaves the flag alone. -/
def Quiet (memory : Memory) (_ : Object) (act : Act) : Prop :=
  act = .work ∨ act = .checkNextSyncCall (SharedMemory.checkNextSyncCall memory)

/-- **The steps of a callable are steps of its worker.** -/
theorem At.path {memory : Memory} {object object' : Object} {acts : List Act}
    (here : h.At run runner k phase) (mapped : h.sharedMem = some memory)
    (path : Path (Meeting (callables k).step (Quiet memory)) object acts object') :
    Path (Step callables) (h.advance run k object .inside) (acts.map (Use.ofAct k))
      (h.advance run k object' .inside) := by
  induction path with
  | done object => exact .done _
  | @cons object next _ act _ step _ ih =>
      obtain ⟨own, quiet⟩ := step
      have now := here.advance object .inside
      rw [← run.objects_advance_self k object .inside] at own
      refine .cons ?_ ih
      rw [← advance_advance object next .inside .inside]
      rcases quiet with rfl | rfl
      · exact .work k now own
      · exact .checkNextSyncCall k now mapped rfl own

/-- The only worker of a run returns, and the run with it. -/
theorem At.return_path {object : Object} (here : h.At run ⟨.thread, [k]⟩ k .inside)
    (own : (callables k).step (run.objects k) .returns object) :
    Path (Step callables) h [.finish k, .returns]
      ((h.advance run k object .done).leave (run.advance k object .done) .thread) := by
  have ended : ∀ j ∈ [k], (run.advance k object .done).phases j = .done := by
    intro j member
    rw [List.mem_singleton.mp member]
    exact (here.advance object .done).phase
  exact .cons (.finish k here own) (.cons (.returns rfl here.there fun _ => ended) (.done _))

end OneWorker

/-- A process in which no runner exists yet. -/
def Started (callables : Nat → AbstractCallable Object) (h : Host Object) : Prop :=
  h.counter = 0 ∧ h.sharedMem = none ∧ (∀ r, h.runners r = none) ∧
    (∀ k, (callables k).initial (h.objects k)) ∧ (∀ k, h.added k = false) ∧
    h.current = none ∧ h.signalled = false

end Host

section Theorems

variable {Object : Type} {callables : Nat → AbstractCallable Object} {h h' : Host Object}
  {use : Use} {past : List (Host Object × Use)}

/-- A check returns false only if a worker has called `handle_success` since the
current run began. -/
def Justified (h : Host Object) (use : Use) : Prop :=
  ∀ k, use = .checkNextSyncCall k false → ∀ run, h.current = some run → run.succeeded = true

/-- A check is made in a run that has had a success, or that began before any
`handle_success` was called on the mapping. -/
def InTime (h : Host Object) (use : Use) : Prop :=
  ∀ k answer, use = .checkNextSyncCall k answer → ∀ run, h.current = some run →
    run.succeeded = true ∨ run.signalledBefore = false

/-- The mapping without and with the message. -/
def flag (signalled : Bool) : Memory :=
  if signalled then handleSuccess createSharedMemory else createSharedMemory

theorem handleSuccess_flag (signalled : Bool) : handleSuccess (flag signalled) = flag true := by
  funext i
  cases signalled with
  | false => rfl
  | true =>
      show handleSuccess (handleSuccess createSharedMemory) i = handleSuccess createSharedMemory i
      rw [handleSuccess_apply, handleSuccess_apply]
      split <;> rfl

theorem checkNextSyncCall_flag (signalled : Bool) :
    checkNextSyncCall (flag signalled) = !signalled := by
  cases signalled with
  | false => exact checkNextSyncCall_createSharedMemory
  | true => exact checkNextSyncCall_handleSuccess rfl

/-- **The invariant of the process.** The mapping has the message if and only if
`handle_success` has been called since it was made, which was before the current
run or in it. -/
structure HostInv (past : List (Host Object × Use)) (h : Host Object) : Prop where
  memory : ∀ memory, h.sharedMem = some memory → memory = flag h.signalled
  current : ∀ run, h.current = some run →
    h.signalled = (run.signalledBefore || run.succeeded)
  checks : EveryStep Justified past ↔ EveryStep InTime past

namespace HostInv

theorem started (start : Host.Started callables h) : HostInv [] h := by
  obtain ⟨_, unmapped, _, _, _, idle, _⟩ := start
  refine ⟨fun memory mapped => ?_, fun run running => ?_,
    iff_of_true (everyStep_nil _) (everyStep_nil _)⟩
  · rw [unmapped] at mapped
    cases mapped
  · rw [idle] at running
    cases running

/-- A step other than a check. -/
theorem append (inv : HostInv past h) (other : ∀ k answer, use ≠ .checkNextSyncCall k answer) :
    EveryStep Justified (past ++ [(h, use)]) ↔ EveryStep InTime (past ++ [(h, use)]) := by
  rw [everyStep_snoc, everyStep_snoc, inv.checks]
  refine and_congr_right fun _ => iff_of_true (fun k same => ?_) fun k answer same => ?_
  · exact absurd same (other k false)
  · exact absurd same (other k answer)

/-- **A check is justified** exactly when it is made in time. -/
theorem justified_iff_inTime (inv : HostInv past h) {k : Nat} {memory : Memory} {answer : Bool}
    (mapped : h.sharedMem = some memory) (compared : checkNextSyncCall memory = answer) :
    Justified h (.checkNextSyncCall k answer) ↔ InTime h (.checkNextSyncCall k answer) := by
  rw [inv.memory memory mapped, checkNextSyncCall_flag] at compared
  subst compared
  constructor
  · intro justified k' answer' same run running
    cases before : run.signalledBefore with
    | false => exact .inr rfl
    | true =>
        have set : h.signalled = true := by rw [inv.current run running, before, Bool.true_or]
        exact .inl (justified k (by rw [set]; rfl) run running)
  · intro inTime k' same run running
    have set : h.signalled = true :=
      (Bool.not_eq_false' ..).mp (Use.checkNextSyncCall.inj same).2
    rw [inv.current run running] at set
    rcases inTime k _ rfl run running with succeeded | clean
    · exact succeeded
    · rwa [clean, Bool.false_or] at set

/-- A step of a worker other than `handle_success`. -/
theorem advance (inv : HostInv past h) {run : Current Object} (running : h.current = some run)
    (k : Nat) (object : Object) (phase : WorkerPhase)
    (checks : EveryStep Justified (past ++ [(h, use)]) ↔ EveryStep InTime (past ++ [(h, use)])) :
    HostInv (past ++ [(h, use)]) (h.advance run k object phase) := by
  refine ⟨inv.memory, fun run' running' => ?_, checks⟩
  rw [← Option.some.inj running']
  exact inv.current run running

/-- A handler is constructed on a new mapping or on the one there is. -/
theorem memory_construct (inv : HostInv past h) (memory : Memory)
    (mapped : h.construct.sharedMem = some memory) : memory = flag h.construct.signalled := by
  by_cases empty : h.counter = 0
  · rw [Host.construct, if_pos empty] at mapped ⊢
    exact (Option.some.inj mapped).symm
  · rw [Host.construct, if_neg empty] at mapped ⊢
    exact inv.memory memory mapped

/-- **A step keeps the invariant.** -/
theorem step (inv : HostInv past h) (step : h.Step callables use h') :
    HostInv (past ++ [(h, use)]) h' := by
  cases step with
  | create r kind between new =>
      exact ⟨inv.memory, inv.current, inv.append fun _ _ same => by cases same⟩
  | add r k between there new =>
      refine ⟨fun memory mapped => ?_, fun run running => ?_,
        inv.append fun _ _ same => by cases same⟩
      · exact inv.memory_construct memory mapped
      · rw [Host.record, Host.current_construct, between] at running
        cases running
  | destroy r between there =>
      exact ⟨inv.memory, inv.current, inv.append fun _ _ same => by cases same⟩
  | run r between there =>
      refine ⟨inv.memory, fun run running => ?_, inv.append fun _ _ same => by cases same⟩
      cases running
      exact (Bool.or_false _).symm
  | start k here own =>
      exact inv.advance here.current _ _ _ (inv.append fun _ _ same => by cases same)
  | work k here own =>
      exact inv.advance here.current _ _ _ (inv.append fun _ _ same => by cases same)
  | checkNextSyncCall k here mapped compared own =>
      refine inv.advance here.current _ _ _ ?_
      rw [everyStep_snoc, everyStep_snoc, inv.checks, inv.justified_iff_inTime mapped compared]
  | handleSuccess k here mapped own =>
      refine ⟨fun memory' mapped' => ?_, fun run running => ?_, inv.append fun _ _ same => by
        cases same⟩
      · cases mapped'
        rw [inv.memory _ mapped, handleSuccess_flag]
        rfl
      · cases running
        exact (Bool.or_true _).symm
  | finish k here own =>
      exact inv.advance here.current _ _ _ (inv.append fun _ _ same => by cases same)
  | terminate k here process =>
      exact inv.advance here.current _ _ _ (inv.append fun _ _ same => by cases same)
  | returns running there ended =>
      refine ⟨inv.memory, fun _ none => ?_, inv.append fun _ _ same => by cases same⟩
      cases none

end HostInv

/-- **The stop flag of a run is its own** exactly as long as every check is made
in a run that has had a success, or that began before any `handle_success` was
called on the mapping. -/
theorem justified_iff (trace : Trace (Host.Step callables) (Host.Started callables) past h) :
    EveryStep Justified past ↔ EveryStep InTime past := by
  have inv : HostInv past h := trace.invariant HostInv (fun _ => HostInv.started)
    fun _ _ _ _ inv next => inv.step next
  exact inv.checks

end Theorems

/-! ## Searches one after the other -/

/-- Every callable is a `MapCallable`. -/
def mapCallables : Nat → AbstractCallable (State Unit Unit Unit) :=
  fun _ => .ofClass .mapCallable

/-- The fields of a new callable that was added to a runner. -/
def addedFields : Fields Unit Unit := (Fields.make true).setSigHandler (some ())

/-- A process in which no runner exists yet. -/
def freshHost : Host (State Unit Unit Unit) :=
  ⟨0, none, fun _ => none, fun _ => ⟨(Fields.make true).setSigHandler (some ()), .idle⟩,
    fun _ => false, none, false⟩

theorem freshHost_started : freshHost.Started mapCallables :=
  ⟨rfl, rfl, fun _ => rfl, fun _ => ⟨true, rfl⟩, fun _ => rfl, rfl, rfl⟩

/-- A search whose second check finds the success of its other worker. -/
theorem justified_iff_single :
    ∃ (past : List (Host (State Unit Unit Unit) × Use)) (h : Host (State Unit Unit Unit)),
      Trace (Host.Step mapCallables) (Host.Started mapCallables) past h ∧
        (∃ entry ∈ past, entry.2 = .checkNextSyncCall 1 false) ∧ EveryStep Justified past := by
  have start : Trace (Host.Step mapCallables) (Host.Started mapCallables) [] freshHost :=
    .start freshHost_started
  have trace := start
    |>.snoc (.create 0 .thread rfl rfl)
    |>.snoc (.add 0 0 rfl rfl rfl)
    |>.snoc (.add 0 1 rfl rfl rfl)
    |>.snoc (.run 0 rfl rfl)
    |>.snoc (.start 0 ⟨rfl, rfl, by decide, by decide, rfl⟩ (.inr (.run _ rfl)))
    |>.snoc (.work 0 ⟨rfl, rfl, by decide, by decide, rfl⟩ ⟨_, .hasNext true, .inr (.more _)⟩)
    |>.snoc (.work 0 ⟨rfl, rfl, by decide, by decide, rfl⟩ ⟨_, .next (), .inr (.next _ ())⟩)
    |>.snoc (.checkNextSyncCall 0 ⟨rfl, rfl, by decide, by decide, rfl⟩ rfl
      checkNextSyncCall_createSharedMemory (.inr (.goOn _ () () rfl)))
    |>.snoc (.work 0 ⟨rfl, rfl, by decide, by decide, rfl⟩ ⟨_, .call _ () (), .inr (.call _ () ())⟩)
    |>.snoc (.work 0 ⟨rfl, rfl, by decide, by decide, rfl⟩
      ⟨_, .resultChecker _ () true, .inr (.accepted _ () rfl)⟩)
    |>.snoc (.handleSuccess 0 ⟨rfl, rfl, by decide, by decide, rfl⟩ rfl
      (.inr (.handleSuccess _ () rfl)))
    |>.snoc (.start 1 ⟨rfl, rfl, by decide, by decide, rfl⟩ (.inr (.run _ rfl)))
    |>.snoc (.work 1 ⟨rfl, rfl, by decide, by decide, rfl⟩ ⟨_, .hasNext true, .inr (.more _)⟩)
    |>.snoc (.work 1 ⟨rfl, rfl, by decide, by decide, rfl⟩ ⟨_, .next (), .inr (.next _ ())⟩)
    |>.snoc (.checkNextSyncCall 1 ⟨rfl, rfl, by decide, by decide, rfl⟩ rfl
      (checkNextSyncCall_handleSuccess rfl) (.inr (.stop _ () () rfl)))
  refine ⟨_, _, trace, ⟨_, List.mem_append_right _ (List.mem_singleton_self _), rfl⟩,
    (justified_iff trace).mpr ?_⟩
  repeat' first | exact everyStep_nil _ | refine everyStep_snoc.mpr ⟨?_, ?_⟩
  all_goals
    intro k answer same run running
    first
      | exact .inr (by rw [← Option.some.inj running]; rfl)
      | cases same

/-- The runner that a use runs. -/
def Use.runs : Use → Option Nat
  | .run r => some r
  | _ => none

/-- The runners that were run, in order. -/
def runsOf {Object : Type} (past : List (Host Object × Use)) : List Nat :=
  past.filterMap fun entry => match entry.2 with
    | .run r => some r
    | _ => none

theorem runsOf_snoc_run {Object : Type} (past : List (Host Object × Use)) (h : Host Object)
    (r : Nat) : runsOf (past ++ [(h, .run r)]) = runsOf past ++ [r] := by
  rw [runsOf, List.filterMap_append]
  rfl

/-- The runs are seen in the uses. -/
theorem runsOf_of_uses {Object : Type} {past later : List (Host Object × Use)} {uses : List Use}
    (same : later.map Prod.snd = past.map Prod.snd ++ uses) :
    runsOf later = runsOf past ++ uses.filterMap Use.runs := by
  have seen : ∀ past : List (Host Object × Use),
      runsOf past = (past.map Prod.snd).filterMap Use.runs := by
    intro past
    rw [List.filterMap_map]
    rfl
  rw [seen, seen, same, List.filterMap_append]

section Searches

variable {past : List (Host (State Unit Unit Unit) × Use)} {h : Host (State Unit Unit Unit)}
  {run : Current (State Unit Unit Unit)} {k : Nat} {f : Fields Unit Unit}
  {memory : Memory}

/-- A `MapCallable` whose generator yields, up to its first check. -/
theorem firstCheck_path : Path (Meeting (mapCallables k).step (Host.Quiet memory)) ⟨f, .test⟩
    [.work, .work] ⟨f, .poll ()⟩ :=
  .cons ⟨⟨_, .hasNext true, .inr (.more f)⟩, .inl rfl⟩
    (.cons ⟨⟨_, .next (), .inr (.next f ())⟩, .inl rfl⟩ (.done _))

/-- From a check that says go on to a success. -/
theorem hit_path (goesOn : checkNextSyncCall memory = true) :
    Path (Meeting (mapCallables k).step (Host.Quiet memory)) ⟨addedFields, .poll ()⟩
      [.checkNextSyncCall true, .work, .work] ⟨(addedFields.store ()).accept, .notify⟩ := by
  refine .cons ⟨.inr (.goOn addedFields () () rfl), .inr (by rw [goesOn])⟩ ?_
  refine .cons ⟨⟨_, .call _ () (), .inr (.call addedFields () ())⟩, .inl rfl⟩ ?_
  exact .cons ⟨⟨_, .resultChecker _ () true, .inr (.accepted _ () rfl)⟩, .inl rfl⟩ (.done _)

/-- A run of a thread runner with one new callable, on a clean mapping: its worker has
a success. -/
theorem exists_search
    (trace : Trace (Host.Step mapCallables) (Host.Started mapCallables) past h)
    (here : h.At run ⟨.thread, [k]⟩ k .absent)
    (object : run.objects k = ⟨addedFields, .idle⟩)
    (mapped : h.sharedMem = some createSharedMemory) :
    ∃ later h', Trace (Host.Step mapCallables) (Host.Started mapCallables) later h' ∧
      runsOf later = runsOf past ∧ h'.current = none ∧ h'.runners = h.runners ∧
      h'.sharedMem = some (handleSuccess createSharedMemory) ∧
      h'.objects = Function.update run.objects k ⟨(addedFields.store ()).accept, .idle⟩ := by
  have starts : h.Step mapCallables (.start k) (h.advance run k ⟨addedFields, .test⟩ .inside) :=
    .start k here (by rw [object]; exact .inr (.run addedFields rfl))
  have works : Path (Host.Step mapCallables) (h.advance run k ⟨addedFields, .test⟩ .inside)
      [.work k, .work k, .checkNextSyncCall k true, .work k, .work k]
      (h.advance run k ⟨(addedFields.store ()).accept, .notify⟩ .inside) :=
    here.path mapped (firstCheck_path.append (hit_path checkNextSyncCall_createSharedMemory))
  have notifying := here.advance ⟨(addedFields.store ()).accept, .notify⟩ .inside
  have notifies : Host.Step mapCallables _ (.handleSuccess k) _ := .handleSuccess k notifying mapped
    (by rw [Current.objects_advance_self]; exact .inr (.handleSuccess _ () rfl))
  have returns : Path (Host.Step mapCallables) _ [.finish k, .returns] _ :=
    (notifying.signal ⟨(addedFields.store ()).accept, .idle⟩ createSharedMemory).return_path
      (by rw [Current.objects_advance_self]; exact ⟨rfl, rfl⟩)
  obtain ⟨later, trace', uses⟩ :=
    trace.append (.cons starts (works.append (.cons notifies returns)))
  refine ⟨later, _, trace', (runsOf_of_uses uses).trans (List.append_nil _), rfl, rfl, rfl, ?_⟩
  simp only [Host.leave, Current.advance, Function.update_idem]

/-- A worker of a run that began with the flag set is stopped at its first check. -/
theorem exists_unjustified {runner : Runner}
    (trace : Trace (Host.Step mapCallables) (Host.Started mapCallables) past h)
    (here : h.At run runner k .absent) (object : run.objects k = ⟨f, .idle⟩)
    (set : f.sighandlerSet = true) (handler : f.sighandler = some ())
    (mapped : h.sharedMem = some memory) (stops : checkNextSyncCall memory = false)
    (fresh : run.succeeded = false) :
    ∃ later h', Trace (Host.Step mapCallables) (Host.Started mapCallables) later h' ∧
      runsOf later = runsOf past ∧ ¬ EveryStep Justified later := by
  have starts : h.Step mapCallables (.start k) (h.advance run k ⟨f, .test⟩ .inside) :=
    .start k here (by rw [object]; exact .inr (.run f set))
  have works : Path (Host.Step mapCallables) (h.advance run k ⟨f, .test⟩ .inside)
      [.work k, .work k] (h.advance run k ⟨f, .poll ()⟩ .inside) := here.path mapped firstCheck_path
  obtain ⟨later, trace', uses⟩ := trace.append (.cons starts works)
  have checks : Host.Step mapCallables _ (.checkNextSyncCall k false) _ :=
    .checkNextSyncCall k (here.advance ⟨f, .poll ()⟩ .inside) mapped stops
      (by rw [Current.objects_advance_self]; exact .inr (.stop f () () handler))
  refine ⟨_, _, trace'.snoc checks, ?_, fun every => ?_⟩
  · rw [runsOf, List.filterMap_append]
    exact (List.append_nil _).trans ((runsOf_of_uses uses).trans (List.append_nil _))
  · have succeeded := (everyStep_snoc.mp every).2 k rfl _ rfl
    exact Bool.false_ne_true (fresh.symm.trans succeeded)

end Searches

/-- **A search is stopped by an earlier one.** A runner is run a second time after
a success; and a second runner is run after a success of the first, which still
exists. Both times a worker is stopped at its first check. -/
theorem stopped_by_earlier_search :
    (∃ (past : List (Host (State Unit Unit Unit) × Use)) (h : Host (State Unit Unit Unit)),
      Trace (Host.Step mapCallables) (Host.Started mapCallables) past h ∧
        runsOf past = [0, 0] ∧ ¬ EveryStep Justified past) ∧
    ∃ (past : List (Host (State Unit Unit Unit) × Use)) (h : Host (State Unit Unit Unit)),
      Trace (Host.Step mapCallables) (Host.Started mapCallables) past h ∧
        runsOf past = [0, 1] ∧ ¬ EveryStep Justified past := by
  have start : Trace (Host.Step mapCallables) (Host.Started mapCallables) [] freshHost :=
    .start freshHost_started
  constructor
  · have trace := start
      |>.snoc (.create 0 .thread rfl rfl)
      |>.snoc (.add 0 0 rfl rfl rfl)
      |>.snoc (.run 0 rfl rfl)
    obtain ⟨past, h, trace', first, between, runners, mapped, objects⟩ :=
      exists_search trace (.only rfl rfl rfl) rfl rfl
    have there : h.runners 0 = some ⟨.thread, [0]⟩ := by rw [runners]; rfl
    obtain ⟨later, h', trace'', runs, unjustified⟩ :=
      exists_unjustified (trace'.snoc (.run 0 between there)) (.only rfl there rfl)
        ((congrFun objects 0).trans (Function.update_self _ _ _)) rfl rfl mapped
        (checkNextSyncCall_handleSuccess rfl) rfl
    refine ⟨later, h', trace'', ?_, unjustified⟩
    rw [runs, runsOf_snoc_run, first]
    rfl
  · have trace := start
      |>.snoc (.create 0 .thread rfl rfl)
      |>.snoc (.create 1 .thread rfl rfl)
      |>.snoc (.add 0 0 rfl rfl rfl)
      |>.snoc (.add 1 1 rfl rfl rfl)
      |>.snoc (.run 0 rfl rfl)
    obtain ⟨past, h, trace', first, between, runners, mapped, objects⟩ :=
      exists_search trace (.only rfl rfl rfl) rfl rfl
    have there : h.runners 1 = some ⟨.thread, [1]⟩ := by rw [runners]; rfl
    obtain ⟨later, h', trace'', runs, unjustified⟩ :=
      exists_unjustified (trace'.snoc (.run 1 between there)) (.only rfl there rfl)
        ((congrFun objects 1).trans (Function.update_of_ne (by decide) _ _)) rfl rfl mapped
        (checkNextSyncCall_handleSuccess rfl) rfl
    refine ⟨later, h', trace'', ?_, unjustified⟩
    rw [runs, runsOf_snoc_run, first]
    rfl

end ParallelLabs.SharedMemory
