import ParallelLabs.Callables.Abstract
import ParallelLabs.Library.Runs
import ParallelLabs.Runners.Output
import Mathlib.Logic.Function.Basic

/-!
# `LinuxThreadParallelRunner.h`: cancelling the other threads

Every thread sets its flag `running`, runs its callable and clears the flag. The
thread whose callable succeeds goes through all threads in `kill_except`: it
copies the entry of a thread, and if the copy has the flag it cancels the thread.
The main thread may still be creating threads meanwhile.

A thread that is looked at after it has set its flag will make no further call:
it is cancelled, or it has finished. A thread that is looked at before that is
left alone, and then goes on as if nothing had happened. So the threads are quiet
after a `kill_except` in every run in which no thread is looked at before it has
set its flag (`no_call_after_killExcept`).
-/

set_option autoImplicit false

namespace ParallelLabs.Runners

open Library Callables

variable {Args Ret : Type}

/-- Where a thread is in `run_single`. -/
inductive Phase where
  /-- Not created. -/
  | absent
  /-- Before `set_running(true)`. -/
  | created
  /-- Before `executable->run()`. -/
  | flagged
  | inside
  /-- Before `set_running(false)`. -/
  | leaving
  | finished
  deriving DecidableEq, Repr

/-- A thread: its entry in the runner, its `MapCallable`, and while it is in
`kill_except` the index that it has reached and the flag it has copied there. -/
structure Thread (Args Ret : Type) where
  phase : Phase
  running : Bool
  cancelled : Bool
  callable : State Unit Args Ret
  index : Nat
  copied : Option Bool

/-- The threads, and how many of them the main thread has created. -/
structure Pool (Args Ret : Type) (n : Nat) where
  created : Nat
  threads : Fin n → Thread Args Ret

inductive ThreadEvent (Args Ret : Type) (n : Nat) where
  | create (thread : Fin n)
  | setRunning (thread : Fin n) (value : Bool)
  /-- A step of the thread in `run` of its callable. The return of `kill_except` is
  that of `handle_success`. -/
  | own (thread : Fin n) (event : Event Unit Args Ret)
  | returns (thread : Fin n)
  /-- The thread copies the entry of another one in `kill_except`. -/
  | look (thread target : Fin n)
  /-- It cancels the other thread, or passes it. -/
  | cancel (thread target : Fin n)

/-- The events of `run` that `LinuxSignalSystemInterrupter` allows outside of
`handle_success`: its check is always true. -/
def Unnotified (point : Point Args) (event : Event Unit Args Ret) : Prop :=
  Works .mapCallable point event ∨ event = .checkNextSyncCall true

namespace Pool

variable {n : Nat}

def set (s : Pool Args Ret n) (i : Fin n) (thread : Thread Args Ret) : Pool Args Ret n :=
  { s with threads := Function.update s.threads i thread }

/-- The thread has not been cancelled and is at a phase. -/
def At (s : Pool Args Ret n) (i : Fin n) (phase : Phase) : Prop :=
  (s.threads i).cancelled = false ∧ (s.threads i).phase = phase

/-- The thread is in `kill_except`. -/
def InKill (s : Pool Args Ret n) (i : Fin n) : Prop :=
  s.At i .inside ∧ (s.threads i).callable.point = .notify

inductive Step (s : Pool Args Ret n) : ThreadEvent Args Ret n → Pool Args Ret n → Prop where
  /-- The main thread creates the next thread. -/
  | create (i : Fin n) (few : launches n = true) (next : i.val = s.created)
      (new : (s.threads i).phase = .absent) :
      Step s (.create i)
        ⟨s.created + 1, (s.set i { s.threads i with phase := .created }).threads⟩
  | setRunning (i : Fin n) (here : s.At i .created) :
      Step s (.setRunning i true)
        (s.set i { s.threads i with running := true, phase := .flagged })
  | run (i : Fin n) {callable : State Unit Args Ret} (here : s.At i .flagged)
      (own : MapCallable.Step (s.threads i).callable .run callable) :
      Step s (.own i .run) (s.set i { s.threads i with callable := callable, phase := .inside })
  | work (i : Fin n) {event : Event Unit Args Ret} {callable : State Unit Args Ret}
      (here : s.At i .inside) (allowed : Unnotified (s.threads i).callable.point event)
      (own : MapCallable.Step (s.threads i).callable event callable) :
      Step s (.own i event) (s.set i { s.threads i with callable := callable })
  /-- `auto thread = this->_proccesses[i]`. -/
  | look (i target : Fin n) (killing : s.InKill i) (loop : (s.threads i).index = target.val)
      (fresh : (s.threads i).copied = none) :
      Step s (.look i target)
        (s.set i { s.threads i with copied := some (s.threads target).running })
  /-- The target is another thread and its flag was set. -/
  | cancel (i target : Fin n) (killing : s.InKill i) (loop : (s.threads i).index = target.val)
      (other : target ≠ i) (flagged : (s.threads i).copied = some true) :
      Step s (.cancel i target)
        ((s.set target { s.threads target with cancelled := true }).set i
          { s.threads i with index := (s.threads i).index + 1, copied := none })
  | pass (i target : Fin n) {copied : Bool} (killing : s.InKill i)
      (loop : (s.threads i).index = target.val) (looked : (s.threads i).copied = some copied)
      (spare : target = i ∨ copied = false) :
      Step s (.cancel i target)
        (s.set i { s.threads i with index := (s.threads i).index + 1, copied := none })
  /-- `kill_except` returns after its last thread. -/
  | handleSuccess (i : Fin n) {callable : State Unit Args Ret} (killing : s.InKill i)
      (all : (s.threads i).index = n)
      (own : MapCallable.Step (s.threads i).callable .handleSuccess callable) :
      Step s (.own i .handleSuccess)
        (s.set i { s.threads i with callable := callable, index := 0 })
  | returns (i : Fin n) (here : s.At i .inside) (done : (s.threads i).callable.point = .idle) :
      Step s (.returns i) (s.set i { s.threads i with phase := .leaving })
  | clearRunning (i : Fin n) (here : s.At i .leaving) :
      Step s (.setRunning i false)
        (s.set i { s.threads i with running := false, phase := .finished })

/-- The runner enters `run`. Every thread has a `MapCallable` with a handler. -/
def Started (s : Pool Args Ret n) : Prop :=
  s.created = 0 ∧ ∀ i, ∃ should_call_sighandler,
    s.threads i = ⟨.absent, false, false,
      ⟨(Fields.make should_call_sighandler).setSigHandler (some ()), .idle⟩, 0, none⟩

end Pool

/-! ## Quiet threads -/

/-- The thread makes no further call. -/
def Thread.Quiet (thread : Thread Args Ret) : Prop :=
  thread.cancelled = true ∨ thread.phase = .leaving ∨ thread.phase = .finished

/-- A thread between its two writes to its flag has it set. -/
def Thread.FlagSet (thread : Thread Args Ret) : Prop :=
  thread.phase = .flagged ∨ thread.phase = .inside ∨ thread.phase = .leaving →
    thread.running = true

/-- No thread is looked at before it has set its flag. -/
def FlaggedFirst {n : Nat} (s : Pool Args Ret n) (event : ThreadEvent Args Ret n) : Prop :=
  ∀ i target, event = .look i target → target ≠ i →
    (s.threads target).phase ≠ .absent ∧ (s.threads target).phase ≠ .created

theorem not_unnotified_handleSuccess {point : Point Args} :
    ¬ Unnotified point (.handleSuccess : Event Unit Args Ret) := by
  rintro (works | check)
  · cases works
  · cases check

/-- A thread that is looked at after it has set its flag, and has it no longer, has finished. -/
theorem Thread.FlagSet.quiet {thread : Thread Args Ret} (flag : thread.FlagSet)
    (created : thread.phase ≠ .absent) (first : thread.phase ≠ .created)
    (cleared : thread.running = false) : thread.Quiet := by
  rw [FlagSet, cleared] at flag
  cases phase : thread.phase with
  | absent => exact absurd phase created
  | created => exact absurd phase first
  | flagged => exact absurd (flag (.inl phase)) Bool.false_ne_true
  | inside => exact absurd (flag (.inr (.inl phase))) Bool.false_ne_true
  | leaving => exact .inr (.inl phase)
  | finished => exact .inr (.inr phase)

/-- **The invariant of the threads.** Those that a `kill_except` has passed are
quiet, and so is one that it has seen without its flag; after a `kill_except` all
others are quiet. -/
structure PoolInv {n : Nat} (events : List (ThreadEvent Args Ret n))
    (threads : Fin n → Thread Args Ret) : Prop where
  flag : ∀ i, (threads i).FlagSet
  passed : ∀ i j, j ≠ i → j.val < (threads i).index → (threads j).Quiet
  seen : ∀ i j, j ≠ i → (threads i).copied = some false → (threads i).index = j.val →
    (threads j).Quiet
  ended : ∀ i, .own i .handleSuccess ∈ events → ∀ j, j ≠ i → (threads j).Quiet

namespace PoolInv

variable {n : Nat} {events : List (ThreadEvent Args Ret n)} {event : ThreadEvent Args Ret n}
  {threads : Fin n → Thread Args Ret} {s s' : Pool Args Ret n} {i : Fin n}
  {thread : Thread Args Ret}

theorem started (start : Pool.Started s) : PoolInv [] s.threads := by
  obtain ⟨_, start⟩ := start
  refine ⟨fun i => ?_, fun i j _ less => ?_, fun i j _ copied => ?_,
    fun i member => by cases member⟩
  · obtain ⟨_, same⟩ := start i
    rw [same]
    rintro (phase | phase | phase) <;> cases phase
  · obtain ⟨_, same⟩ := start i
    rw [same] at less
    exact absurd less (Nat.not_lt_zero _)
  · obtain ⟨_, same⟩ := start i
    rw [same] at copied
    cases copied

/-- A change of one thread. -/
theorem update (inv : PoolInv events threads) (flag : thread.FlagSet)
    (quiet : (threads i).Quiet → thread.Quiet)
    (passed : ∀ j, j ≠ i → j.val < thread.index → (threads j).Quiet)
    (seen : ∀ j, j ≠ i → thread.copied = some false → thread.index = j.val → (threads j).Quiet) :
    PoolInv events (Function.update threads i thread) := by
  have still : ∀ j, (threads j).Quiet → (Function.update threads i thread j).Quiet := by
    intro j before
    by_cases same : j = i
    · rw [same, Function.update_self]
      exact quiet (same ▸ before)
    · rwa [Function.update_of_ne same]
  refine ⟨fun j => ?_, fun k j other less => still j ?_, fun k j other copied here => still j ?_,
    fun k member j other => still j (inv.ended k member j other)⟩
  · by_cases same : j = i
    · rwa [same, Function.update_self]
    · rw [Function.update_of_ne same]
      exact inv.flag j
  · by_cases same : k = i
    · subst same
      rw [Function.update_self] at less
      exact passed j other less
    · rw [Function.update_of_ne same] at less
      exact inv.passed k j other less
  · by_cases same : k = i
    · subst same
      rw [Function.update_self] at copied here
      exact seen j other copied here
    · rw [Function.update_of_ne same] at copied here
      exact inv.seen k j other copied here

/-- A change of one thread that is not a step of its `kill_except`. -/
theorem work (inv : PoolInv events threads) (flag : thread.FlagSet)
    (quiet : (threads i).Quiet → thread.Quiet) (index : thread.index = (threads i).index)
    (copied : thread.copied = (threads i).copied) :
    PoolInv events (Function.update threads i thread) := by
  refine inv.update flag quiet (fun j other less => ?_) fun j other copy here => ?_
  · exact inv.passed i j other (index ▸ less)
  · exact inv.seen i j other (copied ▸ copy) (index ▸ here)

/-- An event other than the return of a `kill_except`. -/
theorem append (inv : PoolInv events threads) (other : ∀ i, event ≠ .own i .handleSuccess) :
    PoolInv (events ++ [event]) threads := by
  refine ⟨inv.flag, inv.passed, inv.seen, fun i member => ?_⟩
  rcases List.mem_append.mp member with before | last
  · exact inv.ended i before
  · exact absurd (List.mem_singleton.mp last).symm (other i)

/-- The return of a `kill_except` that has passed all others. -/
theorem append_handleSuccess (inv : PoolInv events threads)
    (all : ∀ j, j ≠ i → (threads j).Quiet) :
    PoolInv (events ++ [.own i .handleSuccess]) threads := by
  refine ⟨inv.flag, inv.passed, inv.seen, fun k member => ?_⟩
  rcases List.mem_append.mp member with before | last
  · exact inv.ended k before
  · cases List.mem_singleton.mp last
    exact all

/-- **A step keeps the invariant** if it does not look at a thread too early. -/
theorem step (inv : PoolInv events s.threads) (step : s.Step event s')
    (first : FlaggedFirst s event) : PoolInv (events ++ [event]) s'.threads := by
  cases step with
  | create i few next new =>
      refine append (inv.work ?_ ?_ rfl rfl) fun _ same => by cases same
      · rintro (phase | phase | phase) <;> cases phase
      · rw [Thread.Quiet, new]
        rintro (cancelled | phase | phase)
        · exact .inl cancelled
        · cases phase
        · cases phase
  | setRunning i here =>
      refine append (inv.work (fun _ => rfl) ?_ rfl rfl) fun _ same => by cases same
      rw [Thread.Quiet, here.1, here.2]
      rintro (phase | phase | phase) <;> cases phase
  | run i here own =>
      refine append (inv.work (fun _ => inv.flag i (.inl here.2)) ?_ rfl rfl)
        fun _ same => by cases same
      rw [Thread.Quiet, here.1, here.2]
      rintro (phase | phase | phase) <;> cases phase
  | work i here allowed own =>
      refine append (inv.work (inv.flag i) id rfl rfl) fun j same => ?_
      cases same
      exact not_unnotified_handleSuccess allowed
  | look i target killing loop fresh =>
      refine append (inv.update (inv.flag i) id (inv.passed i) fun j other copied here => ?_)
        fun _ same => by cases same
      obtain rfl : target = j := Fin.ext (loop.symm.trans here)
      obtain ⟨created, started⟩ := first i target rfl other
      exact (inv.flag target).quiet created started (Option.some.inj copied)
  | cancel i target killing loop other flagged =>
      have cancelled : PoolInv events (Function.update s.threads target
          { s.threads target with cancelled := true }) :=
        inv.work (inv.flag target) (fun _ => .inl rfl) rfl rfl
      have own : Function.update s.threads target { s.threads target with cancelled := true } i =
          s.threads i := Function.update_of_ne other.symm _ _
      refine append (cancelled.update (inv.flag i) (fun quiet => own ▸ quiet)
        (fun j away less => ?_)
        fun _ _ copied => by cases copied) fun _ same => by cases same
      rcases Nat.lt_succ_iff_lt_or_eq.mp less with before | here
      · exact cancelled.passed i j away (own.symm ▸ before)
      · obtain rfl : j = target := Fin.ext (here.trans loop)
        rw [Function.update_self]
        exact .inl rfl
  | pass i target killing loop looked spare =>
      refine append (inv.update (inv.flag i) id (fun j away less => ?_)
        fun _ _ copied => by cases copied) fun _ same => by cases same
      rcases Nat.lt_succ_iff_lt_or_eq.mp less with before | here
      · exact inv.passed i j away before
      · obtain rfl : j = target := Fin.ext (here.trans loop)
        rcases spare with own | unflagged
        · exact absurd own away
        · exact inv.seen i j away (unflagged ▸ looked) loop
  | handleSuccess i killing all own =>
      have passed : ∀ j, j ≠ i → (s.threads j).Quiet := fun j away =>
        inv.passed i j away (j.isLt.trans_eq all.symm)
      refine append_handleSuccess (inv.update (inv.flag i) id
        (fun j _ less => absurd less (Nat.not_lt_zero _)) fun j away _ _ => passed j away) ?_
      intro j away
      show Thread.Quiet (Function.update s.threads i _ j)
      rw [Function.update_of_ne away]
      exact passed j away
  | returns i here done =>
      exact append (inv.work (fun _ => inv.flag i (.inr (.inl here.2))) (fun _ => .inr (.inl rfl))
        rfl rfl) fun _ same => by cases same
  | clearRunning i here =>
      refine append (inv.work ?_ (fun _ => .inr (.inr rfl)) rfl rfl) fun _ same => by cases same
      rintro (phase | phase | phase) <;> cases phase

end PoolInv

/-- A quiet thread takes no step of `run` of its callable. -/
theorem Thread.Quiet.no_own {n : Nat} {s s' : Pool Args Ret n} {i : Fin n}
    {event : Event Unit Args Ret} (quiet : (s.threads i).Quiet) : ¬ s.Step (.own i event) s' := by
  have outside : ∀ phase, s.At i phase → phase = .flagged ∨ phase = .inside → False := by
    intro phase here running
    rw [Quiet, here.1, here.2] at quiet
    rcases running with rfl | rfl <;> rcases quiet with quiet | quiet | quiet <;> cases quiet
  intro step
  cases step with
  | run _ here own => exact outside _ here (.inl rfl)
  | work _ here allowed own => exact outside _ here (.inr rfl)
  | handleSuccess _ killing all own => exact outside _ killing.1 (.inr rfl)

/-- **After a `kill_except` no other thread makes a call**, in every run in which
no thread is looked at before it has set its flag. It takes no step of `run` of its
callable at all, so there is no call that returns and none that throws. -/
theorem no_call_after_killExcept {n : Nat} {past later : List (ThreadEvent Args Ret n)}
    {s : Pool Args Ret n}
    (run : Run (Meeting Pool.Step FlaggedFirst) Pool.Started (past ++ later) s)
    {winner : Fin n} (killed : .own winner .handleSuccess ∈ past) {other : Fin n}
    (different : other ≠ winner) (event : Event Unit Args Ret) : .own other event ∉ later := by
  intro member
  obtain ⟨between, s₁, s₂, before, step, _⟩ := run.exists_step_of_mem member
  have inv : PoolInv (past ++ between) s₁.threads :=
    before.invariant (fun events s => PoolInv events s.threads) (fun _ => PoolInv.started)
      fun _ _ _ _ inv next => inv.step next.1 next.2
  have quiet := inv.ended winner (List.mem_append_left between killed) other different
  exact quiet.no_own step

/-! ## Two threads -/

/-- A thread of a runner with a fresh `MapCallable`. -/
def freshThread : Thread Unit Unit :=
  ⟨.absent, false, false, ⟨(Fields.make true).setSigHandler (some ()), .idle⟩, 0, none⟩

/-- A winner that finds the flag of the other thread, which is in its callable, and
cancels it. -/
theorem no_call_after_killExcept_two :
    ∃ (past later : List (ThreadEvent Unit Unit 2)) (s : Pool Unit Unit 2) (winner other : Fin 2),
      Run (Meeting Pool.Step FlaggedFirst) Pool.Started (past ++ later) s ∧
        .own winner .handleSuccess ∈ past ∧ later ≠ [] ∧ other ≠ winner ∧
        ∀ event, .own other event ∉ later := by
  have start : Run (Meeting Pool.Step FlaggedFirst) Pool.Started []
      (⟨0, fun _ => freshThread⟩ : Pool Unit Unit 2) := .start ⟨rfl, fun _ => ⟨true, rfl⟩⟩
  have run := start
    |>.snoc ⟨.create 0 rfl rfl rfl, fun _ _ same => by cases same⟩
    |>.snoc ⟨.create 1 rfl rfl rfl, fun _ _ same => by cases same⟩
    |>.snoc ⟨.setRunning 0 ⟨rfl, rfl⟩, fun _ _ same => by cases same⟩
    |>.snoc ⟨.setRunning 1 ⟨rfl, rfl⟩, fun _ _ same => by cases same⟩
    |>.snoc ⟨.run 1 ⟨rfl, rfl⟩ (.run _ rfl), fun _ _ same => by cases same⟩
    |>.snoc ⟨.run 0 ⟨rfl, rfl⟩ (.run _ rfl), fun _ _ same => by cases same⟩
    |>.snoc ⟨.work 0 ⟨rfl, rfl⟩ (.inl (.hasNext true)) (.more _), fun _ _ same => by cases same⟩
    |>.snoc ⟨.work 0 ⟨rfl, rfl⟩ (.inl (.next ())) (.next _ ()), fun _ _ same => by cases same⟩
    |>.snoc ⟨.work 0 ⟨rfl, rfl⟩ (.inr rfl) (.goOn _ () () rfl), fun _ _ same => by cases same⟩
    |>.snoc ⟨.work 0 ⟨rfl, rfl⟩ (.inl (.call _ () ())) (.call _ () ()),
      fun _ _ same => by cases same⟩
    |>.snoc ⟨.work 0 ⟨rfl, rfl⟩ (.inl (.resultChecker _ () true)) (.accepted _ () rfl),
      fun _ _ same => by cases same⟩
    |>.snoc ⟨.look 0 0 ⟨⟨rfl, rfl⟩, rfl⟩ rfl rfl, fun _ _ same other => by
      cases same
      exact absurd rfl other⟩
    |>.snoc ⟨.pass 0 0 ⟨⟨rfl, rfl⟩, rfl⟩ rfl rfl (.inl rfl), fun _ _ same => by cases same⟩
    |>.snoc ⟨.look 0 1 ⟨⟨rfl, rfl⟩, rfl⟩ rfl rfl, fun _ _ same _ => by
      cases same
      exact ⟨by decide, by decide⟩⟩
    |>.snoc ⟨.cancel 0 1 ⟨⟨rfl, rfl⟩, rfl⟩ rfl (by decide) rfl, fun _ _ same => by cases same⟩
    |>.snoc ⟨.handleSuccess 0 ⟨⟨rfl, rfl⟩, rfl⟩ rfl (.handleSuccess _ () rfl),
      fun _ _ same => by cases same⟩
    |>.snoc ⟨.returns 0 ⟨rfl, rfl⟩ rfl, fun _ _ same => by cases same⟩
  have other : (1 : Fin 2) ≠ 0 := by decide
  refine ⟨_, [.returns 0], _, 0, 1, run, ?killed, List.cons_ne_nil _ _, other, ?silent⟩
  case killed => exact List.mem_append_right _ (List.mem_singleton_self _)
  case silent =>
    exact no_call_after_killExcept run (List.mem_append_right _ (List.mem_singleton_self _)) other

/-- **A thread that is created late goes on.** The winner passes the other thread
before the main thread has created it, and it makes a call after the return of
`kill_except`. -/
theorem call_after_killExcept :
    ∃ (past later : List (ThreadEvent Unit Unit 2)) (s : Pool Unit Unit 2) (winner other : Fin 2),
      Run Pool.Step Pool.Started (past ++ later) s ∧ .own winner .handleSuccess ∈ past ∧
        other ≠ winner ∧ .own other (.call () ()) ∈ later := by
  have start : Run Pool.Step Pool.Started [] (⟨0, fun _ => freshThread⟩ : Pool Unit Unit 2) :=
    .start ⟨rfl, fun _ => ⟨true, rfl⟩⟩
  have run := start
    |>.snoc (.create 0 rfl rfl rfl)
    |>.snoc (.setRunning 0 ⟨rfl, rfl⟩)
    |>.snoc (.run 0 ⟨rfl, rfl⟩ (.run _ rfl))
    |>.snoc (.work 0 ⟨rfl, rfl⟩ (.inl (.hasNext true)) (.more _))
    |>.snoc (.work 0 ⟨rfl, rfl⟩ (.inl (.next ())) (.next _ ()))
    |>.snoc (.work 0 ⟨rfl, rfl⟩ (.inr rfl) (.goOn _ () () rfl))
    |>.snoc (.work 0 ⟨rfl, rfl⟩ (.inl (.call _ () ())) (.call _ () ()))
    |>.snoc (.work 0 ⟨rfl, rfl⟩ (.inl (.resultChecker _ () true)) (.accepted _ () rfl))
    |>.snoc (.look 0 0 ⟨⟨rfl, rfl⟩, rfl⟩ rfl rfl)
    |>.snoc (.pass 0 0 ⟨⟨rfl, rfl⟩, rfl⟩ rfl rfl (.inl rfl))
    |>.snoc (.look 0 1 ⟨⟨rfl, rfl⟩, rfl⟩ rfl rfl)
    |>.snoc (.pass 0 1 ⟨⟨rfl, rfl⟩, rfl⟩ rfl rfl (.inr rfl))
    |>.snoc (.handleSuccess 0 ⟨⟨rfl, rfl⟩, rfl⟩ rfl (.handleSuccess _ () rfl))
    |>.snoc (.create 1 rfl rfl rfl)
    |>.snoc (.setRunning 1 ⟨rfl, rfl⟩)
    |>.snoc (.run 1 ⟨rfl, rfl⟩ (.run _ rfl))
    |>.snoc (.work 1 ⟨rfl, rfl⟩ (.inl (.hasNext true)) (.more _))
    |>.snoc (.work 1 ⟨rfl, rfl⟩ (.inl (.next ())) (.next _ ()))
    |>.snoc (.work 1 ⟨rfl, rfl⟩ (.inr rfl) (.goOn _ () () rfl))
    |>.snoc (.work 1 ⟨rfl, rfl⟩ (.inl (.call _ () ())) (.call _ () ()))
  refine ⟨[.create 0, .setRunning 0 true, .own 0 .run, .own 0 (.hasNext true), .own 0 (.next ()),
    .own 0 (.checkNextSyncCall true), .own 0 (.call () ()), .own 0 (.resultChecker () true),
    .look 0 0, .cancel 0 0, .look 0 1, .cancel 0 1, .own 0 .handleSuccess],
    [.create 1, .setRunning 1 true, .own 1 .run, .own 1 (.hasNext true), .own 1 (.next ()),
      .own 1 (.checkNextSyncCall true), .own 1 (.call () ())], _, 0, 1, run, ?_, by decide, ?_⟩
  · simp only [List.mem_cons, true_or, or_true]
  · simp only [List.mem_cons, true_or, or_true]

end ParallelLabs.Runners
