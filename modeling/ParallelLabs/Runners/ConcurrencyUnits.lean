import ParallelLabs.Callables.Abstract
import ParallelLabs.Callables.SystemInterrupter
import ParallelLabs.Library.Simulation
import ParallelLabs.Runners.Output
import Mathlib.Logic.Function.Basic

/-!
# Runners that ask their interrupter

`run` of the three runners whose interrupter does not kill: it starts a worker for
each callable, every worker runs its callable and prints its result if it has one,
and `run` returns when all workers are over. The process runner starts the last
worker first, the thread runner the first one, and the iterations of the `omp`
loop come in any order. Any interrupter that ignores the kill function may be used.

Between its call of a method of the interrupter and the return a worker waits, and
the others go on.

What a worker has printed is a front part of its line, and the whole line when it
is over (`UnitInv`).
-/

set_option autoImplicit false

namespace ParallelLabs.Runners

open Library Callables

/-- Where a worker is. -/
inductive UnitPhase where
  /-- Not started. -/
  | absent
  /-- Before `executable->run()`. -/
  | started
  | inside
  /-- Before `has_result`. -/
  | leaving
  /-- Printing, with the pieces that are left. -/
  | printing (rest : List (List (BitVec 8)))
  | finished
  deriving DecidableEq, Repr

/-- `AbstractConcurrencyUnit`: a worker with its callable, and whether it waits for
the return of a method of its interrupter. -/
structure ConcurrencyUnit (Object : Type) where
  phase : UnitPhase
  executable : Object
  calling : Bool

/-- What a runner is given: the callables, and what `to_string` returns for one that
`has_result`. The process ids matter to the process runner only. -/
structure Workload (Object : Type) (n : Nat) where
  kind : Kind
  callables : Fin n → AbstractCallable Object
  report : Object → Option (List (BitVec 8))
  pid : Fin n → Nat

/-- The pieces that a worker prints. -/
def Workload.pieces {Object : Type} {n : Nat} (load : Workload Object n) (i : Fin n)
    (object : Object) : List (List (BitVec 8)) :=
  match load.report object with
  | some result => load.kind.pieces (innerUid i) (load.pid i) result
  | none => []

/-- A runner in `run`: the number of workers started, the workers, the interrupter,
and what has been printed by whom. -/
structure Team (Object : Type) (n : Nat) (interrupter : SystemInterrupter (Fin n)) where
  created : Nat
  returned : Bool
  units : Fin n → ConcurrencyUnit Object
  interrupter : interrupter.State
  output : List (Fin n × List (BitVec 8))

inductive TeamEvent (n : Nat) where
  | start (worker : Fin n)
  | run (worker : Fin n)
  | work (worker : Fin n)
  /-- A call of a method of the interrupter, or its return. -/
  | talk (worker : Fin n) (call : Talk)
  /-- A step of the interrupter alone. -/
  | interrupter
  /-- The callable returns. -/
  | leave (worker : Fin n)
  | hasResult (worker : Fin n)
  | print (worker : Fin n) (piece : List (BitVec 8))
  | finish (worker : Fin n)
  | returns
  deriving DecidableEq

/-- What an event is to the interrupter. -/
def TeamEvent.label {n : Nat} : TeamEvent n → Option (Option (Fin n × Talk))
  | .talk worker call => some (some (worker, call))
  | .interrupter => some none
  | .start _ | .run _ | .work _ | .leave _ | .hasResult _ | .print _ _ | .finish _
  | .returns => none

/-- Whether `run` starts workers at all. -/
def Kind.Launches (kind : Kind) (n : Nat) : Prop :=
  match kind with
  | .process | .thread => launches n = true
  | .openmp => True

/-- The worker that may be started next. -/
def Kind.Next (kind : Kind) {n : Nat} (created : Nat) (i : Fin n) : Prop :=
  match kind with
  | .process => i.val + created + 1 = n
  | .thread => i.val = created
  | .openmp => True

namespace Team

variable {Object : Type} {n : Nat} {interrupter : SystemInterrupter (Fin n)}

def set (s : Team Object n interrupter) (i : Fin n) (unit : ConcurrencyUnit Object) :
    Team Object n interrupter :=
  { s with units := Function.update s.units i unit }

@[simp] theorem units_set_self (s : Team Object n interrupter) (i : Fin n)
    (unit : ConcurrencyUnit Object) : (s.set i unit).units i = unit := Function.update_self _ _ _

theorem units_set_of_ne (s : Team Object n interrupter) {i j : Fin n} (other : j ≠ i)
    (unit : ConcurrencyUnit Object) : (s.set i unit).units j = s.units j :=
  Function.update_of_ne other _ _

/-- The worker is in `run` of its callable, and not in a method of its interrupter. -/
def Busy (s : Team Object n interrupter) (i : Fin n) : Prop :=
  (s.units i).phase = .inside ∧ (s.units i).calling = false

/-- The worker is in a method of its interrupter. -/
def Waits (s : Team Object n interrupter) (i : Fin n) : Prop :=
  (s.units i).phase = .inside ∧ (s.units i).calling = true

/-- The pieces that a worker has printed. -/
def printed (s : Team Object n interrupter) (i : Fin n) : List (List (BitVec 8)) :=
  (s.output.filter fun entry => entry.1 = i).map Prod.snd

/-- The worker enters or leaves a method of its interrupter. -/
def talk (s : Team Object n interrupter) (i : Fin n) (object : Object) (calling : Bool)
    (state : interrupter.State) : Team Object n interrupter :=
  { s.set i { s.units i with executable := object, calling := calling } with
    interrupter := state }

inductive Step (load : Workload Object n) (s : Team Object n interrupter) :
    TeamEvent n → Team Object n interrupter → Prop where
  | start (i : Fin n) (running : s.returned = false) (few : load.kind.Launches n)
      (next : load.kind.Next s.created i) (new : (s.units i).phase = .absent) :
      Step load s (.start i)
        { s.set i { s.units i with phase := .started } with created := s.created + 1 }
  | run (i : Fin n) {object : Object} (here : (s.units i).phase = .started)
      (own : (load.callables i).step (s.units i).executable .run object) :
      Step load s (.run i) (s.set i ⟨.inside, object, false⟩)
  | work (i : Fin n) {object : Object} (busy : s.Busy i)
      (own : (load.callables i).step (s.units i).executable .work object) :
      Step load s (.work i) (s.set i { s.units i with executable := object })
  | checkNextSyncCall (i : Fin n) {state : interrupter.State} (busy : s.Busy i)
      (own : (load.callables i).Checks (s.units i).executable)
      (asked : interrupter.step s.interrupter (some (i, .checkNextSyncCall)) state) :
      Step load s (.talk i .checkNextSyncCall) (s.talk i (s.units i).executable true state)
  | checkReturns (i : Fin n) {answer : Bool} {object : Object} {state : interrupter.State}
      (waits : s.Waits i)
      (own : (load.callables i).step (s.units i).executable (.checkNextSyncCall answer) object)
      (answered : interrupter.step s.interrupter (some (i, .checkReturns answer)) state) :
      Step load s (.talk i (.checkReturns answer)) (s.talk i object false state)
  | handleSuccess (i : Fin n) {state : interrupter.State} (busy : s.Busy i)
      (own : (load.callables i).Notifies (s.units i).executable)
      (told : interrupter.step s.interrupter (some (i, .handleSuccess)) state) :
      Step load s (.talk i .handleSuccess) (s.talk i (s.units i).executable true state)
  | handleSuccessReturns (i : Fin n) {object : Object} {state : interrupter.State}
      (waits : s.Waits i)
      (own : (load.callables i).step (s.units i).executable .handleSuccess object)
      (done : interrupter.step s.interrupter (some (i, .handleSuccessReturns)) state) :
      Step load s (.talk i .handleSuccessReturns) (s.talk i object false state)
  | interrupter {state : interrupter.State} (own : interrupter.step s.interrupter none state) :
      Step load s .interrupter { s with interrupter := state }
  | leave (i : Fin n) {object : Object} (busy : s.Busy i)
      (own : (load.callables i).step (s.units i).executable .returns object) :
      Step load s (.leave i) (s.set i ⟨.leaving, object, false⟩)
  /-- `has_result`, and `to_string` if it is true. -/
  | hasResult (i : Fin n) (here : (s.units i).phase = .leaving) :
      Step load s (.hasResult i)
        (s.set i { s.units i with phase := .printing (load.pieces i (s.units i).executable) })
  | print (i : Fin n) {piece : List (BitVec 8)} {rest : List (List (BitVec 8))}
      (here : (s.units i).phase = .printing (piece :: rest)) :
      Step load s (.print i piece)
        { s.set i { s.units i with phase := .printing rest } with
          output := s.output ++ [(i, piece)] }
  | finish (i : Fin n) (here : (s.units i).phase = .printing []) :
      Step load s (.finish i) (s.set i { s.units i with phase := .finished })
  /-- All workers have been joined, waited for, or have reached the barrier. -/
  | returns (running : s.returned = false)
      (all : load.kind.Launches n → ∀ i, (s.units i).phase = .finished) :
      Step load s .returns { s with returned := true }

/-- The runner enters `run`. -/
def Started (load : Workload Object n) (s : Team Object n interrupter) : Prop :=
  s.created = 0 ∧ s.returned = false ∧ interrupter.initial s.interrupter ∧ s.output = [] ∧
    ∀ i, (load.callables i).initial (s.units i).executable ∧
      s.units i = ⟨.absent, (s.units i).executable, false⟩

end Team

/-! ## The interrupter of a run -/

section Invariant

variable {Object : Type} {n : Nat} {interrupter : SystemInterrupter (Fin n)}
  {load : Workload Object n} {s s' : Team Object n interrupter} {event : TeamEvent n}
  {events : List (TeamEvent n)}

/-- A step is one of the interrupter, or leaves it alone. -/
theorem Team.Step.interrupter_moves (step : s.Step load event s') :
    (∀ call, event.label = some call → interrupter.step s.interrupter call s'.interrupter) ∧
      (event.label = none → s'.interrupter = s.interrupter) := by
  cases step with
  | checkNextSyncCall i busy own asked =>
      exact ⟨fun _ same => Option.some.inj same ▸ asked, fun none => by cases none⟩
  | checkReturns i waits own answered =>
      exact ⟨fun _ same => Option.some.inj same ▸ answered, fun none => by cases none⟩
  | handleSuccess i busy own told =>
      exact ⟨fun _ same => Option.some.inj same ▸ told, fun none => by cases none⟩
  | handleSuccessReturns i waits own done =>
      exact ⟨fun _ same => Option.some.inj same ▸ done, fun none => by cases none⟩
  | interrupter own =>
      exact ⟨fun _ same => Option.some.inj same ▸ own, fun none => by cases none⟩
  | start | run | work | leave | hasResult | print | finish | returns =>
      exact ⟨fun _ same => (by cases same), fun _ => rfl⟩

/-- **The interrupter's part of a run is a run of the interrupter.** -/
theorem Team.run_interrupter (run : Run (Team.Step load) (Team.Started load) events s) :
    Run interrupter.step interrupter.initial (events.filterMap TeamEvent.label) s.interrupter :=
  run.component Team.interrupter TeamEvent.label (fun _ started => started.2.2.1)
    (fun _ _ _ step => step.interrupter_moves.1) fun _ _ _ step => step.interrupter_moves.2

/-! ## What is printed -/

/-- What holds of a worker and of what it has printed. -/
def UnitInv (load : Workload Object n) (i : Fin n) (printed : List (List (BitVec 8)))
    (unit : ConcurrencyUnit Object) : Prop :=
  match unit.phase with
  | .absent | .started | .leaving => printed = [] ∧ unit.calling = false
  | .inside => printed = []
  | .printing rest => printed ++ rest = load.pieces i unit.executable ∧ unit.calling = false
  | .finished => printed = load.pieces i unit.executable ∧ unit.calling = false

/-- **The invariant of the workers.** -/
def TeamInv (load : Workload Object n) (s : Team Object n interrupter) : Prop :=
  ∀ i, UnitInv load i (s.printed i) (s.units i)

/-- A step of one worker that prints nothing. -/
theorem TeamInv.set (inv : TeamInv load s) (i : Fin n) {unit : ConcurrencyUnit Object}
    (own : UnitInv load i (s.printed i) (s.units i) → UnitInv load i (s.printed i) unit) :
    TeamInv load (s.set i unit) := by
  intro j
  by_cases same : j = i
  · subst same
    rw [Team.units_set_self]
    exact own (inv j)
  · rw [Team.units_set_of_ne s same]
    exact inv j

theorem Team.printed_snoc {output : List (Fin n × List (BitVec 8))} (i j : Fin n)
    (piece : List (BitVec 8)) :
    ((output ++ [(i, piece)]).filter fun entry => entry.1 = j).map Prod.snd =
      (output.filter fun entry => entry.1 = j).map Prod.snd ++ if i = j then [piece] else [] := by
  rw [List.filter_append, List.map_append]
  by_cases same : i = j <;> simp [same]

/-- **A step keeps the invariant of the workers.** -/
theorem TeamInv.step (inv : TeamInv load s) (step : s.Step load event s') :
    TeamInv load s' := by
  cases step with
  | start i running few next new =>
      refine inv.set i fun own => ?_
      rw [UnitInv, new] at own
      exact own
  | run i here own =>
      refine inv.set i fun held => ?_
      rw [UnitInv, here] at held
      exact held.1
  | work i busy own =>
      refine inv.set i fun held => ?_
      rw [UnitInv, busy.1] at held ⊢
      exact held
  | checkNextSyncCall i busy own asked =>
      refine inv.set i fun held => ?_
      rw [UnitInv, busy.1] at held ⊢
      exact held
  | checkReturns i waits own answered =>
      refine inv.set i fun held => ?_
      rw [UnitInv, waits.1] at held ⊢
      exact held
  | handleSuccess i busy own told =>
      refine inv.set i fun held => ?_
      rw [UnitInv, busy.1] at held ⊢
      exact held
  | handleSuccessReturns i waits own done =>
      refine inv.set i fun held => ?_
      rw [UnitInv, waits.1] at held ⊢
      exact held
  | interrupter own => exact inv
  | leave i busy own =>
      refine inv.set i fun held => ?_
      rw [UnitInv, busy.1] at held
      exact ⟨held, rfl⟩
  | hasResult i here =>
      refine inv.set i fun held => ?_
      rw [UnitInv, here] at held
      exact ⟨by rw [held.1]; rfl, held.2⟩
  | @print i piece rest here =>
      intro j
      have held := inv j
      show UnitInv load j (((s.output ++ [(i, piece)]).filter _).map Prod.snd)
        ((s.set i _).units j)
      rw [Team.printed_snoc]
      by_cases same : j = i
      · subst same
        rw [if_pos rfl, Team.units_set_self]
        rw [UnitInv, here] at held
        exact ⟨by rw [List.append_assoc]; exact held.1, held.2⟩
      · rw [if_neg (Ne.symm same), List.append_nil, Team.units_set_of_ne s same]
        exact held
  | finish i here =>
      refine inv.set i fun held => ?_
      rw [UnitInv, here] at held
      exact ⟨(List.append_nil _).symm.trans held.1, held.2⟩
  | returns running all => exact inv

theorem TeamInv.of_started (started : Team.Started load s) : TeamInv load s := by
  obtain ⟨_, _, _, output, units⟩ := started
  intro i
  rw [UnitInv, (units i).2, Team.printed, output]
  exact ⟨rfl, rfl⟩

theorem TeamInv.of_run (run : Run (Team.Step load) (Team.Started load) events s) :
    TeamInv load s :=
  run.invariant (fun _ s => TeamInv load s) (fun _ => TeamInv.of_started)
    fun _ _ _ _ inv step => inv.step step

/-- A runner returns after all its workers. -/
theorem Team.finished_of_returned (launching : load.kind.Launches n)
    (run : Run (Team.Step load) (Team.Started load) events s) (returned : s.returned = true)
    (i : Fin n) : (s.units i).phase = .finished := by
  have inv : s.returned = true → ∀ i, (s.units i).phase = .finished := by
    refine run.invariant (fun _ s => s.returned = true → ∀ i, (s.units i).phase = .finished)
      (fun s started returned => ?_) fun past s event s' inv step => ?_
    · rw [started.2.1] at returned
      cases returned
    · have frame : ∀ {j : Fin n} {unit : ConcurrencyUnit Object},
          (s.units j).phase ≠ .finished → s.returned = true →
            ∀ i, ((s.set j unit).units i).phase = .finished :=
        fun unfinished returned => absurd (inv returned _) unfinished
      cases step with
      | start j running few next new => exact frame (by rw [new]; decide)
      | run j here own => exact frame (by rw [here]; decide)
      | work j busy own => exact frame (by rw [busy.1]; decide)
      | checkNextSyncCall j busy own asked => exact frame (by rw [busy.1]; decide)
      | checkReturns j waits own answered => exact frame (by rw [waits.1]; decide)
      | handleSuccess j busy own told => exact frame (by rw [busy.1]; decide)
      | handleSuccessReturns j waits own done => exact frame (by rw [waits.1]; decide)
      | interrupter own => exact inv
      | leave j busy own => exact frame (by rw [busy.1]; decide)
      | hasResult j here => exact frame (by rw [here]; decide)
      | print j here => exact frame (by rw [here]; exact fun same => by cases same)
      | finish j here => exact frame (by rw [here]; decide)
      | returns running all => exact fun _ => all launching
  exact inv returned i

/-! ## Starting the workers -/

/-- The workers that a runner has started, in its order. -/
def Kind.Begun (kind : Kind) {n : Nat} (created : Nat) (i : Fin n) : Prop :=
  match kind with
  | .process => n ≤ i.val + created
  | .thread => i.val < created
  | .openmp => True

/-- The workers are started in order, if the runner has one. -/
def CreatedInv (load : Workload Object n) (s : Team Object n interrupter) : Prop :=
  load.kind = .openmp ∨ ∀ i, (s.units i).phase = .absent ↔ ¬ load.kind.Begun s.created i

theorem CreatedInv.of_run (run : Run (Team.Step load) (Team.Started load) events s) :
    CreatedInv load s := by
  refine run.invariant (fun _ s => CreatedInv load s) (fun s started => ?_)
    fun past s event s' inv step => ?_
  · obtain ⟨created, _, _, _, units⟩ := started
    cases kind : load.kind with
    | openmp => exact .inl kind
    | process | thread =>
        right
        intro i
        rw [(units i).2, kind, created]
        simp only [Kind.Begun, true_iff]
        omega
  · rcases inv with openmp | ordered
    · exact .inl openmp
    right
    -- Only the start of a worker changes who is absent.
    have frame : ∀ {j : Fin n} {unit : ConcurrencyUnit Object},
        (s.units j).phase ≠ .absent → unit.phase ≠ .absent →
          ∀ i, ((s.set j unit).units i).phase = .absent ↔ ¬ load.kind.Begun s.created i := by
      intro j unit before after i
      by_cases same : i = j
      · subst same
        rw [Team.units_set_self]
        exact ⟨fun absent => absurd absent after, fun new => absurd ((ordered i).mpr new) before⟩
      · rw [Team.units_set_of_ne s same]
        exact ordered i
    cases step with
    | start j running few next new =>
        intro i
        have old := ordered i
        by_cases same : i = j
        · subst same
          show ((s.set i _).units i).phase = .absent ↔ _
          rw [Team.units_set_self]
          cases kind : load.kind with
          | openmp => rw [kind] at old; exact absurd trivial (old.mp new)
          | process | thread =>
              rw [kind] at next
              simp only [Kind.Next] at next
              simp only [Kind.Begun, reduceCtorEq, false_iff]
              omega
        · show ((s.set j _).units i).phase = .absent ↔ _
          rw [Team.units_set_of_ne s same, old]
          have apart : i.val ≠ j.val := fun equal => same (Fin.ext equal)
          cases kind : load.kind with
          | openmp => rfl
          | process | thread =>
              rw [kind] at next
              simp only [Kind.Next] at next
              simp only [Kind.Begun]
              omega
    | run j here own => exact frame (by rw [here]; decide) (fun same => by cases same)
    | work j busy own => exact frame (by rw [busy.1]; decide) (by rw [busy.1]; decide)
    | checkNextSyncCall j busy own asked =>
        exact frame (by rw [busy.1]; decide) (by rw [busy.1]; decide)
    | checkReturns j waits own answered =>
        exact frame (by rw [waits.1]; decide) (by rw [waits.1]; decide)
    | handleSuccess j busy own told =>
        exact frame (by rw [busy.1]; decide) (by rw [busy.1]; decide)
    | handleSuccessReturns j waits own done =>
        exact frame (by rw [waits.1]; decide) (by rw [waits.1]; decide)
    | interrupter own => exact ordered
    | leave j busy own => exact frame (by rw [busy.1]; decide) (fun same => by cases same)
    | hasResult j here => exact frame (by rw [here]; decide) (fun same => by cases same)
    | print j here =>
        exact frame (by rw [here]; exact fun same => by cases same) (fun same => by cases same)
    | finish j here => exact frame (by rw [here]; decide) (fun same => by cases same)
    | returns running all => exact ordered

/-- A runner that has not started all its workers can start one. -/
theorem CreatedInv.exists_next (inv : CreatedInv load s) {i : Fin n}
    (absent : (s.units i).phase = .absent) :
    ∃ j, load.kind.Next s.created j ∧ (s.units j).phase = .absent := by
  rcases inv with openmp | ordered
  · exact ⟨i, by rw [openmp]; trivial, absent⟩
  have new := (ordered i).mp absent
  cases kind : load.kind with
  | openmp => rw [kind] at new; exact absurd trivial new
  | process =>
      rw [kind] at new
      simp only [Kind.Begun] at new
      refine ⟨⟨n - 1 - s.created, by omega⟩, ?_, (ordered _).mpr ?_⟩
      · simp only [Kind.Next]
        omega
      · rw [kind]
        simp only [Kind.Begun]
        omega
  | thread =>
      rw [kind] at new
      simp only [Kind.Begun] at new
      refine ⟨⟨s.created, by omega⟩, rfl, (ordered _).mpr ?_⟩
      rw [kind]
      simp only [Kind.Begun]
      omega

end Invariant

end ParallelLabs.Runners
