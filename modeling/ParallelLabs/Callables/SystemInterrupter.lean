import ParallelLabs.Library.Runs

/-!
# `AbstractSystemInterrupter`

What the workers see of an interrupter: they call `handle_success` and
`check_next_sync_call`, and the calls return. Between a call and its return the
interrupter may take steps of its own, and the calls of different workers overlap.

An interrupter is sound if it tells a worker to stop only after some worker has
called `handle_success`. The one of `OpenMpParallelRunner.h` never does
(`openMp_sound`).
-/

set_option autoImplicit false

namespace ParallelLabs.Callables

open Library

/-- A call of a method of the interrupter, or its return. -/
inductive Talk where
  | handleSuccess
  | handleSuccessReturns
  | checkNextSyncCall
  | checkReturns (answer : Bool)
  deriving DecidableEq, Repr

/-- The methods that a running callable calls. -/
inductive Method where
  | handleSuccess
  | checkNextSyncCall
  deriving DecidableEq

/-- The call of a method. -/
def Method.call : Method → Talk
  | .handleSuccess => .handleSuccess
  | .checkNextSyncCall => .checkNextSyncCall

/-- The returns of a method. -/
def Method.Returns : Method → Talk → Prop
  | .handleSuccess, call => call = .handleSuccessReturns
  | .checkNextSyncCall, call => ∃ answer, call = .checkReturns answer

/-- An `AbstractSystemInterrupter` shared by workers: the states it may start in
and its steps. A step without a label is one of its own. -/
structure SystemInterrupter (Worker : Type) where
  State : Type
  initial : State → Prop
  step : State → Option (Worker × Talk) → State → Prop

namespace SystemInterrupter

variable {Worker : Type}

/-- Some worker has called `handle_success`. -/
def Called (talks : List (Option (Worker × Talk))) : Prop :=
  ∃ worker, some (worker, Talk.handleSuccess) ∈ talks

/-- No worker is told to stop before some worker has called `handle_success`. -/
def Sound (interrupter : SystemInterrupter Worker) : Prop :=
  ∀ talks s worker s', Run interrupter.step interrupter.initial talks s →
    interrupter.step s (some (worker, .checkReturns false)) s' → Called talks

/-- What the end of a run needs of an interrupter: it knows who is in which method, a
call causes a bounded number of its own steps (`rest` counts those to come, of which some
are there at the start), and while a worker is in a method it can take a step of its own or
let the worker return. -/
structure Responsive [DecidableEq Worker] (interrupter : SystemInterrupter Worker) where
  occupation : interrupter.State → Worker → Option Method
  rest : interrupter.State → Nat
  start : Nat
  bound : Nat
  initially : ∀ s, interrupter.initial s →
    (∀ worker, occupation s worker = none) ∧ rest s ≤ start
  entered : ∀ {talks s worker method s'}, Run interrupter.step interrupter.initial talks s →
    interrupter.step s (some (worker, Method.call method)) s' →
      occupation s' = Function.update (occupation s) worker (some method) ∧
        rest s' ≤ rest s + bound
  left : ∀ {talks s worker method call s'}, Run interrupter.step interrupter.initial talks s →
    Method.Returns method call → interrupter.step s (some (worker, call)) s' →
      occupation s' = Function.update (occupation s) worker none ∧ rest s' ≤ rest s
  alone : ∀ {talks s s'}, Run interrupter.step interrupter.initial talks s →
    interrupter.step s none s' → occupation s' = occupation s ∧ rest s' < rest s
  opens : ∀ s worker method, occupation s worker = none →
    ∃ s', interrupter.step s (some (worker, Method.call method)) s'
  goes_on : ∀ {talks s worker method}, Run interrupter.step interrupter.initial talks s →
    occupation s worker = some method → (∃ s', interrupter.step s none s') ∨
      ∃ call s', Method.Returns method call ∧ interrupter.step s (some (worker, call)) s'

end SystemInterrupter

/-- The methods of `OpenMpSystemInterrupter`: `handle_success` does nothing, and
`check_next_sync_call` returns true. -/
inductive OpenMpStep {Worker : Type} [DecidableEq Worker] (s : Worker → Option Method) :
    Option (Worker × Talk) → (Worker → Option Method) → Prop where
  | enter (worker : Worker) (method : Method) (outside : s worker = none) :
      OpenMpStep s (some (worker, method.call)) (Function.update s worker (some method))
  | handleSuccessReturns (worker : Worker) (inside : s worker = some .handleSuccess) :
      OpenMpStep s (some (worker, .handleSuccessReturns)) (Function.update s worker none)
  | checkReturns (worker : Worker) (inside : s worker = some .checkNextSyncCall) :
      OpenMpStep s (some (worker, .checkReturns true)) (Function.update s worker none)

/-- `OpenMpSystemInterrupter`. Its state is who is in which method. -/
def OpenMpSystemInterrupter (Worker : Type) [DecidableEq Worker] : SystemInterrupter Worker where
  State := Worker → Option Method
  initial s := ∀ worker, s worker = none
  step := OpenMpStep

section OpenMp

variable {Worker : Type} [DecidableEq Worker] {s s' : Worker → Option Method}

/-- The check never says stop. -/
theorem openMp_answer {worker : Worker} {answer : Bool}
    (step : OpenMpStep s (some (worker, .checkReturns answer)) s') : answer = true := by
  generalize same : some (worker, Talk.checkReturns answer) = call at step
  cases step with
  | enter w method outside => cases method <;> cases same
  | handleSuccessReturns w inside => cases same
  | checkReturns w inside =>
      cases same
      rfl

theorem openMp_sound (Worker : Type) [DecidableEq Worker] :
    (OpenMpSystemInterrupter Worker).Sound := by
  intro talks s worker s' run step
  cases openMp_answer step

theorem Method.call_injective : Function.Injective Method.call := by
  intro method method' same
  cases method <;> cases method' <;> first | rfl | cases same

theorem openMp_entered {worker : Worker} {method : Method}
    (step : OpenMpStep s (some (worker, method.call)) s') :
    s worker = none ∧ s' = Function.update s worker (some method) := by
  generalize same : some (worker, method.call) = call at step
  cases step with
  | enter w method' outside =>
      obtain ⟨rfl, calls⟩ := Prod.mk.inj (Option.some.inj same)
      obtain rfl := Method.call_injective calls
      exact ⟨outside, rfl⟩
  | handleSuccessReturns | checkReturns => cases method <;> cases same

theorem openMp_left {worker : Worker} {method : Method} {call : Talk}
    (returns : method.Returns call) (step : OpenMpStep s (some (worker, call)) s') :
    s worker = some method ∧ s' = Function.update s worker none := by
  generalize same : some (worker, call) = label at step
  cases step with
  | enter w method' outside =>
      obtain ⟨rfl, rfl⟩ := Prod.mk.inj (Option.some.inj same)
      cases method with
      | handleSuccess => cases method' <;> cases returns
      | checkNextSyncCall =>
          obtain ⟨answer, returns⟩ := returns
          cases method' <;> cases returns
  | handleSuccessReturns w inside =>
      obtain ⟨rfl, rfl⟩ := Prod.mk.inj (Option.some.inj same)
      cases method with
      | handleSuccess => exact ⟨inside, rfl⟩
      | checkNextSyncCall =>
          obtain ⟨answer, returns⟩ := returns
          cases returns
  | checkReturns w inside =>
      obtain ⟨rfl, rfl⟩ := Prod.mk.inj (Option.some.inj same)
      cases method with
      | handleSuccess => cases returns
      | checkNextSyncCall => exact ⟨inside, rfl⟩

/-- A worker in a method of `OpenMpSystemInterrupter` can always return. -/
def openMpResponsive (Worker : Type) [DecidableEq Worker] :
    (OpenMpSystemInterrupter Worker).Responsive where
  occupation s := (s : Worker → Option Method)
  rest _ := 0
  start := 0
  bound := 0
  initially s initial := ⟨initial, Nat.le_refl _⟩
  entered := by
    intro talks s worker method s' run step
    exact ⟨(openMp_entered step).2, Nat.le_refl _⟩
  left := by
    intro talks s worker method call s' run returns step
    exact ⟨(openMp_left returns step).2, Nat.le_refl _⟩
  alone := by
    intro talks s s' run step
    cases step
  opens s worker method outside := ⟨_, .enter worker method outside⟩
  goes_on := by
    intro talks s worker method run inside
    right
    cases method with
    | handleSuccess => exact ⟨_, _, rfl, .handleSuccessReturns worker inside⟩
    | checkNextSyncCall => exact ⟨_, _, ⟨true, rfl⟩, .checkReturns worker inside⟩

end OpenMp

end ParallelLabs.Callables
