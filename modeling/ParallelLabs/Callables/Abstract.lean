import ParallelLabs.Callables.Machine

/-!
# `AbstractCallable`

A callable as its runner and its interrupter see it: it is run, it works, it
checks for the next call, it reports a success, and it returns. What happens
between these is left to the object. The objects of `Callable` and `MapCallable`
are of this kind (`AbstractCallable.ofClass`).
-/

set_option autoImplicit false

namespace ParallelLabs.Callables

/-- What the outside sees of a callable. -/
inductive Act where
  | run
  /-- A step of `run` that does not involve the interrupter. -/
  | work
  | checkNextSyncCall (answer : Bool)
  | handleSuccess
  | returns
  deriving DecidableEq, Repr

/-- An `AbstractCallable`: the states it may start in and its steps. -/
structure AbstractCallable (Object : Type) where
  initial : Object → Prop
  step : Object → Act → Object → Prop

namespace AbstractCallable

variable {Object : Type}

/-- The object is at a call of `check_next_sync_call`. -/
def Checks (callable : AbstractCallable Object) (object : Object) : Prop :=
  ∃ answer object', callable.step object (.checkNextSyncCall answer) object'

/-- The object is at a call of `handle_success`. -/
def Notifies (callable : AbstractCallable Object) (object : Object) : Prop :=
  ∃ object', callable.step object .handleSuccess object'

end AbstractCallable

variable {Args Ret : Type}

/-- The events of `run` that do not involve the interrupter. An exception of
`Callable::run` leaves the runner as well, so that object makes no further step;
`MapCallable::run` catches it. -/
inductive Works : Class Args → Point Args → Event Unit Args Ret → Prop where
  | hasNext (answer : Bool) : Works .mapCallable .test (.hasNext answer)
  | next (args : Args) : Works .mapCallable .fetch (.next args)
  | call (kind : Class Args) (args : Args) (value : Ret) :
      Works kind (.invoke args) (.call args value)
  | resultChecker (kind : Class Args) (value : Ret) (answer : Bool) :
      Works kind .judge (.resultChecker value answer)
  | throws (point : Point Args) (checks : ∀ args, point ≠ .poll args) (notifies : point ≠ .notify) :
      Works .mapCallable point .throws

/-- An object of the class, with the handler that the runner's `add` has set. -/
def AbstractCallable.ofClass (kind : Class Args) : AbstractCallable (State Unit Args Ret) where
  initial s := ∃ should_call_sighandler,
    s = ⟨(Fields.make should_call_sighandler).setSigHandler (some ()), .idle⟩
  step s act s' :=
    match act with
    | .run => kind.Step s .run s'
    | .work => ∃ event, Works kind s.point event ∧ kind.Step s event s'
    | .checkNextSyncCall answer => kind.Step s (.checkNextSyncCall answer) s'
    | .handleSuccess => kind.Step s .handleSuccess s'
    | .returns => s.point = .idle ∧ s' = s

end ParallelLabs.Callables
