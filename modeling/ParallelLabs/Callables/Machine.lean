import ParallelLabs.Library.Runs

/-!
# `Callable` and `MapCallable`

The methods of a callable object, step by step. A state is the fields of the
object and the point that `run` has reached; an event is a call from outside or
one external call that `run` makes, with its answer. The function, the result
checker, the argument generator and the interrupter are arbitrary: their answers
are whatever the events say, and they may throw instead.

`Callable.Step` and `MapCallable.Step` are the two versions of `run`. The first
makes one call and lets exceptions through. The second makes calls until the
generator ends, the interrupter says stop, a success has been signalled, or
something throws. Either way the method is left with the fields as they are.
-/

set_option autoImplicit false

namespace ParallelLabs.Callables

/-- The fields of `Callable` that its methods read and write. Before the first
assignment there is no `_result`. -/
structure Fields (Handler Ret : Type) where
  should_call_sighandler : Bool
  result : Option Ret
  finished : Bool
  hasResultFlag : Bool
  sighandlerSet : Bool
  sighandler : Option Handler
  deriving DecidableEq, Repr

namespace Fields

variable {Handler Ret : Type}

/-- A new object. The flag `should_call_sighandler` is public. -/
def make (should_call_sighandler : Bool) : Fields Handler Ret :=
  ⟨should_call_sighandler, none, false, false, false, none⟩

/-- `has_result`. -/
def hasResult (f : Fields Handler Ret) : Bool := f.finished && f.hasResultFlag

/-- `get_result`, which throws `ThreadNotReady` when there is no result. -/
def getResult (f : Fields Handler Ret) : Option Ret :=
  if f.finished && f.hasResultFlag then f.result else none

/-- `set_sig_handler`. -/
def setSigHandler (f : Fields Handler Ret) (handler : Option Handler) : Fields Handler Ret :=
  { f with sighandler := handler, sighandlerSet := true }

/-- What `add_single_callable` of a `MultipleCallable` does to the callable. -/
def addTo (f : Fields Handler Ret) (handler : Option Handler) : Fields Handler Ret :=
  { f.setSigHandler handler with should_call_sighandler := false }

/-- The assignments after a call of the function. -/
def store (f : Fields Handler Ret) (value : Ret) : Fields Handler Ret :=
  { f with result := some value, finished := true }

/-- The assignment after the checker accepted the result. -/
def accept (f : Fields Handler Ret) : Fields Handler Ret := { f with hasResultFlag := true }

end Fields

/-- The points of the two `run` methods. -/
inductive Point (Args : Type) where
  /-- Not running. -/
  | idle
  /-- At the loop condition `has_next`. -/
  | test
  /-- At `next`. -/
  | fetch
  /-- At `check_next_sync_call`. -/
  | poll (args : Args)
  /-- At the call of the function. -/
  | invoke (args : Args)
  /-- At the call of the result checker. -/
  | judge
  /-- At `handle_success`. -/
  | notify
  deriving DecidableEq, Repr

inductive Event (Handler Args Ret : Type) where
  | setSigHandler (handler : Option Handler)
  | addSingleCallable (handler : Option Handler)
  | run
  | hasNext (answer : Bool)
  | next (args : Args)
  | checkNextSyncCall (answer : Bool)
  | call (args : Args) (value : Ret)
  | resultChecker (value : Ret) (answer : Bool)
  | handleSuccess
  | throws
  deriving DecidableEq, Repr

structure State (Handler Args Ret : Type) where
  fields : Fields Handler Ret
  point : Point Args
  deriving DecidableEq, Repr

variable {Handler Args Ret : Type}

/-- What the owner of an idle object can do besides running it. -/
inductive OwnerStep : State Handler Args Ret → Event Handler Args Ret →
    State Handler Args Ret → Prop where
  | setSigHandler (f : Fields Handler Ret) (handler : Option Handler) :
      OwnerStep ⟨f, .idle⟩ (.setSigHandler handler) ⟨f.setSigHandler handler, .idle⟩
  | addSingleCallable (f : Fields Handler Ret) (handler : Option Handler) :
      OwnerStep ⟨f, .idle⟩ (.addSingleCallable handler) ⟨f.addTo handler, .idle⟩
  /-- `run` throws `RunWithNoSighandler`. -/
  | runUnset (f : Fields Handler Ret) (unset : f.sighandlerSet = false) :
      OwnerStep ⟨f, .idle⟩ .run ⟨f, .idle⟩

/-- `Callable::run` on the stored parameters. -/
inductive Callable.Step (params : Args) : State Handler Args Ret → Event Handler Args Ret →
    State Handler Args Ret → Prop where
  | run (f : Fields Handler Ret) (set : f.sighandlerSet = true) :
      Callable.Step params ⟨f, .idle⟩ .run ⟨f, .invoke params⟩
  | call (f : Fields Handler Ret) (value : Ret) :
      Callable.Step params ⟨f, .invoke params⟩ (.call params value) ⟨f.store value, .judge⟩
  | rejected (f : Fields Handler Ret) (value : Ret) (stored : f.result = some value) :
      Callable.Step params ⟨f, .judge⟩ (.resultChecker value false) ⟨f, .idle⟩
  | accepted (f : Fields Handler Ret) (value : Ret) (stored : f.result = some value) :
      Callable.Step params ⟨f, .judge⟩ (.resultChecker value true)
        ⟨f.accept, if f.should_call_sighandler then .notify else .idle⟩
  | handleSuccess (f : Fields Handler Ret) (handler : Handler) (set : f.sighandler = some handler) :
      Callable.Step params ⟨f, .notify⟩ .handleSuccess ⟨f, .idle⟩
  | throws (f : Fields Handler Ret) (point : Point Args) (running : point ≠ .idle) :
      Callable.Step params ⟨f, point⟩ .throws ⟨f, .idle⟩

/-- `MapCallable::run`. -/
inductive MapCallable.Step : State Handler Args Ret → Event Handler Args Ret →
    State Handler Args Ret → Prop where
  | run (f : Fields Handler Ret) (set : f.sighandlerSet = true) :
      MapCallable.Step ⟨f, .idle⟩ .run ⟨f, .test⟩
  | more (f : Fields Handler Ret) : MapCallable.Step ⟨f, .test⟩ (.hasNext true) ⟨f, .fetch⟩
  | exhausted (f : Fields Handler Ret) : MapCallable.Step ⟨f, .test⟩ (.hasNext false) ⟨f, .idle⟩
  | next (f : Fields Handler Ret) (args : Args) :
      MapCallable.Step ⟨f, .fetch⟩ (.next args) ⟨f, .poll args⟩
  | goOn (f : Fields Handler Ret) (args : Args) (handler : Handler)
      (set : f.sighandler = some handler) :
      MapCallable.Step ⟨f, .poll args⟩ (.checkNextSyncCall true) ⟨f, .invoke args⟩
  | stop (f : Fields Handler Ret) (args : Args) (handler : Handler)
      (set : f.sighandler = some handler) :
      MapCallable.Step ⟨f, .poll args⟩ (.checkNextSyncCall false) ⟨f, .idle⟩
  | call (f : Fields Handler Ret) (args : Args) (value : Ret) :
      MapCallable.Step ⟨f, .invoke args⟩ (.call args value) ⟨f.store value, .judge⟩
  | rejected (f : Fields Handler Ret) (value : Ret) (stored : f.result = some value) :
      MapCallable.Step ⟨f, .judge⟩ (.resultChecker value false) ⟨f, .test⟩
  /-- The `break` after a success is inside the test of `should_call_sighandler`. -/
  | accepted (f : Fields Handler Ret) (value : Ret) (stored : f.result = some value) :
      MapCallable.Step ⟨f, .judge⟩ (.resultChecker value true)
        ⟨f.accept, if f.should_call_sighandler then .notify else .test⟩
  | handleSuccess (f : Fields Handler Ret) (handler : Handler) (set : f.sighandler = some handler) :
      MapCallable.Step ⟨f, .notify⟩ .handleSuccess ⟨f, .idle⟩
  | throws (f : Fields Handler Ret) (point : Point Args) (running : point ≠ .idle) :
      MapCallable.Step ⟨f, point⟩ .throws ⟨f, .idle⟩

/-- The class of a callable object. A `Callable` has stored parameters. -/
inductive Class (Args : Type) where
  | callable (params : Args)
  | mapCallable

/-- A step of an object: one of its owner, or one of its own `run`. -/
def Class.Step : Class Args → State Handler Args Ret → Event Handler Args Ret →
    State Handler Args Ret → Prop
  | .callable params, s, event, s' => OwnerStep s event s' ∨ Callable.Step params s event s'
  | .mapCallable, s, event, s' => OwnerStep s event s' ∨ MapCallable.Step s event s'

/-- A newly built object. -/
def Fresh (s : State Handler Args Ret) : Prop :=
  ∃ should_call_sighandler, s = ⟨Fields.make should_call_sighandler, .idle⟩

end ParallelLabs.Callables
