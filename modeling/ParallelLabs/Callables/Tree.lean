import ParallelLabs.Callables.Machine

/-!
# `MultipleCallable`

A callable is a tree: its leaves are objects of `Callable` and `MapCallable`, and
an inner node is a `MultipleCallable` with the callables that were added to it.
`run` of an inner node goes through them in order. It asks the interrupter before
each, runs it, and if it has a result copies the result and calls
`handle_success`; then it goes on with the next one. An exception of a child ends
the loop, and so does an exception of the interrupter.

`Tree.Step` gives the steps of a tree. A step is made by one node, at a path, and
the label says what the node does (`Deed`). A step that lets an exception out of
`run` of its node says so, and the node above catches it. A property of all nodes
that every single step keeps is kept by the steps of the tree (`Tree.All`).
-/

set_option autoImplicit false

namespace ParallelLabs.Callables

/-- The fields of `MultipleCallable` besides `_callables`. -/
structure MultipleFields (Handler : Type) where
  should_call_sighandler : Bool
  finished : Bool
  hasResultFlag : Bool
  sighandlerSet : Bool
  resultString : String
  sighandler : Option Handler
  deriving DecidableEq, Repr

namespace MultipleFields

variable {Handler : Type}

/-- A new object. -/
def make : MultipleFields Handler := ⟨true, false, false, false, "", none⟩

/-- A new object that got a handler. -/
def withHandler (handler : Handler) : MultipleFields Handler :=
  ⟨true, false, false, true, "", some handler⟩

/-- `has_result`. -/
def hasResult (f : MultipleFields Handler) : Bool := f.hasResultFlag && f.finished

/-- The assignments after a callable had a result. -/
def store (f : MultipleFields Handler) (result : String) : MultipleFields Handler :=
  { f with finished := true, hasResultFlag := true, resultString := result }

end MultipleFields

/-- The points of `run` of a `MultipleCallable`. -/
inductive MultiplePoint where
  /-- Not running. -/
  | idle
  /-- At the head of the loop, with the index of the next callable. -/
  | poll (i : Nat)
  /-- At the call of `runner->run()`. -/
  | enter (i : Nat)
  /-- Inside `runner->run()`. -/
  | inside (i : Nat)
  /-- At `handle_success`, after the callable of an index. -/
  | notify (i : Nat)
  deriving DecidableEq, Repr

/-- A callable with all that was added to it. -/
inductive Tree (Handler Args Ret : Type) where
  | leaf (kind : Class Args) (state : State Handler Args Ret)
  | multiple (fields : MultipleFields Handler) (point : MultiplePoint)
      (callables : List (Tree Handler Args Ret))

/-- What a node does in a step. -/
inductive Deed (Handler Args Ret : Type) where
  /-- A step of a leaf in its `run`, from a point of it. -/
  | leaf (kind : Class Args) (point : Point Args) (event : Event Handler Args Ret)
  /-- A leaf or an inner node without a handler throws `RunWithNoSighandler`. -/
  | runUnset
  | run
  /-- The check before a callable, of class `Callable` or not; no answer if it throws. -/
  | checkNextSyncCall (callable : Bool) (answer : Option Bool)
  /-- A call of `handle_success`, which returns or throws. -/
  | handleSuccess (returns : Bool)
  /-- The loop goes on or ends, without a call. -/
  | loop

variable {Handler Args Ret : Type}

/-- A step of the `run` of a leaf. -/
def Class.OwnStep : Class Args → State Handler Args Ret → Event Handler Args Ret →
    State Handler Args Ret → Prop
  | .callable params => Callable.Step params
  | .mapCallable => MapCallable.Step

/-- An exception leaves `run` of a `Callable`; `run` of a `MapCallable` catches it. -/
def Class.escapes : Class Args → Event Handler Args Ret → Bool
  | .callable _, .throws => true
  | _, _ => false

namespace Tree

/-- `has_result`. -/
def hasResult : Tree Handler Args Ret → Bool
  | .leaf _ s => s.fields.hasResult
  | .multiple f _ _ => f.hasResult

/-- `to_string`, given the conversion of a return value. -/
def toString (cast : Ret → String) : Tree Handler Args Ret → Option String
  | .leaf _ s => s.fields.getResult.map cast
  | .multiple f _ _ => some f.resultString

def sighandlerSet : Tree Handler Args Ret → Bool
  | .leaf _ s => s.fields.sighandlerSet
  | .multiple f _ _ => f.sighandlerSet

def sighandler : Tree Handler Args Ret → Option Handler
  | .leaf _ s => s.fields.sighandler
  | .multiple f _ _ => f.sighandler

/-- The tree is a single `Callable`. -/
def isCallable : Tree Handler Args Ret → Bool
  | .leaf (.callable _) _ => true
  | _ => false

/-- The root is not running. -/
def Idle : Tree Handler Args Ret → Prop
  | .leaf _ s => s.point = .idle
  | .multiple _ point _ => point = .idle

/-- The steps of a tree: the path of the node that makes the step, what it does,
whether an exception leaves `run` of the root, and the tree afterwards. -/
inductive Step (cast : Ret → String) : Tree Handler Args Ret → List Nat →
    Deed Handler Args Ret → Bool → Tree Handler Args Ret → Prop where
  | leaf (kind : Class Args) {s s' : State Handler Args Ret} {event : Event Handler Args Ret}
      (own : kind.OwnStep s event s') :
      Step cast (.leaf kind s) [] (.leaf kind s.point event) (kind.escapes event) (.leaf kind s')
  | leafUnset (kind : Class Args) (f : Fields Handler Ret) (unset : f.sighandlerSet = false) :
      Step cast (.leaf kind ⟨f, .idle⟩) [] .runUnset true (.leaf kind ⟨f, .idle⟩)
  | runUnset (f : MultipleFields Handler) (cs : List (Tree Handler Args Ret))
      (unset : f.sighandlerSet = false) :
      Step cast (.multiple f .idle cs) [] .runUnset true (.multiple f .idle cs)
  | run (f : MultipleFields Handler) (cs : List (Tree Handler Args Ret))
      (set : f.sighandlerSet = true) :
      Step cast (.multiple f .idle cs) [] .run false (.multiple f (.poll 0) cs)
  | exhausted (f : MultipleFields Handler) (i : Nat) (cs : List (Tree Handler Args Ret))
      (last : cs.length ≤ i) :
      Step cast (.multiple f (.poll i) cs) [] .loop false (.multiple f .idle cs)
  | goOn (f : MultipleFields Handler) (i : Nat) (cs : List (Tree Handler Args Ret))
      {t : Tree Handler Args Ret} {handler : Handler} (next : cs[i]? = some t)
      (set : f.sighandler = some handler) :
      Step cast (.multiple f (.poll i) cs) [] (.checkNextSyncCall t.isCallable (some true)) false
        (.multiple f (.enter i) cs)
  | stop (f : MultipleFields Handler) (i : Nat) (cs : List (Tree Handler Args Ret))
      {t : Tree Handler Args Ret} {handler : Handler} (next : cs[i]? = some t)
      (set : f.sighandler = some handler) :
      Step cast (.multiple f (.poll i) cs) [] (.checkNextSyncCall t.isCallable (some false)) false
        (.multiple f .idle cs)
  | checkThrows (f : MultipleFields Handler) (i : Nat) (cs : List (Tree Handler Args Ret))
      {t : Tree Handler Args Ret} {handler : Handler} (next : cs[i]? = some t)
      (set : f.sighandler = some handler) :
      Step cast (.multiple f (.poll i) cs) [] (.checkNextSyncCall t.isCallable none) false
        (.multiple f .idle cs)
  /-- A callable is entered. -/
  | enter (f : MultipleFields Handler) (i : Nat) (cs : List (Tree Handler Args Ret))
      {t t' : Tree Handler Args Ret} {path : List Nat} {deed : Deed Handler Args Ret}
      (current : cs[i]? = some t) (step : Step cast t path deed false t') :
      Step cast (.multiple f (.enter i) cs) (i :: path) deed false
        (.multiple f (.inside i) (cs.set i t'))
  | enterThrows (f : MultipleFields Handler) (i : Nat) (cs : List (Tree Handler Args Ret))
      {t t' : Tree Handler Args Ret} {path : List Nat} {deed : Deed Handler Args Ret}
      (current : cs[i]? = some t) (step : Step cast t path deed true t') :
      Step cast (.multiple f (.enter i) cs) (i :: path) deed false
        (.multiple f .idle (cs.set i t'))
  /-- The current callable takes a step. -/
  | inside (f : MultipleFields Handler) (i : Nat) (cs : List (Tree Handler Args Ret))
      {t t' : Tree Handler Args Ret} {path : List Nat} {deed : Deed Handler Args Ret}
      (current : cs[i]? = some t) (running : ¬ t.Idle) (step : Step cast t path deed false t') :
      Step cast (.multiple f (.inside i) cs) (i :: path) deed false
        (.multiple f (.inside i) (cs.set i t'))
  /-- It throws, and the loop ends. -/
  | insideThrows (f : MultipleFields Handler) (i : Nat) (cs : List (Tree Handler Args Ret))
      {t t' : Tree Handler Args Ret} {path : List Nat} {deed : Deed Handler Args Ret}
      (current : cs[i]? = some t) (running : ¬ t.Idle) (step : Step cast t path deed true t') :
      Step cast (.multiple f (.inside i) cs) (i :: path) deed false
        (.multiple f .idle (cs.set i t'))
  /-- It has returned, and has no result. -/
  | returned (f : MultipleFields Handler) (i : Nat) (cs : List (Tree Handler Args Ret))
      {t : Tree Handler Args Ret} (current : cs[i]? = some t) (idle : t.Idle)
      (none : t.hasResult = false) :
      Step cast (.multiple f (.inside i) cs) [] .loop false (.multiple f (.poll (i + 1)) cs)
  /-- It has returned, and its result is copied. -/
  | returnedResult (f : MultipleFields Handler) (i : Nat) (cs : List (Tree Handler Args Ret))
      {t : Tree Handler Args Ret} {result : String} (current : cs[i]? = some t) (idle : t.Idle)
      (has : t.hasResult = true) (converted : t.toString cast = some result) :
      Step cast (.multiple f (.inside i) cs) [] .loop false
        (.multiple (f.store result) (.notify i) cs)
  | handleSuccess (f : MultipleFields Handler) (i : Nat) (cs : List (Tree Handler Args Ret))
      {handler : Handler} (set : f.sighandler = some handler) :
      Step cast (.multiple f (.notify i) cs) [] (.handleSuccess true) false
        (.multiple f (.poll (i + 1)) cs)
  | handleThrows (f : MultipleFields Handler) (i : Nat) (cs : List (Tree Handler Args Ret))
      {handler : Handler} (set : f.sighandler = some handler) :
      Step cast (.multiple f (.notify i) cs) [] (.handleSuccess false) false
        (.multiple f .idle cs)

/-! ## Properties of all nodes -/

/-- A property of a node and all nodes below it. -/
inductive All (P : Tree Handler Args Ret → Prop) : Tree Handler Args Ret → Prop where
  | leaf (kind : Class Args) (s : State Handler Args Ret) (here : P (.leaf kind s)) :
      All P (.leaf kind s)
  | multiple (f : MultipleFields Handler) (point : MultiplePoint)
      (cs : List (Tree Handler Args Ret)) (here : P (.multiple f point cs))
      (below : ∀ t ∈ cs, All P t) : All P (.multiple f point cs)

variable {P Q : Tree Handler Args Ret → Prop}

theorem All.here {t : Tree Handler Args Ret} (all : t.All P) : P t := by
  cases all with
  | leaf _ _ here => exact here
  | multiple _ _ _ here _ => exact here

theorem All.children {f : MultipleFields Handler} {point : MultiplePoint}
    {cs : List (Tree Handler Args Ret)} (all : (Tree.multiple f point cs).All P) :
    ∀ t ∈ cs, t.All P := by
  cases all with
  | multiple _ _ _ _ below => exact below

theorem All.of_getElem? {f : MultipleFields Handler} {point : MultiplePoint}
    {cs : List (Tree Handler Args Ret)} (all : (Tree.multiple f point cs).All P) {i : Nat}
    {t : Tree Handler Args Ret} (current : cs[i]? = some t) : t.All P :=
  all.children t (List.mem_of_getElem? current)

theorem All.imp {t : Tree Handler Args Ret} (all : t.All P) (weaker : ∀ t, P t → Q t) :
    t.All Q := by
  induction all with
  | leaf kind s here => exact .leaf kind s (weaker _ here)
  | multiple f point cs here _ ih => exact .multiple f point cs (weaker _ here) ih

/-- The callables after one of them has been replaced. -/
theorem getElem?_set_eq_some {cs : List (Tree Handler Args Ret)} {i j : Nat}
    {t' u : Tree Handler Args Ret} (there : (cs.set i t')[j]? = some u) :
    j = i ∧ u = t' ∨ j ≠ i ∧ cs[j]? = some u := by
  by_cases same : i = j
  · subst same
    rw [List.getElem?_set, if_pos rfl] at there
    split at there
    · exact .inl ⟨rfl, (Option.some.inj there).symm⟩
    · cases there
  · rw [List.getElem?_set_ne same] at there
    exact .inr ⟨Ne.symm same, there⟩

/-- One of the callables below is replaced. -/
theorem forall_mem_set {cs : List (Tree Handler Args Ret)} {i : Nat} {t' : Tree Handler Args Ret}
    (all : ∀ t ∈ cs, P t) (new : P t') : ∀ t ∈ cs.set i t', P t := by
  intro t member
  rcases List.mem_or_eq_of_mem_set member with old | rfl
  · exact all t old
  · exact new

/-- **The rule for properties of the fields.** A property of nodes that the steps
of a leaf and the copying of a result keep, and that does not depend on the point
of a `MultipleCallable` or on its callables, is kept by the steps of a tree. -/
theorem Step.all {cast : Ret → String} {t t' : Tree Handler Args Ret} {path : List Nat}
    {deed : Deed Handler Args Ret} {escapes : Bool}
    (leafKept : ∀ kind s event s', Class.OwnStep kind s event s' → P (.leaf kind s) →
      P (.leaf kind s'))
    (moved : ∀ f point cs point' cs', P (.multiple f point cs) → P (.multiple f point' cs'))
    (copied : ∀ f point cs result, P (.multiple f point cs) →
      P (.multiple (f.store result) point cs))
    (step : t.Step cast path deed escapes t') (all : t.All P) : t'.All P := by
  induction step with
  | leaf kind own => exact .leaf kind _ (leafKept kind _ _ _ own all.here)
  | leafUnset | runUnset => exact all
  | run f cs | exhausted f i cs | goOn f i cs | stop f i cs | checkThrows f i cs | returned f i cs
  | handleSuccess f i cs | handleThrows f i cs =>
      exact .multiple f _ cs (moved f _ cs _ cs all.here) all.children
  | returnedResult f i cs =>
      exact .multiple _ _ cs (moved _ _ cs _ cs (copied f _ cs _ all.here)) all.children
  | enter f i cs current _ ih | enterThrows f i cs current _ ih | inside f i cs current _ _ ih
  | insideThrows f i cs current _ _ ih =>
      exact .multiple f _ _ (moved f _ cs _ _ all.here)
        (forall_mem_set all.children (ih (all.of_getElem? current)))

end Tree

end ParallelLabs.Callables
