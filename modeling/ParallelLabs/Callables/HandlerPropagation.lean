import ParallelLabs.Callables.Tree
import Mathlib.Logic.Function.Basic

/-!
# The handler reaches every node

A tree is built by `add_single_callable`, one callable at a time and in any order:
a callable may be added with all that was added to it before, or get more later.
Each time it takes over the handler of the object that it is added to, down to
its last node. The runner's `add` gives the root its handler in the same way.

Before the `add` of the root the handlers are null. After it the root's handler is
at every node, and a callable added later, at any depth, takes it over from there
(`handled_of_registered`). So no node is run without a handler.
-/

set_option autoImplicit false

namespace ParallelLabs.Callables

open Library

variable {Handler Args Ret : Type}

/-- A leaf keeps its handler while it runs. -/
theorem Class.OwnStep.keeps_handler {kind : Class Args} {s s' : State Handler Args Ret}
    {event : Event Handler Args Ret} (own : kind.OwnStep s event s') :
    s'.fields.sighandlerSet = s.fields.sighandlerSet ∧
      s'.fields.sighandler = s.fields.sighandler := by
  cases kind with
  | callable params =>
      cases own with
      | run | call | rejected | accepted | handleSuccess | throws => exact ⟨rfl, rfl⟩
  | mapCallable =>
      cases own with
      | run | more | exhausted | next | goOn | stop | call | rejected | accepted | handleSuccess
      | throws => exact ⟨rfl, rfl⟩

namespace Tree

mutual
/-- `set_sig_handler`, which a `MultipleCallable` passes on to its callables. -/
def setSigHandler (handler : Option Handler) : Tree Handler Args Ret → Tree Handler Args Ret
  | .leaf kind s => .leaf kind { s with fields := s.fields.setSigHandler handler }
  | .multiple f point cs =>
      .multiple { f with sighandler := handler, sighandlerSet := true } point
        (setSigHandlers handler cs)

def setSigHandlers (handler : Option Handler) :
    List (Tree Handler Args Ret) → List (Tree Handler Args Ret)
  | [] => []
  | t :: ts => t.setSigHandler handler :: setSigHandlers handler ts
end

/-- The assignment `should_call_sighandler = false`. -/
def silence : Tree Handler Args Ret → Tree Handler Args Ret
  | .leaf kind s =>
      .leaf kind { s with fields := { s.fields with should_call_sighandler := false } }
  | .multiple f point cs => .multiple { f with should_call_sighandler := false } point cs

/-- `add_single_callable` of the `MultipleCallable` at a path. -/
def addSingleCallable : Tree Handler Args Ret → Tree Handler Args Ret → List Nat →
    Option (Tree Handler Args Ret)
  | .multiple f point cs, runner, [] =>
      some (.multiple f point (cs ++ [(runner.setSigHandler f.sighandler).silence]))
  | .multiple f point cs, runner, i :: path =>
      match cs[i]? with
      | none => none
      | some t =>
          match t.addSingleCallable runner path with
          | none => none
          | some t' => some (.multiple f point (cs.set i t'))
  | .leaf _ _, _, _ => none

/-- A newly built object. -/
inductive New : Tree Handler Args Ret → Prop where
  | leaf (kind : Class Args) (should_call_sighandler : Bool) :
      New (.leaf kind ⟨.make should_call_sighandler, .idle⟩)
  | multiple : New (.multiple .make .idle [])

/-- The node has the handler. -/
def HasHandler (handler : Handler) (t : Tree Handler Args Ret) : Prop :=
  t.sighandlerSet = true ∧ t.sighandler = some handler

/-- All nodes have the handler. -/
def Handled (handler : Handler) (t : Tree Handler Args Ret) : Prop := t.All (HasHandler handler)

mutual
/-- `set_sig_handler` reaches all nodes. -/
theorem handled_setSigHandler (handler : Handler) : ∀ t : Tree Handler Args Ret,
    (t.setSigHandler (some handler)).Handled handler
  | .leaf kind _ => .leaf kind _ ⟨rfl, rfl⟩
  | .multiple _ point cs => .multiple _ point _ ⟨rfl, rfl⟩ (handled_setSigHandlers handler cs)

theorem handled_setSigHandlers (handler : Handler) : ∀ cs : List (Tree Handler Args Ret),
    ∀ t ∈ setSigHandlers (some handler) cs, t.Handled handler
  | [], _, member => absurd member List.not_mem_nil
  | t :: ts, u, member => by
      rcases List.mem_cons.mp member with rfl | later
      · exact handled_setSigHandler handler t
      · exact handled_setSigHandlers handler ts u later
end

variable {handler : Handler} {t t' : Tree Handler Args Ret}

theorem Handled.silence (handled : t.Handled handler) : t.silence.Handled handler := by
  cases handled with
  | leaf kind s here => exact .leaf kind _ here
  | multiple f point cs here children => exact .multiple _ point cs here children

/-- **A callable takes over the handler** of the tree that it is added to. -/
theorem Handled.addSingleCallable {runner : Tree Handler Args Ret} {path : List Nat}
    (handled : t.Handled handler) (added : t.addSingleCallable runner path = some t') :
    t'.Handled handler := by
  induction path generalizing t t' with
  | nil =>
      cases t with
      | leaf kind s => cases added
      | multiple f point cs =>
          cases added
          refine .multiple f point _ handled.here fun u member => ?_
          rcases List.mem_append.mp member with old | new
          · exact handled.children u old
          · rw [List.mem_singleton.mp new, show f.sighandler = some handler from handled.here.2]
            exact (handled_setSigHandler handler runner).silence
  | cons i path ih =>
      cases t with
      | leaf kind s => cases added
      | multiple f point cs =>
          rw [Tree.addSingleCallable] at added
          cases current : cs[i]? with
          | none =>
              rw [current] at added
              cases added
          | some u =>
              rw [current] at added
              cases inner : u.addSingleCallable runner path with
              | none =>
                  simp only [inner] at added
                  cases added
              | some u' =>
                  simp only [inner, Option.some.injEq] at added
                  subst added
                  exact .multiple f point _ handled.here
                    (forall_mem_set handled.children (ih (handled.of_getElem? current) inner))

/-! ## Runs -/

variable {cast : Ret → String} {path : List Nat} {deed : Deed Handler Args Ret} {escapes : Bool}

/-- **A step of a tree keeps the handlers.** -/
theorem Handled.step (handled : t.Handled handler) (step : t.Step cast path deed escapes t') :
    t'.Handled handler := by
  refine Step.all (fun kind s event s' own has => ?_) (fun _ _ _ _ _ has => has)
    (fun _ _ _ _ has => has) step handled
  obtain ⟨set, same⟩ := own.keeps_handler
  exact ⟨set.trans has.1, same.trans has.2⟩

/-- A tree whose nodes have a handler does not throw `RunWithNoSighandler`. -/
theorem Handled.ne_runUnset (handled : t.Handled handler)
    (step : t.Step cast path deed escapes t') : deed ≠ .runUnset := by
  induction step with
  | leafUnset kind f unset =>
      have set : f.sighandlerSet = true := handled.here.1
      rw [unset] at set
      cases set
  | runUnset f cs unset =>
      have set : f.sighandlerSet = true := handled.here.1
      rw [unset] at set
      cases set
  | leaf | run | exhausted | goOn | stop | checkThrows | returned | returnedResult | handleSuccess
  | handleThrows => exact fun same => by cases same
  | enter f i cs current _ ih | enterThrows f i cs current _ ih | inside f i cs current _ _ ih
  | insideThrows f i cs current _ _ ih => exact ih (handled.of_getElem? current)

end Tree

/-! ## Building a tree -/

/-- The trees built so far, by name, and the root that a runner was given, with
the handler that it got. -/
structure Forest (Handler Args Ret : Type) where
  trees : Nat → Option (Tree Handler Args Ret)
  registered : Option (Nat × Handler)

inductive Building (Handler Args Ret : Type) where
  | create (name : Nat)
  /-- The tree `runner` is added to the `MultipleCallable` at a path of another one. -/
  | addSingleCallable (name : Nat) (path : List Nat) (runner : Nat)
  /-- `add` of the runner. -/
  | add (root : Nat) (handler : Handler)
  /-- A step of the `run` of the root. -/
  | step (path : List Nat) (deed : Deed Handler Args Ret)

namespace Forest

/-- The tree of a name is not running. -/
def Holds (s : Forest Handler Args Ret) (name : Nat) (t : Tree Handler Args Ret) : Prop :=
  s.trees name = some t ∧ t.Idle

inductive Step (cast : Ret → String) (s : Forest Handler Args Ret) :
    Building Handler Args Ret → Forest Handler Args Ret → Prop where
  | create (name : Nat) {t : Tree Handler Args Ret} (unused : s.trees name = none) (new : t.New) :
      Step cast s (.create name) { s with trees := Function.update s.trees name (some t) }
  /-- The root is added to no other tree. -/
  | addSingleCallable (name : Nat) (path : List Nat) (runner : Nat)
      {t u t' : Tree Handler Args Ret} (there : s.Holds name t) (other : s.Holds runner u)
      (different : runner ≠ name) (free : ∀ handler, s.registered ≠ some (runner, handler))
      (added : t.addSingleCallable u path = some t') :
      Step cast s (.addSingleCallable name path runner)
        { s with trees := Function.update (Function.update s.trees runner none) name (some t') }
  | add (root : Nat) (handler : Handler) {t : Tree Handler Args Ret} (there : s.Holds root t)
      (first : s.registered = none) :
      Step cast s (.add root handler)
        ⟨Function.update s.trees root (some (t.setSigHandler (some handler))),
          some (root, handler)⟩
  | step {root : Nat} {handler : Handler} (path : List Nat) {deed : Deed Handler Args Ret}
      {escapes : Bool} {t t' : Tree Handler Args Ret}
      (registered : s.registered = some (root, handler)) (there : s.trees root = some t)
      (own : t.Step cast path deed escapes t') :
      Step cast s (.step path deed)
        { s with trees := Function.update s.trees root (some t') }

/-- Nothing has been built. -/
def Started (s : Forest Handler Args Ret) : Prop :=
  s.trees = (fun _ => none) ∧ s.registered = none

/-- **The invariant of the trees.** The root that was given to a runner has the
handler at all nodes. -/
def Inv (s : Forest Handler Args Ret) : Prop :=
  ∀ root handler, s.registered = some (root, handler) →
    ∃ t, s.trees root = some t ∧ t.Handled handler

variable {cast : Ret → String} {s s' : Forest Handler Args Ret}
  {building : Building Handler Args Ret}

/-- **A step keeps the invariant.** -/
theorem Inv.step (inv : s.Inv) (step : s.Step cast building s') : s'.Inv := by
  cases step with
  | create name unused new =>
      intro root handler registered
      obtain ⟨t, there, handled⟩ := inv root handler registered
      refine ⟨t, ?_, handled⟩
      by_cases same : root = name
      · rw [same, unused] at there
        cases there
      · exact (Function.update_of_ne same _ _).trans there
  | addSingleCallable name path runner there other different free added =>
      intro root handler registered
      obtain ⟨t, stored, handled⟩ := inv root handler registered
      by_cases same : root = name
      · subst same
        obtain rfl := Option.some.inj (stored.symm.trans there.1)
        exact ⟨_, Function.update_self _ _ _, handled.addSingleCallable added⟩
      · refine ⟨t, ?_, handled⟩
        have away : root ≠ runner := by
          rintro rfl
          exact free handler registered
        exact (Function.update_of_ne same _ _).trans
          ((Function.update_of_ne away _ _).trans stored)
  | add root handler there first =>
      intro root' handler' registered
      obtain ⟨rfl, rfl⟩ := Prod.mk.inj (Option.some.inj registered)
      exact ⟨_, Function.update_self _ _ _, Tree.handled_setSigHandler _ _⟩
  | step path registered there own =>
      intro root' handler' registered'
      obtain ⟨rfl, rfl⟩ := Prod.mk.inj (Option.some.inj (registered.symm.trans registered'))
      obtain ⟨t, stored, handled⟩ := inv _ _ registered
      obtain rfl := Option.some.inj (stored.symm.trans there)
      exact ⟨_, Function.update_self _ _ _, handled.step own⟩

end Forest

/-- **The handler of the root is at every node** after the runner's `add`, in any
order of building, and no node is run without one. -/
theorem handled_of_registered {cast : Ret → String} {events : List (Building Handler Args Ret)}
    {s : Forest Handler Args Ret} (run : Run (Forest.Step cast) Forest.Started events s)
    {root : Nat} {handler : Handler} (registered : s.registered = some (root, handler)) :
    ∃ t, s.trees root = some t ∧ t.Handled handler ∧
      ∀ path deed escapes t', t.Step cast path deed escapes t' → deed ≠ .runUnset := by
  have inv : s.Inv := by
    refine run.invariant (fun _ s => s.Inv) ?_ fun _ _ _ _ inv next => inv.step next
    intro s started root handler registered
    rw [started.2] at registered
    cases registered
  obtain ⟨t, there, handled⟩ := inv root handler registered
  exact ⟨t, there, handled, fun _ _ _ _ step => handled.ne_runUnset step⟩

/-- A callable below an inner node before the runner's `add`, and another one
added to the inner node after it. -/
theorem handled_of_registered_late :
    ∃ (events : List (Building Bool Unit Unit)) (s : Forest Bool Unit Unit)
      (t : Tree Bool Unit Unit),
      Run (Forest.Step fun _ => "") Forest.Started events s ∧ s.trees 0 = some t ∧
        t.Handled true := by
  have start : Run (Forest.Step fun _ : Unit => "") Forest.Started []
      (⟨fun _ => none, none⟩ : Forest Bool Unit Unit) := .start ⟨rfl, rfl⟩
  have run := start
    |>.snoc (.create 0 rfl .multiple)
    |>.snoc (.create 1 rfl .multiple)
    |>.snoc (.create 2 rfl (.leaf (.callable ()) true))
    |>.snoc (.addSingleCallable 1 [] 2 ⟨rfl, rfl⟩ ⟨rfl, rfl⟩ (by decide)
      (fun _ same => by cases same) rfl)
    |>.snoc (.addSingleCallable 0 [] 1 ⟨rfl, rfl⟩ ⟨rfl, rfl⟩ (by decide)
      (fun _ same => by cases same) rfl)
    |>.snoc (.add 0 true ⟨rfl, rfl⟩ rfl)
    |>.snoc (.create 3 rfl (.leaf .mapCallable true))
    |>.snoc (.addSingleCallable 0 [0] 3 ⟨rfl, rfl⟩ ⟨rfl, rfl⟩ (by decide)
      (fun _ same => by cases same) rfl)
  obtain ⟨t, there, handled, _⟩ := handled_of_registered run rfl
  exact ⟨_, _, t, run, there, handled⟩

end ParallelLabs.Callables
