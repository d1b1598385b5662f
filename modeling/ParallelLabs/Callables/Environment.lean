import ParallelLabs.Callables.Tree

/-!
# A worker in its environment

A callable calls four functions of others: the function that it was built with,
the result checker, `check_next_sync_call` and `handle_success` of the handler.
Each of them may have a state, may read the state of the others, and may throw.
The generator of a `MapCallable` yields the tuples of a list.

In an environment of this kind the steps of a callable are determined, whatever
tree it is (`Environment.deterministic`).
-/

set_option autoImplicit false

namespace ParallelLabs.Callables

open Library

/-- The functions that a callable calls, with the state that they leave. A function
that has no answer throws. -/
structure Environment (Env Args Ret : Type) where
  function : Env → Args → Env × Option Ret
  result_checker : Env → Ret → Env × Option Bool
  check_next_sync_call : Env → Env × Option Bool
  /-- Whether it returns. -/
  handle_success : Env → Env × Bool

/-- A callable with what is outside of it: the tuples that the generator has still
to yield, and the state of the environment. -/
structure Worker (Env Handler Args Ret : Type) where
  callable : Tree Handler Args Ret
  outside : List Args × Env

namespace Environment

variable {Env Handler Args Ret : Type} (e : Environment Env Args Ret)

/-- What a leaf does next, and what it leaves outside. -/
def event (s : State Handler Args Ret) :
    List Args × Env → Event Handler Args Ret × List Args × Env
  | (tuples, env) =>
    match s.point with
    | .idle => (.run, tuples, env)
    | .test => (.hasNext (!tuples.isEmpty), tuples, env)
    | .fetch =>
      match tuples with
      | [] => (.throws, [], env)
      | args :: later => (.next args, later, env)
    | .poll _ =>
      match e.check_next_sync_call env with
      | (env', some answer) => (.checkNextSyncCall answer, tuples, env')
      | (env', none) => (.throws, tuples, env')
    | .invoke args =>
      match e.function env args with
      | (env', some value) => (.call args value, tuples, env')
      | (env', none) => (.throws, tuples, env')
    | .judge =>
      match s.fields.result with
      | none => (.throws, tuples, env)
      | some value =>
        match e.result_checker env value with
        | (env', some answer) => (.resultChecker value answer, tuples, env')
        | (env', none) => (.throws, tuples, env')
    | .notify =>
      match e.handle_success env with
      | (env', true) => (.handleSuccess, tuples, env')
      | (env', false) => (.throws, tuples, env')

/-- A deed of the node at a path is what the environment makes of it. -/
def Answers : List Nat → Tree Handler Args Ret → Deed Handler Args Ret → List Args × Env →
    List Args × Env → Prop
  | [], .leaf _ s, .leaf _ _ event, before, after => (event, after) = e.event s before
  | [], .multiple _ _ _, .checkNextSyncCall _ answer, (tuples, env), after =>
      (after, answer) = ((tuples, (e.check_next_sync_call env).1), (e.check_next_sync_call env).2)
  | [], .multiple _ _ _, .handleSuccess returns, (tuples, env), after =>
      (after, returns) = ((tuples, (e.handle_success env).1), (e.handle_success env).2)
  | i :: path, .multiple _ _ cs, deed, before, after =>
      ∃ t, cs[i]? = some t ∧ Answers path t deed before after
  | _, _, _, before, after => after = before

/-- A step of a callable that is running. -/
def Step (cast : Ret → String) (w : Worker Env Handler Args Ret)
    (act : List Nat × Deed Handler Args Ret) (w' : Worker Env Handler Args Ret) : Prop :=
  ¬ w.callable.Idle ∧ ∃ escapes, w.callable.Step cast act.1 act.2 escapes w'.callable ∧
    e.Answers act.1 w.callable act.2 w.outside w'.outside

/-- The callable has been entered. -/
def Entered (cast : Ret → String) (t : Tree Handler Args Ret) (outside : List Args × Env)
    (w : Worker Env Handler Args Ret) : Prop :=
  ∃ deed : Deed Handler Args Ret, t.Idle ∧ t.Step cast [] deed false w.callable ∧
    w.outside = outside

/-! ## Determinism -/

/-- A step of a leaf is determined by its event. -/
theorem own_deterministic {kind : Class Args} {s s' t : State Handler Args Ret}
    {event : Event Handler Args Ret} (own : kind.OwnStep s event s')
    (other : kind.OwnStep s event t) : s' = t := by
  cases kind with
  | callable params => cases own <;> cases other <;> rfl
  | mapCallable => cases own <;> cases other <;> rfl

/-- A leaf that is entered has a handler. -/
theorem entered_own {kind : Class Args} {f : Fields Handler Ret}
    {event : Event Handler Args Ret} {s' : State Handler Args Ret}
    (own : kind.OwnStep ⟨f, .idle⟩ event s') : f.sighandlerSet = true ∧ event = .run := by
  cases kind with
  | callable params =>
      cases own with
      | run _ set => exact ⟨set, rfl⟩
      | throws _ _ running => exact absurd rfl running
  | mapCallable =>
      cases own with
      | run _ set => exact ⟨set, rfl⟩
      | throws _ _ running => exact absurd rfl running

variable {e}

/-- **A step of a tree is determined** by its environment. -/
theorem step_deterministic {cast : Ret → String} {t t' u : Tree Handler Args Ret}
    {path path' : List Nat} {deed deed' : Deed Handler Args Ret} {escapes escapes' : Bool}
    {before after after' : List Args × Env} (step : t.Step cast path deed escapes t')
    (answers : e.Answers path t deed before after) (step' : t.Step cast path' deed' escapes' u)
    (answers' : e.Answers path' t deed' before after') :
    path = path' ∧ deed = deed' ∧ escapes = escapes' ∧ t' = u ∧ after = after' := by
  obtain ⟨tuples, env⟩ := before
  induction step generalizing path' deed' escapes' u with
  | leaf kind own =>
      cases step' with
      | leaf _ own' =>
          obtain ⟨rfl, rfl⟩ := Prod.mk.inj (Eq.trans answers (Eq.symm answers'))
          rw [own_deterministic own own']
          exact ⟨rfl, rfl, rfl, rfl, rfl⟩
      | leafUnset _ f unset =>
          rw [(entered_own own).1] at unset
          cases unset
  | leafUnset kind f unset =>
      cases step' with
      | leaf _ own' =>
          rw [(entered_own own').1] at unset
          cases unset
      | leafUnset => exact ⟨rfl, rfl, rfl, rfl, Eq.trans answers (Eq.symm answers')⟩
  | runUnset f cs unset =>
      cases step' with
      | runUnset => exact ⟨rfl, rfl, rfl, rfl, Eq.trans answers (Eq.symm answers')⟩
      | run _ _ set =>
          rw [unset] at set
          cases set
  | run f cs set =>
      cases step' with
      | runUnset _ _ unset =>
          rw [unset] at set
          cases set
      | run => exact ⟨rfl, rfl, rfl, rfl, Eq.trans answers (Eq.symm answers')⟩
  | exhausted f i cs last =>
      cases step' with
      | exhausted => exact ⟨rfl, rfl, rfl, rfl, Eq.trans answers (Eq.symm answers')⟩
      | goOn _ _ _ next | stop _ _ _ next | checkThrows _ _ _ next =>
          rw [List.getElem?_eq_none last] at next
          cases next
  | goOn f i cs next set =>
      cases step' with
      | exhausted _ _ _ last =>
          rw [List.getElem?_eq_none last] at next
          cases next
      | goOn _ _ _ next' =>
          obtain rfl := Option.some.inj (next.symm.trans next')
          obtain ⟨rfl, _⟩ := Prod.mk.inj (Eq.trans answers (Eq.symm answers'))
          exact ⟨rfl, rfl, rfl, rfl, rfl⟩
      | stop | checkThrows => cases (Prod.mk.inj (Eq.trans answers (Eq.symm answers'))).2
  | stop f i cs next set =>
      cases step' with
      | exhausted _ _ _ last =>
          rw [List.getElem?_eq_none last] at next
          cases next
      | stop _ _ _ next' =>
          obtain rfl := Option.some.inj (next.symm.trans next')
          obtain ⟨rfl, _⟩ := Prod.mk.inj (Eq.trans answers (Eq.symm answers'))
          exact ⟨rfl, rfl, rfl, rfl, rfl⟩
      | goOn | checkThrows => cases (Prod.mk.inj (Eq.trans answers (Eq.symm answers'))).2
  | checkThrows f i cs next set =>
      cases step' with
      | exhausted _ _ _ last =>
          rw [List.getElem?_eq_none last] at next
          cases next
      | checkThrows _ _ _ next' =>
          obtain rfl := Option.some.inj (next.symm.trans next')
          obtain ⟨rfl, _⟩ := Prod.mk.inj (Eq.trans answers (Eq.symm answers'))
          exact ⟨rfl, rfl, rfl, rfl, rfl⟩
      | goOn | stop => cases (Prod.mk.inj (Eq.trans answers (Eq.symm answers'))).2
  | enter f i cs current step ih | enterThrows f i cs current step ih =>
      cases step' with
      | enter _ _ _ current' step' | enterThrows _ _ _ current' step' =>
          obtain ⟨_, here, answers⟩ := answers
          obtain rfl := Option.some.inj (current.symm.trans here)
          obtain ⟨_, here, answers'⟩ := answers'
          obtain rfl := Option.some.inj (current.symm.trans here)
          obtain rfl := Option.some.inj (current.symm.trans current')
          obtain ⟨rfl, rfl, same, rfl, rfl⟩ := ih step' answers answers'
          cases same <;> exact ⟨rfl, rfl, rfl, rfl, rfl⟩
  | inside f i cs current running step ih | insideThrows f i cs current running step ih =>
      cases step' with
      | inside _ _ _ current' _ step' | insideThrows _ _ _ current' _ step' =>
          obtain ⟨_, here, answers⟩ := answers
          obtain rfl := Option.some.inj (current.symm.trans here)
          obtain ⟨_, here, answers'⟩ := answers'
          obtain rfl := Option.some.inj (current.symm.trans here)
          obtain rfl := Option.some.inj (current.symm.trans current')
          obtain ⟨rfl, rfl, same, rfl, rfl⟩ := ih step' answers answers'
          cases same <;> exact ⟨rfl, rfl, rfl, rfl, rfl⟩
      | returned _ _ _ current' idle | returnedResult _ _ _ current' idle =>
          obtain rfl := Option.some.inj (current.symm.trans current')
          exact absurd idle running
  | returned f i cs current idle none =>
      cases step' with
      | inside _ _ _ current' running | insideThrows _ _ _ current' running =>
          obtain rfl := Option.some.inj (current.symm.trans current')
          exact absurd idle running
      | returned => exact ⟨rfl, rfl, rfl, rfl, Eq.trans answers (Eq.symm answers')⟩
      | returnedResult _ _ _ current' _ has =>
          obtain rfl := Option.some.inj (current.symm.trans current')
          rw [none] at has
          cases has
  | returnedResult f i cs current idle has converted =>
      cases step' with
      | inside _ _ _ current' running | insideThrows _ _ _ current' running =>
          obtain rfl := Option.some.inj (current.symm.trans current')
          exact absurd idle running
      | returned _ _ _ current' _ none =>
          obtain rfl := Option.some.inj (current.symm.trans current')
          rw [none] at has
          cases has
      | returnedResult _ _ _ current' _ _ converted' =>
          obtain rfl := Option.some.inj (current.symm.trans current')
          obtain rfl := Option.some.inj (converted.symm.trans converted')
          exact ⟨rfl, rfl, rfl, rfl, Eq.trans answers (Eq.symm answers')⟩
  | handleSuccess f i cs | handleThrows f i cs =>
      cases step' with
      | handleSuccess | handleThrows =>
          obtain ⟨rfl, same⟩ := Prod.mk.inj (Eq.trans answers (Eq.symm answers'))
          cases same <;> exact ⟨rfl, rfl, rfl, rfl, rfl⟩

/-- **A worker is deterministic.** -/
theorem deterministic (e : Environment Env Args Ret) (cast : Ret → String) :
    Deterministic
      (e.Step cast : Worker Env Handler Args Ret → _ → Worker Env Handler Args Ret → Prop) := by
  intro w act w' act' v step step'
  obtain ⟨_, _, step, answers⟩ := step
  obtain ⟨_, _, step', answers'⟩ := step'
  obtain ⟨samePath, sameDeed, _, sameTree, same⟩ := step_deterministic step answers step' answers'
  refine ⟨Prod.ext samePath sameDeed, ?_⟩
  obtain ⟨_, _⟩ := w'
  obtain ⟨_, _⟩ := v
  cases sameTree
  cases same
  rfl

/-- A tree is entered in one way. -/
theorem entered_unique {cast : Ret → String} {t : Tree Handler Args Ret}
    {outside : List Args × Env} (w w' : Worker Env Handler Args Ret)
    (entered : Entered cast t outside w) (entered' : Entered cast t outside w') : w = w' := by
  obtain ⟨u, _⟩ := w
  obtain ⟨u', _⟩ := w'
  obtain ⟨deed, idle, step, rfl⟩ := entered
  obtain ⟨deed', _, step', rfl⟩ := entered'
  generalize no : false = escapes at step
  generalize false = escapes' at step'
  cases step with
  | @leaf kind s _ _ own =>
      obtain ⟨f, point⟩ := s
      cases (show point = .idle from idle)
      cases step' with
      | leaf _ own' =>
          obtain ⟨_, rfl⟩ := entered_own own
          obtain ⟨_, rfl⟩ := entered_own own'
          rw [own_deterministic own own']
      | leafUnset _ _ unset =>
          rw [(entered_own own).1] at unset
          cases unset
  | leafUnset | runUnset => cases no
  | run f cs set =>
      cases step' with
      | run => rfl
      | runUnset _ _ unset =>
          rw [set] at unset
          cases unset
  | exhausted | goOn | stop | checkThrows | returned | returnedResult | handleSuccess
  | handleThrows => cases idle

end Environment

end ParallelLabs.Callables
