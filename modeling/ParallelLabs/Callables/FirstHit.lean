import ParallelLabs.Callables.Tree

/-!
# The first hit of a worker

A worker runs the tree that its runner was given. After the first call whose
result is accepted it should make no further call, and it should have called
`handle_success` once when it returns.

Nothing in the tree sees to either. `MultipleCallable` has no `break` after a
success, and neither has a `MapCallable` that must not notify: both ask the
interrupter, whose answer may be true. Every `MultipleCallable` notifies for
itself, whatever its `should_call_sighandler` says, so that a hit below two of
them is notified twice. A worker does stop and notify once in every run in which
the hit is below at most one `MultipleCallable` and no check for a further call
is true after it (`stopsAndNotifies`).

After such a hit the nodes are in one of a few states (`AfterHit`): the hit is
copied and notified by the one node above it, and everything else is still
(`Still`), that is, without a call ahead.
-/

set_option autoImplicit false

namespace ParallelLabs.Callables

open Library

variable {Handler Args Ret : Type}

/-! ## Kinds of deeds -/

namespace Deed

/-- A function is called, and returns or throws. -/
def isCall : Deed Handler Args Ret → Bool
  | .leaf _ (.invoke _) _ => true
  | _ => false

/-- The checker accepts the result of a call. -/
def isHit : Deed Handler Args Ret → Bool
  | .leaf _ .judge (.resultChecker _ true) => true
  | _ => false

/-- `handle_success` is called, and returns or throws. -/
def isNotification : Deed Handler Args Ret → Bool
  | .leaf _ .notify _ => true
  | .handleSuccess _ => true
  | _ => false

/-- A check that is made for a function call is true: the check of a `MapCallable`
or that before a `Callable`. -/
def isGoOn : Deed Handler Args Ret → Bool
  | .leaf _ (.poll _) (.checkNextSyncCall true) => true
  | .checkNextSyncCall true (some true) => true
  | _ => false

end Deed

namespace Tree

/-- The flag `_has_result` of the node. -/
def hasResultFlag : Tree Handler Args Ret → Bool
  | .leaf _ s => s.fields.hasResultFlag
  | .multiple f _ _ => f.hasResultFlag

/-- The flag `should_call_sighandler` of the node. -/
def shouldCall : Tree Handler Args Ret → Bool
  | .leaf _ s => s.fields.should_call_sighandler
  | .multiple f _ _ => f.should_call_sighandler

/-- No callable below the root has a result. -/
def UnsetBelow : Tree Handler Args Ret → Prop
  | .leaf _ _ => True
  | .multiple _ _ cs => ∀ u ∈ cs, u.All fun v => v.hasResultFlag = false

/-- The root notifies and the callables below do not: they were added to something. -/
def Added : Tree Handler Args Ret → Prop
  | .leaf _ s => s.fields.should_call_sighandler = true
  | .multiple _ _ cs => ∀ u ∈ cs, u.All fun v => v.shouldCall = false

/-- A tree that a runner was given. It may have been run before, but nothing below the
root has a result. -/
structure Ready (t : Tree Handler Args Ret) : Prop where
  idle : t.All Idle
  unset : t.UnsetBelow
  added : t.Added

/-- The root has been entered. -/
def Entered (cast : Ret → String) (t : Tree Handler Args Ret) : Prop :=
  ∃ (t₀ : Tree Handler Args Ret) (deed : Deed Handler Args Ret),
    t₀.Ready ∧ t₀.Step cast [] deed false t

/-- A step of the run of the root. -/
def RunStep (cast : Ret → String) (t : Tree Handler Args Ret)
    (act : List Nat × Deed Handler Args Ret) (t' : Tree Handler Args Ret) : Prop :=
  ¬ t.Idle ∧ ∃ escapes, t.Step cast act.1 act.2 escapes t'

end Tree

/-- After the first hit there is no call, and `handle_success` is called once by
the time that the root has returned. -/
structure StopsAndNotifies (events : List (List Nat × Deed Handler Args Ret))
    (t : Tree Handler Args Ret) : Prop where
  stops : ∀ before hit after, events = before ++ hit :: after → hit.2.isHit = true →
    ∀ act ∈ after, act.2.isCall = false
  atMostOnce : events.countP (·.2.isNotification) ≤ 1
  once : t.Idle → (∃ act ∈ events, act.2.isHit = true) → events.countP (·.2.isNotification) = 1

/-- The hit is below at most one `MultipleCallable`, and no check for a call is
true when there is a result below the root. -/
def OneLevel (t : Tree Handler Args Ret) (act : List Nat × Deed Handler Args Ret) : Prop :=
  (act.2.isHit = true → act.1.length ≤ 1) ∧
    (¬ t.UnsetBelow → act.2.isGoOn = false)

/-! ## Before the hit -/

namespace Tree

/-- A node without a result, and not about to notify. -/
def NoHit : Tree Handler Args Ret → Prop
  | .leaf _ s => s.fields.hasResultFlag = false ∧ s.point ≠ .notify ∧
      (s.point = .judge → s.fields.finished = true)
  | .multiple f point _ => f.hasResultFlag = false ∧ ∀ i, point ≠ .notify i

/-- There is no result in the tree. -/
def Unhit (t : Tree Handler Args Ret) : Prop := t.All NoHit

/-- The root is not about to notify, and there is no result below it. -/
def UnhitBelow : Tree Handler Args Ret → Prop
  | .leaf _ s => s.point ≠ .notify
  | .multiple _ point cs => (∀ i, point ≠ .notify i) ∧ ∀ u ∈ cs, u.Unhit

/-- Only the callable that a `MultipleCallable` is inside of is running. -/
inductive Sequential : Tree Handler Args Ret → Prop where
  | leaf (kind : Class Args) (s : State Handler Args Ret) : Sequential (.leaf kind s)
  | multiple (f : MultipleFields Handler) (point : MultiplePoint)
      (cs : List (Tree Handler Args Ret))
      (others : ∀ (j : Nat) t, cs[j]? = some t → point ≠ .inside j → t.All Idle)
      (current : ∀ (j : Nat) t, cs[j]? = some t → point = .inside j → Sequential t) :
      Sequential (.multiple f point cs)

variable {t t' : Tree Handler Args Ret} {cast : Ret → String} {path : List Nat}
  {deed : Deed Handler Args Ret} {escapes : Bool}

theorem Unhit.hasResult (unhit : t.Unhit) : t.hasResult = false := by
  have here := unhit.here
  cases t with
  | leaf kind s =>
      rw [Tree.hasResult, Fields.hasResult, here.1, Bool.and_false]
  | multiple f point cs => rw [Tree.hasResult, MultipleFields.hasResult, here.1, Bool.false_and]

/-- A running tree that has returned is idle at all nodes. -/
theorem Sequential.all_idle (sequential : t.Sequential) (idle : t.Idle) : t.All Idle := by
  cases sequential with
  | leaf kind s => exact .leaf kind s idle
  | multiple f point cs others current =>
      refine .multiple f point cs idle fun u member => ?_
      obtain ⟨j, here⟩ := List.getElem?_of_mem member
      refine others j u here fun inside => ?_
      rw [Idle, inside] at idle
      cases idle

theorem All.sequential (idle : t.All Idle) : t.Sequential := by
  cases idle with
  | leaf kind s here => exact .leaf kind s
  | multiple f point cs here children =>
      refine .multiple f point cs (fun j u there _ => children u (List.mem_of_getElem? there)) ?_
      intro j u _ inside
      rw [Idle, inside] at here
      cases here

/-- A node that an exception leaves is idle. -/
theorem Step.idle_of_escapes (step : t.Step cast path deed true t') : t'.Idle := by
  generalize yes : true = escapes at step
  cases step with
  | leaf kind own =>
      cases kind with
      | callable params => cases own <;> first | rfl | cases yes
      | mapCallable => cases own <;> cases yes
  | leafUnset kind f unset => rfl
  | runUnset f cs unset => rfl
  | _ => cases yes

section Children

variable {f : MultipleFields Handler} {point : MultiplePoint} {cs : List (Tree Handler Args Ret)}
  {i : Nat}

theorem Sequential.children (sequential : (Tree.multiple f point cs).Sequential)
    (outside : ∀ j, point ≠ .inside j) : ∀ u ∈ cs, u.All Idle := by
  intro u member
  obtain ⟨j, there⟩ := List.getElem?_of_mem member
  cases sequential with
  | multiple _ _ _ others _ => exact others j u there (outside j)

theorem Sequential.of_children (idle : ∀ u ∈ cs, u.All Idle) (outside : ∀ j, point ≠ .inside j) :
    (Tree.multiple f point cs).Sequential :=
  .multiple f point cs (fun _ u there _ => idle u (List.mem_of_getElem? there))
    fun j _ _ inside => absurd inside (outside j)

theorem Sequential.others (sequential : (Tree.multiple f (.inside i) cs).Sequential) {j : Nat}
    (other : j ≠ i) {u : Tree Handler Args Ret} (there : cs[j]? = some u) : u.All Idle := by
  cases sequential with
  | multiple _ _ _ others _ =>
      refine others j u there fun same => ?_
      cases same
      exact other rfl

theorem Sequential.current (sequential : (Tree.multiple f (.inside i) cs).Sequential)
    (there : cs[i]? = some t) : t.Sequential := by
  cases sequential with
  | multiple _ _ _ _ current => exact current i t there rfl

/-- The callable inside of which the node is has taken a step. -/
theorem Sequential.of_set (f : MultipleFields Handler)
    (others : ∀ (j : Nat) u, j ≠ i → cs[j]? = some u → u.All Idle) (sequential : t'.Sequential) :
    (Tree.multiple f (.inside i) (cs.set i t')).Sequential := by
  refine .multiple f _ _ (fun j u there outside => ?_) fun j u there inside => ?_
  · rcases getElem?_set_eq_some there with ⟨rfl, _⟩ | ⟨other, old⟩
    · exact absurd rfl outside
    · exact others j u other old
  · rcases getElem?_set_eq_some there with ⟨_, rfl⟩ | ⟨other, _⟩
    · exact sequential
    · cases inside
      exact absurd rfl other

/-- It has thrown, and everything is idle. -/
theorem idle_set (others : ∀ (j : Nat) u, j ≠ i → cs[j]? = some u → u.All Idle)
    (idle : t'.All Idle) : ∀ u ∈ cs.set i t', u.All Idle := by
  intro u member
  obtain ⟨j, there⟩ := List.getElem?_of_mem member
  rcases getElem?_set_eq_some there with ⟨_, rfl⟩ | ⟨other, old⟩
  · exact idle
  · exact others j u other old

end Children

/-- **A step of a sequential tree leaves it sequential.** -/
theorem Sequential.step (sequential : t.Sequential) (step : t.Step cast path deed escapes t') :
    t'.Sequential := by
  induction step with
  | leaf kind own => exact .leaf kind _
  | leafUnset | runUnset => exact sequential
  | run f cs | exhausted f i cs | goOn f i cs | stop f i cs | checkThrows f i cs
  | handleSuccess f i cs | handleThrows f i cs =>
      exact .of_children (sequential.children fun _ same => by cases same)
        fun _ same => by cases same
  | enter f i cs current step ih =>
      have idle := sequential.children fun _ same => by cases same
      exact .of_set f (fun j u _ there => idle u (List.mem_of_getElem? there))
        (ih (idle _ (List.mem_of_getElem? current)).sequential)
  | enterThrows f i cs current step ih =>
      have idle := sequential.children fun _ same => by cases same
      have after := ih (idle _ (List.mem_of_getElem? current)).sequential
      exact .of_children (idle_set (fun j u _ there => idle u (List.mem_of_getElem? there))
        (after.all_idle step.idle_of_escapes)) fun _ same => by cases same
  | inside f i cs current running step ih =>
      exact .of_set f (fun _ _ other there => sequential.others other there)
        (ih (sequential.current current))
  | insideThrows f i cs current running step ih =>
      have after := ih (sequential.current current)
      exact .of_children (idle_set (fun _ _ other there => sequential.others other there)
        (after.all_idle step.idle_of_escapes)) fun _ same => by cases same
  | returned f i cs current idle | returnedResult f i cs current idle =>
      refine .of_children (fun u member => ?_) fun _ same => by cases same
      obtain ⟨j, there⟩ := List.getElem?_of_mem member
      by_cases same : j = i
      · subst same
        obtain rfl := Option.some.inj (there.symm.trans current)
        exact (sequential.current there).all_idle idle
      · exact sequential.others same there

/-- A step of a leaf that is not a hit, from a point other than `handle_success`. -/
theorem missed_own {kind : Class Args} {s s' : State Handler Args Ret}
    {event : Event Handler Args Ret} (quiet : s.point ≠ .notify) (own : kind.OwnStep s event s')
    (miss : (Deed.leaf kind s.point event).isHit = false) :
    s'.fields.hasResultFlag = s.fields.hasResultFlag ∧ s'.point ≠ .notify ∧
      (s'.point = .judge → s'.fields.finished = true) ∧
        (Deed.leaf kind s.point event).isNotification = false := by
  cases kind with
  | callable params =>
      cases own with
      | run f set => exact ⟨rfl, nofun, nofun, rfl⟩
      | call f value => exact ⟨rfl, nofun, fun _ => rfl, rfl⟩
      | rejected f value stored => exact ⟨rfl, nofun, nofun, rfl⟩
      | accepted f value stored => cases miss
      | handleSuccess f handler set => exact absurd rfl quiet
      | throws f point running =>
          refine ⟨rfl, nofun, nofun, ?_⟩
          cases point with
          | notify => exact absurd rfl quiet
          | idle | test | fetch | poll args | invoke args | judge => rfl
  | mapCallable =>
      cases own with
      | run | more | exhausted | next | goOn | stop | rejected => exact ⟨rfl, nofun, nofun, rfl⟩
      | call f args value => exact ⟨rfl, nofun, fun _ => rfl, rfl⟩
      | accepted f value stored => cases miss
      | handleSuccess f handler set => exact absurd rfl quiet
      | throws f point running =>
          refine ⟨rfl, nofun, nofun, ?_⟩
          cases point with
          | notify => exact absurd rfl quiet
          | idle | test | fetch | poll args | invoke args | judge => rfl

/-- **A step that is not a hit leaves the tree without one**, and does not notify. -/
theorem Unhit.step (unhit : t.Unhit) (step : t.Step cast path deed escapes t')
    (miss : deed.isHit = false) : t'.Unhit ∧ deed.isNotification = false := by
  induction step with
  | leaf kind own =>
      obtain ⟨unset, quiet, _⟩ := unhit.here
      obtain ⟨same, after, stored, unnotified⟩ := missed_own quiet own miss
      exact ⟨.leaf kind _ ⟨same.trans unset, after, stored⟩, unnotified⟩
  | leafUnset | runUnset => exact ⟨unhit, rfl⟩
  | run f cs | exhausted f i cs | stop f i cs | checkThrows f i cs | returned f i cs
  | goOn f i cs =>
      exact ⟨.multiple f _ cs ⟨unhit.here.1, fun _ same => by cases same⟩ unhit.children, rfl⟩
  | returnedResult f i cs current _ has =>
      rw [Unhit.hasResult (unhit.of_getElem? current)] at has
      cases has
  | handleSuccess f i cs | handleThrows f i cs => exact absurd rfl (unhit.here.2 i)
  | enter f i cs current _ ih | enterThrows f i cs current _ ih | inside f i cs current _ _ ih
  | insideThrows f i cs current _ _ ih =>
      obtain ⟨after, quiet⟩ := ih (unhit.of_getElem? current) miss
      exact ⟨.multiple f _ _ ⟨unhit.here.1, fun _ same => by cases same⟩
        (forall_mem_set unhit.children after), quiet⟩

/-- **A step of the root that is not a hit.** -/
theorem UnhitBelow.step (unhit : t.UnhitBelow) (step : t.Step cast path deed escapes t')
    (miss : deed.isHit = false) : t'.UnhitBelow ∧ deed.isNotification = false := by
  cases step with
  | leaf kind own =>
      obtain ⟨_, after, _, unnotified⟩ := missed_own unhit own miss
      exact ⟨after, unnotified⟩
  | leafUnset | runUnset => exact ⟨unhit, rfl⟩
  | run | exhausted | stop | checkThrows | returned | goOn =>
      exact ⟨⟨nofun, unhit.2⟩, rfl⟩
  | returnedResult f i cs current _ has =>
      rw [Unhit.hasResult (unhit.2 _ (List.mem_of_getElem? current))] at has
      cases has
  | handleSuccess f i cs | handleThrows f i cs => exact absurd rfl (unhit.1 i)
  | enter f i cs current step | enterThrows f i cs current step
  | inside f i cs current running step | insideThrows f i cs current running step =>
      obtain ⟨after, quiet⟩ := (unhit.2 _ (List.mem_of_getElem? current)).step step miss
      exact ⟨⟨nofun, forall_mem_set unhit.2 after⟩, quiet⟩

/-- A leaf keeps `should_call_sighandler` while it runs. -/
theorem shouldCall_own {kind : Class Args} {s s' : State Handler Args Ret}
    {event : Event Handler Args Ret} (own : kind.OwnStep s event s') :
    s'.fields.should_call_sighandler = s.fields.should_call_sighandler := by
  cases kind with
  | callable params =>
      cases own with
      | run | call | rejected | accepted | handleSuccess | throws => rfl
  | mapCallable =>
      cases own with
      | run | more | exhausted | next | goOn | stop | call | rejected | accepted | handleSuccess
      | throws => rfl

/-- **A step keeps the flags** `should_call_sighandler`. -/
theorem Added.step (added : t.Added) (step : t.Step cast path deed escapes t') : t'.Added := by
  cases step with
  | leaf kind own => exact (shouldCall_own own).trans added
  | leafUnset | runUnset | run | exhausted | goOn | stop | checkThrows | returned | returnedResult
  | handleSuccess | handleThrows => exact added
  | enter f i cs current step | enterThrows f i cs current step
  | inside f i cs current running step | insideThrows f i cs current running step =>
      refine forall_mem_set added (Step.all ?_ ?_ ?_ step (added _ (List.mem_of_getElem? current)))
      · exact fun kind s event s' own silent => (shouldCall_own own).trans silent
      · exact fun _ _ _ _ _ silent => silent
      · exact fun _ _ _ _ silent => silent

/-- The states before the first hit. -/
structure BeforeHit (t : Tree Handler Args Ret) : Prop where
  unhit : t.UnhitBelow
  sequential : t.Sequential
  added : t.Added

/-- **A step that is not a hit.** -/
theorem BeforeHit.step (before : t.BeforeHit) (step : t.Step cast path deed escapes t')
    (miss : deed.isHit = false) : t'.BeforeHit :=
  ⟨(before.unhit.step step miss).1, before.sequential.step step, before.added.step step⟩

/-- A tree that does not run and has no result. -/
theorem Unhit.of_idle (idle : t.All Idle) (unset : t.All fun u => u.hasResultFlag = false) :
    t.Unhit := by
  induction idle with
  | leaf kind s here =>
      rw [Idle] at here
      exact .leaf kind s ⟨unset.here, by rw [here]; nofun, by rw [here]; nofun⟩
  | multiple f point cs here _ ih =>
      rw [Idle] at here
      exact .multiple f point cs ⟨unset.here, by rw [here]; nofun⟩
        fun u member => ih u member (unset.children u member)

theorem Ready.beforeHit (ready : t.Ready) : t.BeforeHit := by
  obtain ⟨idle, unset, added⟩ := ready
  refine ⟨?_, idle.sequential, added⟩
  cases idle with
  | leaf kind s here =>
      rw [Idle] at here
      rw [UnhitBelow, here]
      exact fun notify => by cases notify
  | multiple f point cs here below =>
      rw [Idle] at here
      refine ⟨fun i notify => ?_, fun u member => .of_idle (below u member) (unset u member)⟩
      cases here.symm.trans notify

/-! ## After the hit -/

/-- The points of a leaf that has no call to make, judge or notify before the next
check. -/
def quiet : Point Args → Bool
  | .invoke _ => false
  | .judge => false
  | .notify => false
  | _ => true

/-- A node without a result that makes no call before the next check for one. -/
def StillNode : Tree Handler Args Ret → Prop
  | .leaf _ s => s.fields.hasResultFlag = false ∧ quiet s.point = true
  | .multiple f point cs => f.hasResultFlag = false ∧ (∀ i, point ≠ .notify i) ∧
      ∀ i u, point = .enter i → cs[i]? = some u → u.isCallable = false

/-- Nothing happens in the tree. -/
def Still (t : Tree Handler Args Ret) : Prop := t.All StillNode

theorem Still.hasResult (still : t.Still) : t.hasResult = false := by
  have here := still.here
  cases t with
  | leaf kind s =>
      rw [Tree.hasResult, Fields.hasResult, here.1, Bool.and_false]
  | multiple f point cs => rw [Tree.hasResult, MultipleFields.hasResult, here.1, Bool.false_and]

/-- A tree without a result that does not run. -/
theorem Still.of_unhit (unhit : t.Unhit) (idle : t.All Idle) : t.Still := by
  induction idle with
  | leaf kind s here =>
      rw [Idle] at here
      exact .leaf kind s ⟨unhit.here.1, by rw [here]; rfl⟩
  | multiple f point cs here _ ih =>
      rw [Idle] at here
      exact .multiple f point cs ⟨unhit.here.1, unhit.here.2, by rw [here]; nofun⟩
        fun u member => ih u member (unhit.children u member)

end Tree

/-- The deed is no call, no hit and no notification. -/
structure Deed.Plain (deed : Deed Handler Args Ret) : Prop where
  noCall : deed.isCall = false
  noHit : deed.isHit = false
  noNotification : deed.isNotification = false

namespace Tree

variable {t t' : Tree Handler Args Ret} {cast : Ret → String} {path : List Nat}
  {deed : Deed Handler Args Ret} {escapes : Bool}

/-- A leaf at a quiet point stays at quiet points, unless a check for a call is
true. A `Callable` at such a point is running only if it is about to throw. -/
theorem quiet_own {kind : Class Args} {s s' : State Handler Args Ret}
    {event : Event Handler Args Ret} (still : quiet s.point = true)
    (running : (Tree.leaf kind s).isCallable = true → s.point ≠ .idle)
    (own : kind.OwnStep s event s') (stop : (Deed.leaf kind s.point event).isGoOn = false) :
    quiet s'.point = true ∧ s'.fields = s.fields ∧ (Deed.leaf kind s.point event).Plain := by
  cases kind with
  | callable params =>
      cases own with
      | run f set => exact absurd rfl (running rfl)
      | call | rejected | accepted | handleSuccess => cases still
      | throws f point _ =>
          cases point with
          | invoke args | judge | notify => cases still
          | idle | test | fetch | poll args => exact ⟨rfl, rfl, rfl, rfl, rfl⟩
  | mapCallable =>
      cases own with
      | run | more | exhausted | next | stop => exact ⟨rfl, rfl, rfl, rfl, rfl⟩
      | goOn => cases stop
      | call | rejected | accepted | handleSuccess => cases still
      | throws f point _ =>
          cases point with
          | invoke args | judge | notify => cases still
          | idle | test | fetch | poll args => exact ⟨rfl, rfl, rfl, rfl, rfl⟩

/-- **A still tree stays still**, unless a check for a call is true. -/
theorem Still.step (still : t.Still) (entered : t.isCallable = true → ¬ t.Idle)
    (step : t.Step cast path deed escapes t') (stop : deed.isGoOn = false) :
    t'.Still ∧ deed.Plain := by
  induction step with
  | leaf kind own =>
      obtain ⟨after, same, plain⟩ := quiet_own still.here.2 entered own stop
      refine ⟨.leaf kind _ ⟨?_, after⟩, plain⟩
      rw [same]
      exact still.here.1
  | leafUnset | runUnset => exact ⟨still, rfl, rfl, rfl⟩
  | run f cs | exhausted f i cs | stop f i cs | checkThrows f i cs | returned f i cs =>
      exact ⟨.multiple f _ cs ⟨still.here.1, nofun, nofun⟩ still.children, rfl, rfl, rfl⟩
  | goOn f i cs next set =>
      refine ⟨.multiple f _ cs ⟨still.here.1, nofun, fun j u same there => ?_⟩ still.children,
        rfl, rfl, rfl⟩
      cases same
      obtain rfl := Option.some.inj (next.symm.trans there)
      exact Bool.eq_false_iff.mpr fun callable => by
        rw [callable] at stop
        cases stop
  | returnedResult f i cs current _ has =>
      rw [Still.hasResult (still.of_getElem? current)] at has
      cases has
  | handleSuccess f i cs | handleThrows f i cs => exact absurd rfl (still.here.2.1 i)
  | enter f i cs current _ ih | enterThrows f i cs current _ ih =>
      have no := still.here.2.2 i _ rfl current
      obtain ⟨after, plain⟩ := ih (still.of_getElem? current)
        (fun callable => by rw [no] at callable; cases callable) stop
      exact ⟨.multiple f _ _ ⟨still.here.1, nofun, nofun⟩ (forall_mem_set still.children after),
        plain⟩
  | inside f i cs current running _ ih | insideThrows f i cs current running _ ih =>
      obtain ⟨after, plain⟩ := ih (still.of_getElem? current) (fun _ => running) stop
      exact ⟨.multiple f _ _ ⟨still.here.1, nofun, nofun⟩ (forall_mem_set still.children after),
        plain⟩

/-- A leaf below a `MultipleCallable` whose call was accepted. -/
def HitLeaf : Tree Handler Args Ret → Prop
  | .leaf kind s => s.fields.hasResultFlag = true ∧ s.fields.finished = true ∧
      quiet s.point = true ∧ ((Tree.leaf kind s).isCallable = true → s.point = .idle)
  | .multiple _ _ _ => False

theorem HitLeaf.hasResult (hit : t.HitLeaf) : t.hasResult = true := by
  cases t with
  | leaf kind s => rw [Tree.hasResult, Fields.hasResult, hit.1, hit.2.1, Bool.and_self]
  | multiple f point cs => exact hit.elim

theorem HitLeaf.flag (hit : t.HitLeaf) : t.hasResultFlag = true := by
  cases t with
  | leaf kind s => exact hit.1
  | multiple f point cs => exact hit.elim

/-- **A running leaf with a result**, which is a `MapCallable`, makes no call, unless
a check for one is true. -/
theorem HitLeaf.step (hit : t.HitLeaf) (running : ¬ t.Idle)
    (step : t.Step cast path deed escapes t') (stop : deed.isGoOn = false) :
    t'.HitLeaf ∧ deed.Plain ∧ escapes = false := by
  cases step with
  | leaf kind own =>
      obtain ⟨has, finished, still, ended⟩ := hit
      cases kind with
      | callable params => exact absurd (ended rfl) running
      | mapCallable =>
          obtain ⟨after, same, plain⟩ :=
            quiet_own still (fun callable => by cases callable) own stop
          exact ⟨⟨by rw [same]; exact has, by rw [same]; exact finished, after, nofun⟩, plain, rfl⟩
  | leafUnset => exact absurd rfl running
  | _ => exact hit.elim

/-- The callables behind an index are still. -/
def StillBehind (i : Nat) (cs : List (Tree Handler Args Ret)) : Prop :=
  ∀ (k : Nat) u, i < k → cs[k]? = some u → u.Still

/-- The loop has come to the callables behind an index, none of which is about to call
its function. -/
inductive LoopsBehind (i : Nat) (cs : List (Tree Handler Args Ret)) : MultiplePoint → Prop where
  | idle : LoopsBehind i cs .idle
  | poll (j : Nat) (later : i < j) : LoopsBehind i cs (.poll j)
  | enter (j : Nat) (later : i < j) (inner : ∀ u, cs[j]? = some u → u.isCallable = false) :
      LoopsBehind i cs (.enter j)
  | inside (j : Nat) (later : i < j) : LoopsBehind i cs (.inside j)

/-- The callable of an index had the hit. -/
def HitAt (i : Nat) (cs : List (Tree Handler Args Ret)) : Prop :=
  ∃ u, cs[i]? = some u ∧ u.hasResultFlag = true

/-- The states after the first hit, with the number of calls of `handle_success`
since. -/
inductive AfterHit : Nat → Tree Handler Args Ret → Prop where
  | leaf (kind : Class Args) (s : State Handler Args Ret) (point : s.point = .notify) :
      AfterHit 0 (.leaf kind s)
  | leafNotified (kind : Class Args) (s : State Handler Args Ret) (point : s.point = .idle) :
      AfterHit 1 (.leaf kind s)
  /-- The callable that the loop is inside of had the hit. -/
  | below (f : MultipleFields Handler) (i : Nat) (cs : List (Tree Handler Args Ret))
      {u : Tree Handler Args Ret} (current : cs[i]? = some u) (hit : u.HitLeaf)
      (behind : StillBehind i cs) : AfterHit 0 (.multiple f (.inside i) cs)
  /-- Its result is copied. -/
  | copied (f : MultipleFields Handler) (i : Nat) (cs : List (Tree Handler Args Ret))
      (hit : HitAt i cs) (behind : StillBehind i cs) : AfterHit 0 (.multiple f (.notify i) cs)
  /-- The loop goes on behind it. -/
  | notified (f : MultipleFields Handler) (i : Nat) (point : MultiplePoint)
      (cs : List (Tree Handler Args Ret)) (hit : HitAt i cs) (behind : StillBehind i cs)
      (loops : LoopsBehind i cs point) : AfterHit 1 (.multiple f point cs)

theorem AfterHit.le_one {n : Nat} (after : t.AfterHit n) : n ≤ 1 := by
  cases after with
  | leaf | below | copied => exact Nat.zero_le 1
  | leafNotified | notified => exact Nat.le_refl 1

/-- When the root returns, `handle_success` has been called. -/
theorem AfterHit.eq_one {n : Nat} (after : t.AfterHit n) (idle : t.Idle) : n = 1 := by
  cases after with
  | leaf kind s point =>
      rw [Idle, point] at idle
      cases idle
  | below | copied => cases idle
  | leafNotified | notified => rfl

/-- There is a result below the root. -/
theorem HitAt.not_unsetBelow {f : MultipleFields Handler} {i : Nat} {point : MultiplePoint}
    {cs : List (Tree Handler Args Ret)} (hit : HitAt i cs) :
    ¬ (Tree.multiple f point cs).UnsetBelow := by
  intro unset
  obtain ⟨u, there, has⟩ := hit
  rw [(unset u (List.mem_of_getElem? there)).here] at has
  cases has

theorem HitAt.set {i j : Nat} {cs : List (Tree Handler Args Ret)} (hit : HitAt i cs)
    (other : j ≠ i) : HitAt i (cs.set j t') := by
  obtain ⟨u, there, has⟩ := hit
  exact ⟨u, (List.getElem?_set_ne other).trans there, has⟩

theorem StillBehind.set {i j : Nat} {cs : List (Tree Handler Args Ret)}
    (behind : StillBehind i cs) (new : i < j → t'.Still) : StillBehind i (cs.set j t') := by
  intro k u later there
  rcases getElem?_set_eq_some there with ⟨rfl, rfl⟩ | ⟨_, old⟩
  · exact new later
  · exact behind k u later old

section Loop

variable {f : MultipleFields Handler} {i : Nat} {cs : List (Tree Handler Args Ret)}

/-- One of the callables behind takes a step. -/
theorem StillBehind.step {j : Nat} (behind : StillBehind i cs) (later : i < j)
    (current : cs[j]? = some t) (entered : t.isCallable = true → ¬ t.Idle)
    (step : t.Step cast path deed escapes t') (stop : deed.isGoOn = false) :
    StillBehind i (cs.set j t') ∧ deed.Plain := by
  obtain ⟨still, plain⟩ := (behind j t later current).step entered step stop
  exact ⟨behind.set fun _ => still, plain⟩

/-- A step of the loop behind the hit. -/
theorem LoopsBehind.step {point : MultiplePoint} (loops : LoopsBehind i cs point)
    (hit : HitAt i cs) (behind : StillBehind i cs) (running : point ≠ .idle)
    (step : (Tree.multiple f point cs).Step cast path deed escapes t')
    (stop : deed.isGoOn = false) : t'.AfterHit 1 ∧ deed.Plain := by
  cases loops with
  | idle => exact absurd rfl running
  | poll j later =>
      cases step with
      | exhausted | stop | checkThrows => exact ⟨.notified f i _ cs hit behind .idle, rfl, rfl, rfl⟩
      | goOn _ _ _ next =>
          refine ⟨.notified f i _ cs hit behind (.enter j later fun u there => ?_), rfl, rfl, rfl⟩
          obtain rfl := Option.some.inj (next.symm.trans there)
          exact Bool.eq_false_iff.mpr fun callable => by
            rw [callable] at stop
            cases stop
  | enter j later inner =>
      have hit' : ∀ {u : Tree Handler Args Ret}, HitAt i (cs.set j u) :=
        hit.set (Nat.ne_of_gt later)
      cases step with
      | enter _ _ _ current step =>
          obtain ⟨after, plain⟩ := behind.step later current
            (fun callable => by rw [inner _ current] at callable; cases callable) step stop
          exact ⟨.notified f i _ _ hit' after (.inside j later), plain⟩
      | enterThrows _ _ _ current step =>
          obtain ⟨after, plain⟩ := behind.step later current
            (fun callable => by rw [inner _ current] at callable; cases callable) step stop
          exact ⟨.notified f i _ _ hit' after .idle, plain⟩
  | inside j later =>
      have hit' : ∀ {u : Tree Handler Args Ret}, HitAt i (cs.set j u) :=
        hit.set (Nat.ne_of_gt later)
      cases step with
      | inside _ _ _ current running step =>
          obtain ⟨after, plain⟩ := behind.step later current (fun _ => running) step stop
          exact ⟨.notified f i _ _ hit' after (.inside j later), plain⟩
      | insideThrows _ _ _ current running step =>
          obtain ⟨after, plain⟩ := behind.step later current (fun _ => running) step stop
          exact ⟨.notified f i _ _ hit' after .idle, plain⟩
      | returned =>
          exact ⟨.notified f i _ cs hit behind (.poll (j + 1) (Nat.lt_succ_of_lt later)),
            rfl, rfl, rfl⟩
      | returnedResult _ _ _ current _ has' =>
          rw [(behind j _ later current).hasResult] at has'
          cases has'

end Loop

/-- **A step after the first hit** makes no call and has no other hit, and the calls
of `handle_success` are counted. -/
theorem AfterHit.step {n : Nat} (after : t.AfterHit n) (running : ¬ t.Idle)
    (step : t.Step cast path deed escapes t') (stop : ¬ t.UnsetBelow → deed.isGoOn = false) :
    t'.AfterHit (n + if deed.isNotification then 1 else 0) ∧ deed.isCall = false ∧
      deed.isHit = false := by
  cases after with
  | leaf kind s point =>
      obtain ⟨f, _⟩ := s
      cases point
      cases step with
      | leaf kind own =>
          cases kind with
          | callable params =>
              cases own with
              | handleSuccess | throws => exact ⟨.leafNotified _ _ rfl, rfl, rfl⟩
          | mapCallable =>
              cases own with
              | handleSuccess | throws => exact ⟨.leafNotified _ _ rfl, rfl, rfl⟩
  | leafNotified kind s point => exact absurd point running
  | below f i cs current hit behind =>
      have stopped := stop (HitAt.not_unsetBelow ⟨_, current, hit.flag⟩)
      cases step with
      | inside _ _ _ current' running' step =>
          obtain rfl := Option.some.inj (current.symm.trans current')
          obtain ⟨hit', plain, _⟩ := hit.step running' step stopped
          rw [plain.noNotification]
          refine ⟨.below f i _ ?_ hit' (behind.set fun later => absurd later (Nat.lt_irrefl i)),
            plain.noCall, plain.noHit⟩
          exact List.getElem?_set_self (List.getElem?_eq_some_iff.mp current).1
      | insideThrows _ _ _ current' running' step =>
          obtain rfl := Option.some.inj (current.symm.trans current')
          cases (hit.step running' step stopped).2.2
      | returned _ _ _ current' _ none =>
          obtain rfl := Option.some.inj (current.symm.trans current')
          rw [hit.hasResult] at none
          cases none
      | returnedResult => exact ⟨.copied _ i cs ⟨_, current, hit.flag⟩ behind, rfl, rfl⟩
  | copied f i cs hit behind =>
      cases step with
      | handleSuccess =>
          exact ⟨.notified f i _ cs hit behind (.poll (i + 1) (Nat.lt_succ_self i)), rfl, rfl⟩
      | handleThrows => exact ⟨.notified f i _ cs hit behind .idle, rfl, rfl⟩
  | notified f i point cs hit behind loops =>
      obtain ⟨next, plain⟩ := loops.step hit behind running step (stop hit.not_unsetBelow)
      rw [plain.noNotification]
      exact ⟨next, plain.noCall, plain.noHit⟩

/-! ## The hit -/

/-- A tree that is entered has no hit yet. -/
theorem Step.noHit_of_idle (idle : t.Idle) (step : t.Step cast path deed escapes t') :
    deed.isHit = false := by
  cases step with
  | leaf kind own =>
      rename_i s s' event
      obtain ⟨f, point⟩ := s
      cases (show point = .idle from idle)
      rfl
  | leafUnset | runUnset | run => rfl
  | exhausted | goOn | stop | checkThrows | enter | enterThrows | inside | insideThrows | returned
  | returnedResult | handleSuccess | handleThrows => cases idle

/-- Where `run` of a leaf goes on after an accepted call that is not notified. -/
def afterAccepted : Class Args → Point Args
  | .callable _ => .idle
  | .mapCallable => .test

/-- A call of a leaf is accepted. -/
theorem accepted_own {kind : Class Args} {s s' : State Handler Args Ret}
    {event : Event Handler Args Ret} (own : kind.OwnStep s event s')
    (hit : (Deed.leaf kind s.point event).isHit = true) :
    s.point = .judge ∧ s'.fields = s.fields.accept ∧
      s'.point = (if s.fields.should_call_sighandler then .notify else afterAccepted kind) ∧
      kind.escapes event = false := by
  cases kind with
  | callable params =>
      cases own with
      | accepted f value stored => exact ⟨rfl, rfl, rfl, rfl⟩
      | throws f point => cases point <;> cases hit
      | run | call | rejected | handleSuccess => cases hit
  | mapCallable =>
      cases own with
      | accepted f value stored => exact ⟨rfl, rfl, rfl, rfl⟩
      | throws f point => cases point <;> cases hit
      | run | more | exhausted | next | goOn | stop | call | rejected | handleSuccess => cases hit

/-- The call of a leaf below a `MultipleCallable` is accepted. -/
theorem HitLeaf.of_hit (unhit : t.Unhit) (silent : t.shouldCall = false)
    (step : t.Step cast [] deed escapes t') (hit : deed.isHit = true) :
    t'.HitLeaf ∧ escapes = false := by
  cases step with
  | @leaf kind s s' event own =>
      obtain ⟨judged, fields, point, inside⟩ := accepted_own own hit
      rw [if_neg (Bool.eq_false_iff.mp (show s.fields.should_call_sighandler = false from silent))]
        at point
      refine ⟨⟨?_, ?_, ?_, ?_⟩, inside⟩
      · rw [fields]
        rfl
      · rw [fields]
        exact unhit.here.2.2 judged
      · rw [point]
        cases kind <;> rfl
      · rw [point]
        intro callable
        cases kind with
        | callable params => rfl
        | mapCallable => cases callable
  | _ => cases hit

/-- **The first hit**, below at most one `MultipleCallable`. -/
theorem BeforeHit.hit (before : t.BeforeHit) (step : t.Step cast path deed escapes t')
    (hit : deed.isHit = true) (short : path.length ≤ 1) : t'.AfterHit 0 := by
  cases step with
  | leaf kind own =>
      obtain ⟨_, _, point, _⟩ := accepted_own own hit
      exact .leaf kind _ (point.trans (if_pos before.added))
  | leafUnset | runUnset | run | exhausted | goOn | stop | checkThrows | returned | returnedResult
  | handleSuccess | handleThrows => cases hit
  | enter f i cs current step | enterThrows f i cs current step =>
      have idle := before.sequential.children nofun _ (List.mem_of_getElem? current)
      rw [step.noHit_of_idle idle.here] at hit
      cases hit
  | inside f i cs current running step =>
      obtain rfl := List.eq_nil_of_length_eq_zero (Nat.le_zero.mp (Nat.le_of_succ_le_succ short))
      obtain ⟨now, _⟩ := HitLeaf.of_hit (before.unhit.2 _ (List.mem_of_getElem? current))
        (before.added _ (List.mem_of_getElem? current)).here step hit
      refine .below f i _ (List.getElem?_set_self (List.getElem?_eq_some_iff.mp current).1) now ?_
      refine StillBehind.set (fun k u later there => ?_) fun later => absurd later (Nat.lt_irrefl i)
      exact .of_unhit (before.unhit.2 _ (List.mem_of_getElem? there))
        (before.sequential.others (Nat.ne_of_gt later) there)
  | insideThrows f i cs current running step =>
      obtain rfl := List.eq_nil_of_length_eq_zero (Nat.le_zero.mp (Nat.le_of_succ_le_succ short))
      cases (HitLeaf.of_hit (before.unhit.2 _ (List.mem_of_getElem? current))
        (before.added _ (List.mem_of_getElem? current)).here step hit).2

theorem isNotification_of_isHit (hit : deed.isHit = true) : deed.isNotification = false := by
  cases deed with
  | leaf kind point event =>
      cases point with
      | judge => rfl
      | idle | test | fetch | poll args | invoke args | notify => cases hit
  | runUnset | run | checkNextSyncCall | handleSuccess | loop => cases hit

end Tree

/-! ## Runs -/

section Runs

variable {cast : Ret → String} {events : List (List Nat × Deed Handler Args Ret)}
  {act : List Nat × Deed Handler Args Ret} {t t' : Tree Handler Args Ret}

/-- No call follows a hit. -/
def Stops (events : List (List Nat × Deed Handler Args Ret)) : Prop :=
  ∀ before hit after, events = before ++ hit :: after → hit.2.isHit = true →
    ∀ act ∈ after, act.2.isCall = false

theorem Stops.snoc (stops : Stops events)
    (last : (∃ hit ∈ events, hit.2.isHit = true) → act.2.isCall = false) :
    Stops (events ++ [act]) := by
  intro before hit after whole accepted
  rcases List.eq_nil_or_concat after with rfl | ⟨later, final, rfl⟩
  · exact fun _ member => absurd member List.not_mem_nil
  · rw [List.concat_eq_append] at whole ⊢
    rw [← List.cons_append, ← List.append_assoc] at whole
    obtain ⟨rfl, same⟩ := List.append_inj' whole rfl
    cases same
    refine List.forall_mem_append.mpr ⟨stops before hit later rfl accepted, ?_⟩
    refine List.forall_mem_singleton.mpr (last ⟨hit, ?_, accepted⟩)
    exact List.mem_append_right _ List.mem_cons_self

/-- **The invariant of the run of a tree.** -/
structure FirstHit (events : List (List Nat × Deed Handler Args Ret))
    (t : Tree Handler Args Ret) : Prop where
  stops : Stops events
  phase : t.BeforeHit ∧ (∀ act ∈ events, act.2.isHit = false) ∧
      events.countP (·.2.isNotification) = 0 ∨
    t.AfterHit (events.countP (·.2.isNotification))

theorem FirstHit.step (inv : FirstHit events t) (step : t.RunStep cast act t')
    (one : OneLevel t act) : FirstHit (events ++ [act]) t' := by
  obtain ⟨stops, phase⟩ := inv
  obtain ⟨running, escapes, step⟩ := step
  rcases phase with ⟨before, none, zero⟩ | after
  · have unhit : ¬ ∃ hit ∈ events, hit.2.isHit = true := fun ⟨hit, member, yes⟩ => by
      rw [none hit member] at yes
      cases yes
    refine ⟨stops.snoc fun some => absurd some unhit, ?_⟩
    rw [List.countP_append, List.countP_singleton, zero, Nat.zero_add]
    cases accepted : act.2.isHit with
    | false =>
        obtain ⟨_, unnotified⟩ := before.unhit.step step accepted
        rw [unnotified]
        exact .inl ⟨before.step step accepted,
          List.forall_mem_append.mpr ⟨none, List.forall_mem_singleton.mpr accepted⟩, rfl⟩
    | true =>
        rw [Tree.isNotification_of_isHit accepted]
        exact .inr (before.hit step accepted (one.1 accepted))
  · obtain ⟨next, noCall, _⟩ := after.step running step one.2
    refine ⟨stops.snoc fun _ => noCall, .inr ?_⟩
    rw [List.countP_append, List.countP_singleton]
    exact next

/-- **A worker stops and notifies once**, in a run in which the hit is below at most
one `MultipleCallable` and no check for a call is true after it. -/
theorem stopsAndNotifies
    (run : Run (Meeting (Tree.RunStep cast) OneLevel) (Tree.Entered cast) events t) :
    StopsAndNotifies events t := by
  have inv : FirstHit events t := by
    refine run.invariant FirstHit ?_ fun _ _ _ _ inv next => inv.step next.1 next.2
    intro t ⟨t₀, deed, ready, entered⟩
    refine ⟨fun before hit after none => ?_, .inl ⟨ready.beforeHit.step entered
      (entered.noHit_of_idle ready.idle.here), fun _ member => absurd member List.not_mem_nil, rfl⟩⟩
    exact absurd none.symm (List.append_ne_nil_of_right_ne_nil _ (List.cons_ne_nil _ _))
  obtain ⟨stops, ⟨_, none, zero⟩ | after⟩ := inv
  · refine ⟨stops, by rw [zero]; exact Nat.zero_le 1, fun _ ⟨hit, member, yes⟩ => ?_⟩
    rw [none hit member] at yes
    cases yes
  · refine ⟨stops, after.le_one, fun idle _ => after.eq_one idle⟩

/-- A run that is continued by one step. -/
theorem Tree.goesOn {path : List Nat} {deed : Deed Handler Args Ret} {escapes : Bool}
    (run : Run (Tree.RunStep cast) (Tree.Entered cast) events t)
    (step : t.Step cast path deed escapes t') (running : ¬ t.Idle) :
    Run (Tree.RunStep cast) (Tree.Entered cast) (events ++ [(path, deed)]) t' :=
  run.snoc ⟨running, escapes, step⟩

theorem Tree.goesOn_meeting {path : List Nat} {deed : Deed Handler Args Ret} {escapes : Bool}
    (run : Run (Meeting (Tree.RunStep cast) OneLevel) (Tree.Entered cast) events t)
    (step : t.Step cast path deed escapes t') (running : ¬ t.Idle) (one : OneLevel t (path, deed)) :
    Run (Meeting (Tree.RunStep cast) OneLevel) (Tree.Entered cast) (events ++ [(path, deed)]) t' :=
  run.snoc ⟨⟨running, escapes, step⟩, one⟩

end Runs

section Example

/-- A `MultipleCallable` with a handler. -/
def handledFields : MultipleFields Unit := .withHandler ()

/-- A `Callable` that was added to it. -/
def addedCallable : Tree Unit Unit Unit :=
  .leaf (.callable ()) ⟨(Fields.make true).addTo (some ()), .idle⟩

theorem ready_handled {cs : List (Tree Unit Unit Unit)}
    (added : ∀ u ∈ cs, u.All fun v => v.Idle ∧ v.hasResultFlag = false ∧ v.shouldCall = false) :
    (Tree.multiple handledFields .idle cs).Ready := by
  refine ⟨.multiple _ _ _ rfl fun u member => ?_, fun u member => ?_, fun u member => ?_⟩
  · exact (added u member).imp fun _ has => has.1
  · exact (added u member).imp fun _ has => has.2.1
  · exact (added u member).imp fun _ has => has.2.2

theorem addedCallable_all :
    addedCallable.All fun v => v.Idle ∧ v.hasResultFlag = false ∧ v.shouldCall = false :=
  .leaf _ _ ⟨rfl, rfl, rfl⟩

/-- A `MultipleCallable` with three `Callable`. The first result is rejected and the second
one is accepted, and the check before the third is false. -/
theorem stopsAndNotifies_three :
    ∃ (events : List (List Nat × Deed Unit Unit Unit)) (t : Tree Unit Unit Unit),
      Run (Meeting (Tree.RunStep fun _ => "") OneLevel) (Tree.Entered fun _ => "") events t ∧
        t.Idle ∧ ([], .checkNextSyncCall true (some false)) ∈ events ∧
          events.countP (·.2.isCall) = 2 ∧ StopsAndNotifies events t := by
  let added := addedCallable
  have ready : (Tree.multiple handledFields .idle [added, added, added]).Ready :=
    ready_handled fun u member => by
      obtain rfl : u = added := List.eq_of_mem_replicate (n := 3) member
      exact addedCallable_all
  have start : Run (Meeting (Tree.RunStep fun _ => "") OneLevel) (Tree.Entered fun _ : Unit => "")
      [] (.multiple handledFields (.poll 0) [added, added, added]) :=
    .start ⟨_, _, ready, .run _ _ rfl⟩
  have unset : ∀ point (f : Fields Unit Unit) (p : Point Unit), f.hasResultFlag = false →
      (Tree.multiple handledFields point [.leaf (.callable ()) ⟨f, p⟩, added, added]).UnsetBelow :=
    fun point f p none u member => by
      rcases List.mem_cons.mp member with rfl | others
      · exact .leaf _ _ none
      · obtain rfl : u = added := List.eq_of_mem_replicate (n := 2) others
        exact .leaf _ _ rfl
  have entered := Tree.goesOn_meeting start (.goOn _ 0 _ rfl rfl) nofun
    ⟨nofun, fun has => absurd (unset _ _ _ rfl) has⟩
  have called := Tree.goesOn_meeting entered
    (.enter _ 0 _ rfl (.leaf (.callable ()) (Callable.Step.run _ rfl))) nofun ⟨nofun, fun _ => rfl⟩
  have judged := Tree.goesOn_meeting called
    (.inside _ 0 _ rfl nofun (.leaf (.callable ()) (Callable.Step.call _ ()))) nofun
    ⟨nofun, fun _ => rfl⟩
  have rejected := Tree.goesOn_meeting judged
    (.inside _ 0 _ rfl nofun (.leaf (.callable ()) (Callable.Step.rejected _ () rfl))) nofun
    ⟨nofun, fun _ => rfl⟩
  have returned := Tree.goesOn_meeting rejected (.returned _ 0 _ rfl rfl rfl) nofun
    ⟨nofun, fun _ => rfl⟩
  have entered' := Tree.goesOn_meeting returned (.goOn _ 1 _ rfl rfl) nofun
    ⟨nofun, fun has => absurd (unset _ _ _ rfl) has⟩
  have called' := Tree.goesOn_meeting entered'
    (.enter _ 1 _ rfl (.leaf (.callable ()) (Callable.Step.run _ rfl))) nofun ⟨nofun, fun _ => rfl⟩
  have judged' := Tree.goesOn_meeting called'
    (.inside _ 1 _ rfl nofun (.leaf (.callable ()) (Callable.Step.call _ ()))) nofun
    ⟨nofun, fun _ => rfl⟩
  have hit := Tree.goesOn_meeting judged'
    (.inside _ 1 _ rfl nofun (.leaf (.callable ()) (Callable.Step.accepted _ () rfl))) nofun
    ⟨fun _ => Nat.le_refl 1, fun _ => rfl⟩
  have copied := Tree.goesOn_meeting hit (.returnedResult _ 1 _ rfl rfl rfl rfl) nofun
    ⟨nofun, fun _ => rfl⟩
  have notified := Tree.goesOn_meeting copied (.handleSuccess _ 1 _ rfl) nofun
    ⟨nofun, fun _ => rfl⟩
  have stopped := Tree.goesOn_meeting notified (.stop _ 2 _ rfl rfl) nofun
    ⟨nofun, fun _ => rfl⟩
  exact ⟨_, _, stopped, rfl, List.mem_append_right _ (List.mem_singleton_self _), rfl,
    stopsAndNotifies stopped⟩

/-- A `MultipleCallable` that was added to another one. -/
def addedMultiple : Tree Unit Unit Unit :=
  .multiple { handledFields with should_call_sighandler := false } .idle [addedCallable]

/-- **Two levels notify twice, and a check that is always true goes on.** The hit of a
`Callable` below two `MultipleCallable` is notified by both. A `MultipleCallable`
with two `Callable` calls the second one after the hit of the first. -/
theorem notifiedTwice_and_goesOn :
    (∃ (events : List (List Nat × Deed Unit Unit Unit)) (t : Tree Unit Unit Unit),
      Run (Tree.RunStep fun _ => "") (Tree.Entered fun _ => "") events t ∧
        events.countP (·.2.isNotification) = 2 ∧ ¬ StopsAndNotifies events t) ∧
    ∃ (events : List (List Nat × Deed Unit Unit Unit)) (t : Tree Unit Unit Unit),
      Run (Tree.RunStep fun _ => "") (Tree.Entered fun _ => "") events t ∧
        (∀ callable answer path, (path, Deed.checkNextSyncCall callable answer) ∈ events →
          answer = some true) ∧ ¬ StopsAndNotifies events t := by
  constructor
  · have ready : (Tree.multiple handledFields .idle [addedMultiple]).Ready :=
      ready_handled (List.forall_mem_singleton.mpr (.multiple _ _ _ ⟨rfl, rfl, rfl⟩
        (List.forall_mem_singleton.mpr addedCallable_all)))
    have start : Run (Tree.RunStep fun _ => "") (Tree.Entered fun _ : Unit => "") []
        (.multiple handledFields (.poll 0) [addedMultiple]) :=
      .start ⟨_, _, ready, .run _ _ rfl⟩
    have entered := Tree.goesOn start (.goOn _ 0 _ rfl rfl) nofun
    have inner := Tree.goesOn entered (.enter _ 0 _ rfl (.run _ _ rfl)) nofun
    have innerEntered := Tree.goesOn inner (.inside _ 0 _ rfl nofun (.goOn _ 0 _ rfl rfl)) nofun
    have called := Tree.goesOn innerEntered (.inside _ 0 _ rfl nofun
      (.enter _ 0 _ rfl (.leaf (.callable ()) (Callable.Step.run _ rfl)))) nofun
    have judged := Tree.goesOn called (.inside _ 0 _ rfl nofun
      (.inside _ 0 _ rfl nofun (.leaf (.callable ()) (Callable.Step.call _ ())))) nofun
    have hit := Tree.goesOn judged (.inside _ 0 _ rfl nofun
      (.inside _ 0 _ rfl nofun (.leaf (.callable ()) (Callable.Step.accepted _ () rfl)))) nofun
    have innerCopied := Tree.goesOn hit (.inside _ 0 _ rfl nofun
      (.returnedResult _ 0 _ rfl rfl rfl rfl)) nofun
    have innerNotified := Tree.goesOn innerCopied (.inside _ 0 _ rfl nofun
      (.handleSuccess _ 0 _ rfl)) nofun
    have innerEnded := Tree.goesOn innerNotified (.inside _ 0 _ rfl nofun
      (.exhausted _ 1 _ (Nat.le_refl 1))) nofun
    have copied := Tree.goesOn innerEnded (.returnedResult _ 0 _ rfl rfl rfl rfl) nofun
    have notified := Tree.goesOn copied (.handleSuccess _ 0 _ rfl) nofun
    exact ⟨_, _, notified, rfl, fun stops => absurd stops.atMostOnce (by decide)⟩
  · have ready : (Tree.multiple handledFields .idle [addedCallable, addedCallable]).Ready :=
      ready_handled (List.forall_mem_cons.mpr
        ⟨addedCallable_all, List.forall_mem_singleton.mpr addedCallable_all⟩)
    have start : Run (Tree.RunStep fun _ => "") (Tree.Entered fun _ : Unit => "") []
        (.multiple handledFields (.poll 0) [addedCallable, addedCallable]) :=
      .start ⟨_, _, ready, .run _ _ rfl⟩
    have entered := Tree.goesOn start (.goOn _ 0 _ rfl rfl) nofun
    have called := Tree.goesOn entered
      (.enter _ 0 _ rfl (.leaf (.callable ()) (Callable.Step.run _ rfl))) nofun
    have judged := Tree.goesOn called
      (.inside _ 0 _ rfl nofun (.leaf (.callable ()) (Callable.Step.call _ ()))) nofun
    have hit := Tree.goesOn judged
      (.inside _ 0 _ rfl nofun (.leaf (.callable ()) (Callable.Step.accepted _ () rfl))) nofun
    have copied := Tree.goesOn hit (.returnedResult _ 0 _ rfl rfl rfl rfl) nofun
    have notified := Tree.goesOn copied (.handleSuccess _ 0 _ rfl) nofun
    have next := Tree.goesOn notified (.goOn _ 1 _ rfl rfl) nofun
    have again := Tree.goesOn next
      (.enter _ 1 _ rfl (.leaf (.callable ()) (Callable.Step.run _ rfl))) nofun
    have second := Tree.goesOn again
      (.inside _ 1 _ rfl nofun (.leaf (.callable ()) (Callable.Step.call _ ()))) nofun
    refine ⟨_, _, second, fun callable answer path member => ?_, fun stops => ?_⟩
    · simp only [List.nil_append, List.cons_append, List.mem_cons, Prod.mk.injEq,
        Deed.checkNextSyncCall.injEq, reduceCtorEq, and_false, false_or, or_false,
        List.not_mem_nil] at member
      rcases member with ⟨_, _, rfl⟩ | ⟨_, _, rfl⟩ <;> rfl
    · have stopped := stops.stops [_, _, _] _ [_, _, _, _, _] rfl rfl
      cases stopped _ (List.mem_of_getElem? (i := 4) rfl)

end Example

end ParallelLabs.Callables
