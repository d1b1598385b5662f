import ParallelLabs.Callables.Machine

/-!
# The stored result

An object that reports a result should report one that its checker accepted. The
flag `_has_result` is set after the checker accepts and is never cleared, while
`_result` is assigned at every call of the function. So the two agree as long as
no call made with the flag set ends in anything but acceptance
(`hasResult_accepted`).

Both classes can leave that region (`rejected_result_reported`). A `Callable` run
a second time reports the second value whatever the checker says of it. A
`MapCallable` that must not notify goes on after a success, and reports the last
value that the function gave.
-/

set_option autoImplicit false

namespace ParallelLabs.Callables

open Library

variable {Handler Args Ret : Type}

/-- With a success on record, the checker accepts the value it is asked about. -/
def Keeps (s : State Handler Args Ret) (event : Event Handler Args Ret) : Prop :=
  s.point = .judge → s.fields.hasResultFlag = true → ∃ value, event = .resultChecker value true

/-- Outside of a check, a recorded success is one of the stored value. -/
def Recorded (past : List (Event Handler Args Ret)) (s : State Handler Args Ret) : Prop :=
  s.point ≠ .judge → s.fields.hasResultFlag = true →
    ∃ value, s.fields.result = some value ∧ .resultChecker value true ∈ past

/-- A step that leaves the record and the value alone keeps the invariant. -/
theorem Recorded.frame {past : List (Event Handler Args Ret)} {s s' : State Handler Args Ret}
    {event : Event Handler Args Ret} (recorded : Recorded past s) (before : s.point ≠ .judge)
    (result : s'.fields.result = s.fields.result)
    (flag : s'.fields.hasResultFlag = s.fields.hasResultFlag) :
    Recorded (past ++ [event]) s' := by
  intro _ has
  obtain ⟨value, stored, member⟩ := recorded before (flag ▸ has)
  exact ⟨value, result.trans stored, List.mem_append_left _ member⟩

/-- Without a success on record there is nothing to keep. -/
theorem Recorded.of_unset {past : List (Event Handler Args Ret)} {s : State Handler Args Ret}
    (unset : s.fields.hasResultFlag = false) : Recorded past s := by
  intro _ has
  rw [unset] at has
  cases has

/-- Acceptance records the stored value. -/
theorem Recorded.accept {past : List (Event Handler Args Ret)} {f : Fields Handler Ret}
    {value : Ret} (stored : f.result = some value) (point : Point Args) :
    Recorded (past ++ [.resultChecker value true]) ⟨f.accept, point⟩ :=
  fun _ _ => ⟨value, stored, List.mem_append_right _ (List.mem_singleton_self _)⟩

/-- Leaving a check without acceptance is allowed only when no success is on record. -/
theorem unset_of_keeps {f : Fields Handler Ret} {event : Event Handler Args Ret}
    (keeps : Keeps ⟨f, .judge⟩ event) (other : ∀ value, event ≠ .resultChecker value true) :
    f.hasResultFlag = false := by
  cases flag : f.hasResultFlag with
  | false => rfl
  | true =>
      obtain ⟨value, same⟩ := keeps rfl flag
      exact absurd same (other value)

/-- Leaving `run` by an exception. -/
theorem Recorded.throws {past : List (Event Handler Args Ret)} {f : Fields Handler Ret}
    {point : Point Args} (recorded : Recorded past ⟨f, point⟩)
    (keeps : Keeps ⟨f, point⟩ (.throws : Event Handler Args Ret)) :
    Recorded (past ++ [.throws]) ⟨f, .idle⟩ := by
  by_cases judging : point = .judge
  · subst judging
    exact .of_unset (unset_of_keeps keeps fun _ same => by cases same)
  · exact recorded.frame judging rfl rfl

section Steps

variable {past : List (Event Handler Args Ret)} {s s' : State Handler Args Ret}
  {event : Event Handler Args Ret} (held : Recorded past s) (keeps : Keeps s event)

include held

theorem OwnerStep.recorded (step : OwnerStep s event s') : Recorded (past ++ [event]) s' := by
  cases step with
  | setSigHandler f handler => exact held.frame (fun same => by cases same) rfl rfl
  | addSingleCallable f handler => exact held.frame (fun same => by cases same) rfl rfl
  | runUnset f unset => exact held.frame (fun same => by cases same) rfl rfl

include keeps

theorem Callable.Step.recorded {params : Args} (step : Callable.Step params s event s') :
    Recorded (past ++ [event]) s' := by
  cases step with
  | run f set => exact held.frame (fun same => by cases same) rfl rfl
  | call f value => exact fun after => absurd rfl after
  | rejected f value stored =>
      exact .of_unset (unset_of_keeps keeps fun _ same => by cases same)
  | accepted f value stored => exact .accept stored _
  | handleSuccess f handler set => exact held.frame (fun same => by cases same) rfl rfl
  | throws f point running => exact held.throws keeps

theorem MapCallable.Step.recorded (step : MapCallable.Step s event s') :
    Recorded (past ++ [event]) s' := by
  cases step with
  | run f set => exact held.frame (fun same => by cases same) rfl rfl
  | more f => exact held.frame (fun same => by cases same) rfl rfl
  | exhausted f => exact held.frame (fun same => by cases same) rfl rfl
  | next f args => exact held.frame (fun same => by cases same) rfl rfl
  | goOn f args handler set => exact held.frame (fun same => by cases same) rfl rfl
  | stop f args handler set => exact held.frame (fun same => by cases same) rfl rfl
  | call f args value => exact fun after => absurd rfl after
  | rejected f value stored =>
      exact .of_unset (unset_of_keeps keeps fun _ same => by cases same)
  | accepted f value stored => exact .accept stored _
  | handleSuccess f handler set => exact held.frame (fun same => by cases same) rfl rfl
  | throws f point running => exact held.throws keeps

theorem Class.recorded_of_step {kind : Class Args} (step : kind.Step s event s') :
    Recorded (past ++ [event]) s' := by
  cases kind with
  | callable params =>
      rcases step with step | step
      · exact step.recorded held
      · exact step.recorded held keeps
  | mapCallable =>
      rcases step with step | step
      · exact step.recorded held
      · exact step.recorded held keeps

end Steps

/-- **A reported result was accepted**, in every run in which no call made with
a success on record ends in a rejection or an exception of the checker: whenever
the object is not running and has a result, that result is a value for which the
checker has answered true. -/
theorem hasResult_accepted (kind : Class Args) {events : List (Event Handler Args Ret)}
    {s : State Handler Args Ret} (run : Run (Meeting kind.Step Keeps) Fresh events s)
    (idle : s.point = .idle) (has : s.fields.hasResult = true) :
    ∃ value, s.fields.getResult = some value ∧ .resultChecker value true ∈ events := by
  have recorded : Recorded events s := by
    refine run.invariant Recorded ?_ ?_
    · rintro _ ⟨should, rfl⟩
      exact .of_unset rfl
    · rintro past s event s' held ⟨step, keeps⟩
      exact Class.recorded_of_step held keeps step
  have flags := has
  rw [Fields.hasResult, Bool.and_eq_true] at flags
  have running : s.point ≠ .judge := by
    rw [idle]
    exact fun same => by cases same
  obtain ⟨value, stored, member⟩ := recorded running flags.2
  refine ⟨value, ?_, member⟩
  rw [Fields.getResult, ← Fields.hasResult, if_pos has, stored]

/-- A `Callable` whose first value is accepted. -/
theorem hasResult_accepted_once :
    ∃ value,
      (⟨true, some true, true, true, true, some ()⟩ : Fields Unit Bool).getResult = some value ∧
        .resultChecker value true ∈
          ([.setSigHandler (some ()), .run, .call () true, .resultChecker true true,
            .handleSuccess] : List (Event Unit Unit Bool)) :=
  hasResult_accepted (.callable ())
    (.snoc (.snoc (.snoc (.snoc (.snoc (.start ⟨true, rfl⟩)
      ⟨.inl (.setSigHandler _ _), fun same => by cases same⟩)
      ⟨.inr (.run _ rfl), fun same => by cases same⟩)
      ⟨.inr (.call _ true), fun same => by cases same⟩)
      ⟨.inr (.accepted _ true rfl), fun _ has => by cases has⟩)
      ⟨.inr (.handleSuccess _ () rfl), fun same => by cases same⟩)
    (s := ⟨⟨true, some true, true, true, true, some ()⟩, .idle⟩) rfl rfl

/-- **A rejected result is reported.** A `Callable` run twice, whose second value
is rejected, and a `MapCallable` of a `MultipleCallable`, which goes on after a
success to a value that is rejected, both report the value that their checker
never accepted. -/
theorem rejected_result_reported :
    (∃ (events : List (Event Unit Unit Bool)) (s : State Unit Unit Bool),
      Run (Class.callable ()).Step Fresh events s ∧ s.point = .idle ∧
        s.fields.hasResult = true ∧ s.fields.getResult = some false ∧
        .resultChecker false true ∉ events) ∧
    ∃ (events : List (Event Unit Unit Bool)) (s : State Unit Unit Bool),
      Run Class.mapCallable.Step Fresh events s ∧ s.point = .idle ∧
        s.fields.hasResult = true ∧ s.fields.getResult = some false ∧
        .resultChecker false true ∉ events := by
  constructor
  · refine ⟨_, ⟨⟨true, some false, true, true, true, some ()⟩, .idle⟩,
      .snoc (.snoc (.snoc (.snoc (.snoc (.snoc (.snoc (.snoc (.start ⟨true, rfl⟩)
        (.inl (.setSigHandler _ (some ())))) (.inr (.run _ rfl))) (.inr (.call _ true)))
        (.inr (.accepted _ true rfl))) (.inr (.handleSuccess _ () rfl))) (.inr (.run _ rfl)))
        (.inr (.call _ false))) (.inr (.rejected _ false rfl)), rfl, rfl, rfl, by decide⟩
  · refine ⟨_, ⟨⟨false, some false, true, true, true, some ()⟩, .idle⟩,
      .snoc (.snoc (.snoc (.snoc (.snoc (.snoc (.snoc (.snoc (.snoc (.snoc (.snoc (.snoc (.snoc
        (.start ⟨true, rfl⟩)
        (.inl (.addSingleCallable _ (some ())))) (.inr (.run _ rfl)))
        (.inr (.more _))) (.inr (.next _ ()))) (.inr (.goOn _ () () rfl)))
        (.inr (.call _ () true))) (.inr (.accepted _ true rfl)))
        (.inr (.more _))) (.inr (.next _ ()))) (.inr (.goOn _ () () rfl)))
        (.inr (.call _ () false))) (.inr (.rejected _ false rfl))) (.inr (.exhausted _)),
      rfl, rfl, rfl, by decide⟩

end ParallelLabs.Callables
