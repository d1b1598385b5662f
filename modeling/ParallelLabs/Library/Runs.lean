import Mathlib.Data.List.Induction

/-!
# Runs of a labelled step relation

A run is a list of events and the state it ends in (`Run`). A property of the
events so far and the state that holds at the start and is carried along by
every step holds of every run (`Run.invariant`). A run whose steps all meet a
condition is a run of a smaller step relation (`Meeting`). A `Trace` is a run that
remembers the state before each of its events.
-/

set_option autoImplicit false

namespace ParallelLabs.Library

variable {State Event : Type*}

/-- The runs from a starting state. -/
inductive Run (step : State → Event → State → Prop) (start : State → Prop) :
    List Event → State → Prop where
  | start {s : State} (starts : start s) : Run step start [] s
  | snoc {events : List Event} {s s' : State} {event : Event} (run : Run step start events s)
      (next : step s event s') : Run step start (events ++ [event]) s'

namespace Run

variable {step : State → Event → State → Prop} {start : State → Prop}

/-- **The invariant rule for runs.** -/
theorem invariant (Inv : List Event → State → Prop) (initially : ∀ s, start s → Inv [] s)
    (preserved : ∀ past s event s', Inv past s → step s event s' → Inv (past ++ [event]) s')
    {events : List Event} {s : State} (run : Run step start events s) : Inv events s := by
  induction run with
  | start starts => exact initially _ starts
  | snoc _ next ih => exact preserved _ _ _ _ ih next

/-- The last step of a run. -/
theorem exists_step {events : List Event} {event : Event} {s' : State}
    (run : Run step start (events ++ [event]) s') :
    ∃ s, Run step start events s ∧ step s event s' := by
  generalize whole : events ++ [event] = all at run
  cases run with
  | start starts => exact absurd whole (List.append_ne_nil_of_right_ne_nil _ (List.cons_ne_nil _ _))
  | snoc before next =>
      obtain ⟨rfl, same⟩ := List.append_inj' whole rfl
      cases same
      exact ⟨_, before, next⟩

/-- The first part of a run. -/
theorem exists_of_append {past later : List Event} {s : State}
    (run : Run step start (past ++ later) s) : ∃ s', Run step start past s' := by
  induction later using List.reverseRecOn generalizing s with
  | nil => exact ⟨s, by rwa [List.append_nil] at run⟩
  | append_singleton later event ih =>
      rw [← List.append_assoc] at run
      obtain ⟨_, before, _⟩ := run.exists_step
      exact ih before

/-- The step of an event in the later part of a run. -/
theorem exists_step_of_mem {past later : List Event} {event : Event} {s : State}
    (run : Run step start (past ++ later) s) (member : event ∈ later) :
    ∃ between s₁ s₂, Run step start (past ++ between) s₁ ∧ step s₁ event s₂ := by
  obtain ⟨between, rest, rfl⟩ := List.append_of_mem member
  have split : past ++ (between ++ event :: rest) = past ++ between ++ [event] ++ rest := by
    simp only [List.append_assoc, List.singleton_append]
  rw [split] at run
  obtain ⟨s₂, upTo⟩ := run.exists_of_append
  obtain ⟨s₁, before, next⟩ := upTo.exists_step
  exact ⟨between, s₁, s₂, before, next⟩

end Run

/-- A state has one next event and one next state. -/
def Deterministic (step : State → Event → State → Prop) : Prop :=
  ∀ ⦃s event s' other t⦄, step s event s' → step s other t → event = other ∧ s' = t

namespace Deterministic

variable {step : State → Event → State → Prop} {start : State → Prop}
  {events others : List Event} {s t : State}

/-- Runs of one length from one state are the same. -/
theorem run_eq (deterministic : Deterministic step)
    (unique : ∀ s t, start s → start t → s = t) (run : Run step start events s)
    (other : Run step start others t) (length : events.length = others.length) :
    events = others ∧ s = t := by
  induction run generalizing others t with
  | start starts =>
      cases other with
      | start starts' => exact ⟨rfl, unique _ _ starts starts'⟩
      | snoc _ _ =>
          rw [List.length_append] at length
          cases length
  | snoc _ next ih =>
      cases other with
      | start _ =>
          rw [List.length_append] at length
          cases length
      | snoc before next' =>
          rw [List.length_append, List.length_append] at length
          obtain ⟨rfl, rfl⟩ := ih before (Nat.add_right_cancel length)
          obtain ⟨rfl, rfl⟩ := deterministic next next'
          exact ⟨rfl, rfl⟩

/-- A run that can go on no further is not shorter than another one. -/
theorem length_le (deterministic : Deterministic step)
    (unique : ∀ s t, start s → start t → s = t) (run : Run step start events s)
    (stuck : ∀ event s', ¬ step s event s') (other : Run step start others t) :
    others.length ≤ events.length := by
  by_contra longer
  have short : events.length < others.length := Nat.lt_of_not_le longer
  have split := List.take_append_drop (events.length + 1) others
  rw [← split] at other
  obtain ⟨s', upTo⟩ := other.exists_of_append
  rw [List.take_succ_eq_append_getElem short] at upTo
  obtain ⟨s'', before, next⟩ := upTo.exists_step
  obtain ⟨_, rfl⟩ := deterministic.run_eq unique run before
    (List.length_take_of_le (Nat.le_of_lt short)).symm
  exact stuck _ _ next

/-- **Runs to the end are the same.** -/
theorem eq_of_stuck (deterministic : Deterministic step)
    (unique : ∀ s t, start s → start t → s = t) (run : Run step start events s)
    (stuck : ∀ event s', ¬ step s event s') (other : Run step start others t)
    (stuck' : ∀ event t', ¬ step t event t') : events = others ∧ s = t :=
  deterministic.run_eq unique run other
    (Nat.le_antisymm (deterministic.length_le unique other stuck' run)
      (deterministic.length_le unique run stuck other))

end Deterministic

/-- The steps from one state to another. -/
inductive Path (step : State → Event → State → Prop) : State → List Event → State → Prop where
  | done (s : State) : Path step s [] s
  | cons {s s' s'' : State} {event : Event} {later : List Event} (next : step s event s')
      (rest : Path step s' later s'') : Path step s (event :: later) s''

theorem Path.append {step : State → Event → State → Prop} {events later : List Event}
    {s s' s'' : State} (path : Path step s events s') (rest : Path step s' later s'') :
    Path step s (events ++ later) s'' := by
  induction path with
  | done s => exact rest
  | cons next _ ih => exact .cons next (ih rest)

/-- A run that is continued. -/
theorem Run.append {step : State → Event → State → Prop} {start : State → Prop}
    {past later : List Event} {s s' : State} (run : Run step start past s)
    (path : Path step s later s') : Run step start (past ++ later) s' := by
  induction path generalizing past with
  | done s => rwa [List.append_nil]
  | cons next _ ih =>
      rw [List.append_cons]
      exact ih (run.snoc next)

/-- A step that meets a condition. -/
def Meeting (step : State → Event → State → Prop) (condition : State → Event → Prop) :
    State → Event → State → Prop :=
  fun s event s' => step s event s' ∧ condition s event

namespace Path

variable {step : State → Event → State → Prop} {events : List Event} {s s' : State}

/-- The invariant rule for the later steps of a run. -/
theorem invariant (Inv : State → Prop)
    (preserved : ∀ s event s', Inv s → step s event s' → Inv s') (path : Path step s events s')
    (initially : Inv s) : Inv s' := by
  induction path with
  | done s => exact initially
  | cons next _ ih => exact ih (preserved _ _ _ initially next)

/-- Steps that meet a condition are steps. -/
theorem of_meeting {condition : State → Event → Prop}
    (path : Path (Meeting step condition) s events s') : Path step s events s' := by
  induction path with
  | done s => exact .done s
  | cons next _ ih => exact .cons next.1 ih

end Path

/-- A run with the state before each of its events. -/
inductive Trace (step : State → Event → State → Prop) (start : State → Prop) :
    List (State × Event) → State → Prop where
  | start {s : State} (starts : start s) : Trace step start [] s
  | snoc {past : List (State × Event)} {s s' : State} {event : Event}
      (trace : Trace step start past s) (next : step s event s') :
      Trace step start (past ++ [(s, event)]) s'

namespace Trace

variable {step : State → Event → State → Prop} {start : State → Prop}
  {past : List (State × Event)} {s : State}

/-- **The invariant rule for traces.** -/
theorem invariant (Inv : List (State × Event) → State → Prop) (initially : ∀ s, start s → Inv [] s)
    (preserved : ∀ past s event s', Inv past s → step s event s' → Inv (past ++ [(s, event)]) s')
    (trace : Trace step start past s) : Inv past s := by
  induction trace with
  | start starts => exact initially _ starts
  | snoc _ next ih => exact preserved _ _ _ _ ih next

/-- Without the states. -/
theorem run (trace : Trace step start past s) : Run step start (past.map Prod.snd) s := by
  induction trace with
  | start starts => exact .start starts
  | snoc _ next ih =>
      rw [List.map_append]
      exact ih.snoc next

/-- A trace that is continued. -/
theorem append {events : List Event} {s' : State} (trace : Trace step start past s)
    (path : Path step s events s') :
    ∃ later, Trace step start later s' ∧ later.map Prod.snd = past.map Prod.snd ++ events := by
  induction path generalizing past with
  | done s => exact ⟨past, trace, (List.append_nil _).symm⟩
  | cons next _ ih =>
      obtain ⟨later, trace', same⟩ := ih (trace.snoc next)
      refine ⟨later, trace', ?_⟩
      rw [same, List.map_append, List.append_assoc]
      rfl

/-- The step of an entry. -/
theorem exists_step_of_mem {entry : State × Event} (trace : Trace step start past s)
    (member : entry ∈ past) : ∃ s', step entry.1 entry.2 s' := by
  induction trace with
  | start starts => exact absurd member List.not_mem_nil
  | snoc _ next ih =>
      rcases List.mem_append.mp member with earlier | last
      · exact ih earlier
      · obtain rfl := List.mem_singleton.mp last
        exact ⟨_, next⟩

end Trace

/-- A property of the states holds at every moment of a trace. -/
def Always (P : State → Prop) (past : List (State × Event)) (s : State) : Prop :=
  (∀ entry ∈ past, P entry.1) ∧ P s

/-- A condition holds of every step of a trace. -/
def EveryStep (condition : State → Event → Prop) (past : List (State × Event)) : Prop :=
  ∀ entry ∈ past, condition entry.1 entry.2

section Histories

variable {past : List (State × Event)} {s s' : State} {event : Event}

theorem always_snoc {P : State → Prop} :
    Always P (past ++ [(s, event)]) s' ↔ Always P past s ∧ P s' := by
  simp only [Always, List.forall_mem_append, List.forall_mem_singleton]

theorem everyStep_nil (condition : State → Event → Prop) : EveryStep condition [] :=
  fun _ member => absurd member List.not_mem_nil

theorem everyStep_snoc {condition : State → Event → Prop} :
    EveryStep condition (past ++ [(s, event)]) ↔ EveryStep condition past ∧ condition s event := by
  simp only [EveryStep, List.forall_mem_append, List.forall_mem_singleton]

end Histories

end ParallelLabs.Library
