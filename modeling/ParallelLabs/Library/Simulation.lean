import ParallelLabs.Library.Runs

/-!
# Simulation between step relations

A step relation simulates another one if every step of the latter is answered by
steps of the former, none among them, that keep the two states related. A run is
then answered by a run (`Simulation.exists_run`). The relation may speak of the
histories too. A component of a system is the special case in which a step of the
system is a step of the component or leaves it alone (`Run.component`).
-/

set_option autoImplicit false

namespace ParallelLabs.Library

variable {State Event State' Event' : Type*}

/-- Every step of a run is answered by a path of the other relation. -/
structure Simulation (step : State → Event → State → Prop) (start : State → Prop)
    (step' : State' → Event' → State' → Prop) (start' : State' → Prop)
    (Related : List Event → State → List Event' → State' → Prop) : Prop where
  initially : ∀ s, start s → ∃ s', start' s' ∧ Related [] s [] s'
  preserved : ∀ past s event t past' s', Run step start past s → Related past s past' s' →
    step s event t →
      ∃ later t', Path step' s' later t' ∧ Related (past ++ [event]) t (past' ++ later) t'

/-- A path of at most one step. -/
theorem Path.single {step : State → Event → State → Prop} {s t : State} {event : Event}
    (next : step s event t) : Path step s [event] t :=
  .cons next (.done t)

section Answers

variable {step : State → Event → State → Prop} {start : State → Prop}
  {step' : State' → Event' → State' → Prop} {start' : State' → Prop}
  {Related : List Event → State → List Event' → State' → Prop}
  {events : List Event} {s : State}

/-- **A run is answered by a run.** -/
theorem Simulation.exists_run (simulation : Simulation step start step' start' Related)
    (run : Run step start events s) :
    ∃ events' s', Run step' start' events' s' ∧ Related events s events' s' := by
  induction run with
  | start starts =>
      obtain ⟨s', starts', related⟩ := simulation.initially _ starts
      exact ⟨[], s', .start starts', related⟩
  | snoc run next ih =>
      obtain ⟨past', s', run', related⟩ := ih
      obtain ⟨later, t', path, related'⟩ :=
        simulation.preserved _ _ _ _ _ _ run related next
      exact ⟨past' ++ later, t', run'.append path, related'⟩

/-- **The run of a component.** A step of the whole is one step of the component, or
none. -/
theorem Run.component (part : State → State') (label : Event → Option Event')
    (starts : ∀ s, start s → start' (part s))
    (moves : ∀ s event t, step s event t → ∀ event', label event = some event' →
      step' (part s) event' (part t))
    (rests : ∀ s event t, step s event t → label event = none → part t = part s)
    (run : Run step start events s) : Run step' start' (events.filterMap label) (part s) := by
  induction run with
  | start starting => exact .start (starts _ starting)
  | @snoc past s t event run next ih =>
      rw [List.filterMap_append]
      cases moved : label event with
      | none =>
          rw [List.filterMap_cons_none moved, List.filterMap_nil, List.append_nil,
            rests s event t next moved]
          exact ih
      | some event' =>
          rw [List.filterMap_cons_some moved, List.filterMap_nil]
          exact ih.snoc (moves s event t next event' moved)

end Answers

end ParallelLabs.Library
