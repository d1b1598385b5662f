import ParallelLabs.Callables.Abstract
import ParallelLabs.Decryptor.Report
import ParallelLabs.Decryptor.Termination

/-!
# The units that run the search

Every runner hands the `MapCallable`s of `prepare_mapped_functions` to units of its own:
threads, processes, ranks. A unit is seen as a worker of the search, and what the
runner does to one unit is a step of the search or none (`Behind.stutter`,
`Behind.move`). The runners differ in what their units hold besides the callable, in
how they are seen, and in who can be told to stop.
-/

set_option autoImplicit false

namespace ParallelLabs.Decryptor

open Library Twofish Encryptor Callables Runners

/-- The events of a worker of the search. -/
abbrev SearchEvent := Event Unit ArgType DecryptionResult

/-- The `MapCallable` of a worker, with the handler that the runner's `add` has set.
Nothing that it calls throws. -/
def searchCallable (prepared : Prepared DecryptorSequence) (i : Nat) :
    AbstractCallable (Worker Unit) where
  initial w := w.state = ⟨(Fields.make true).setSigHandler (some ()), .idle⟩ ∧
    prepared.workers[i]? = some w.seq
  step w act w' :=
    match act with
    | .run => MapCallable.Step w.state .run w'.state ∧ w'.seq = w.seq
    | .work => ∃ event, (∀ answer, event ≠ .checkNextSyncCall answer) ∧
        MapCallable.Step w.state event w'.state ∧
          Answers prepared.expected false w.state.point w.seq event w'.seq false
    | .checkNextSyncCall answer =>
        MapCallable.Step w.state (.checkNextSyncCall answer) w'.state ∧ w'.seq = w.seq
    | .handleSuccess => MapCallable.Step w.state .handleSuccess w'.state ∧ w'.seq = w.seq
    | .returns => w.state.point = .idle ∧ w' = w

/-- `has_result` and `to_string`. -/
def report (w : Worker Unit) : Option (List Byte) :=
  w.state.fields.getResult.map DecryptionResult.toString

/-! ## The search behind the units -/

section Units

variable {α : Type} {n : Nat}

/-- **The units and the search behind them.** -/
structure Behind (view : α → Worker Unit) (Form : α → Prop) (Told : Fin n → α → Prop)
    (units : Fin n → α) (past' : List (Fin n × SearchEvent)) (s : System Unit n) : Prop where
  workers : s.workers = fun i => view (units i)
  forms : ∀ i, Form (units i)
  stopped : ∀ i, Search.Stopped past' i → Told i (units i)

namespace Behind

variable {view : α → Worker Unit} {Form : α → Prop} {Told Told' : Fin n → α → Prop}
  {units : Fin n → α} {past' : List (Fin n × SearchEvent)} {s : System Unit n} {i : Fin n}
  {unit : α}

theorem worker (behind : Behind view Form Told units past' s) (i : Fin n) :
    s.workers i = view (units i) :=
  congrFun behind.workers i

theorem workers_update (behind : Behind view Form Told units past' s) :
    (fun j => view (Function.update units i unit j)) =
      Function.update s.workers i (view unit) := by
  rw [behind.workers]
  exact Function.comp_update view units i unit

theorem forms_update (behind : Behind view Form Told units past' s) (form : Form unit) :
    ∀ j, Form (Function.update units i unit j) :=
  (Function.forall_update_iff units fun _ unit => Form unit).mpr
    ⟨form, fun j _ => behind.forms j⟩

theorem stopped_update (behind : Behind view Form Told units past' s)
    (kept : Told i (units i) → Told i unit) :
    ∀ j, Search.Stopped past' j → Told j (Function.update units i unit j) :=
  (Function.forall_update_iff units fun j unit => Search.Stopped past' j → Told j unit).mpr
    ⟨fun stop => kept (behind.stopped i stop), fun j _ => behind.stopped j⟩

/-- More units may have been told to stop. -/
theorem mono (behind : Behind view Form Told units past' s)
    (told : ∀ j unit, Told j unit → Told' j unit) : Behind view Form Told' units past' s :=
  ⟨behind.workers, behind.forms, fun j stop => told j _ (behind.stopped j stop)⟩

/-- A step that the search does not see. -/
theorem stutter (behind : Behind view Form Told units past' s) (form : Form unit)
    (same : view unit = view (units i)) (kept : Told i (units i) → Told i unit) :
    Behind view Form Told (Function.update units i unit) past' s := by
  refine ⟨?_, behind.forms_update form, behind.stopped_update kept⟩
  rw [behind.workers_update, same, behind.workers, Function.update_eq_self]

/-- A step that the search takes too. -/
theorem move (behind : Behind view Form Told units past' s) (form : Form unit)
    {w w' : Worker Unit} (before : view (units i) = w) (after : view unit = w')
    {expected : List Byte} {own : SearchEvent} {notified : Bool}
    (step : MapCallable.Step w.state own w'.state)
    (answers : Answers expected s.notified w.state.point w.seq own w'.seq notified)
    (kept : Told i (units i) → Told i unit)
    (stops : own = .checkNextSyncCall false ∨ own = .throws → Told i unit) :
    ∃ s', System.Step expected s (i, own) s' ∧ s'.notified = notified ∧
      Behind view Form Told (Function.update units i unit) (past' ++ [(i, own)]) s' := by
  have here : s.workers i = w := (behind.worker i).trans before
  have next : System.Step expected s (i, own) _ := .worker s i (here ▸ step) (here ▸ answers)
  refine ⟨_, next, rfl, ?_, behind.forms_update form, fun j stop => ?_⟩
  · rw [behind.workers_update, after]
  · rcases Search.stopped_snoc.mp stop with earlier | ⟨rfl, kind⟩
    · exact behind.stopped_update kept j earlier
    · rw [Function.update_self]
      exact stops kind

theorem totalWeight {search : Search} {Told : Fin search.numThreads.toNat → α → Prop}
    {units : Fin search.numThreads.toNat → α}
    {past' : List (Fin search.numThreads.toNat × SearchEvent)}
    {s : System Unit search.numThreads.toNat} (behind : Behind view Form Told units past' s) :
    Search.totalWeight s = ∑ i, search.weight (view (units i)) := by
  rw [Search.totalWeight, behind.workers]

end Behind

end Units

/-! ## The steps of a worker -/

variable {prepared : Prepared DecryptorSequence}

/-- The work of a callable does not depend on the notifications. -/
theorem answers_of_work {expected : List Byte} {point : Point ArgType}
    {seq seq' : DecryptorSequence}
    {event : SearchEvent} (quiet : ∀ answer, event ≠ .checkNextSyncCall answer)
    (answers : Answers expected false point seq event seq' false) (notified : Bool) :
    Answers expected notified point seq event seq' notified ∧
      event ≠ .handleSuccess ∧ event ≠ .throws := by
  cases answers with
  | hasNext computed =>
      exact ⟨.hasNext computed, fun same => (by cases same), fun same => by cases same⟩
  | next computed => exact ⟨.next computed, fun same => (by cases same), fun same => by cases same⟩
  | goOn => exact absurd rfl (quiet true)
  | stop allowed => exact absurd rfl (quiet false)
  | call computed => exact ⟨.call computed, fun same => (by cases same), fun same => by cases same⟩
  | resultChecker computed =>
      exact ⟨.resultChecker computed, fun same => (by cases same), fun same => by cases same⟩
  | checkThrows allowed polling => cases allowed

/-- A worker at work is neither at a method of the interrupter nor outside `run`. -/
theorem busy_of_work {expected : List Byte} {w : Worker Unit} {own : SearchEvent}
    {state : State Unit ArgType DecryptionResult} {seq : DecryptorSequence}
    (quiet : ∀ answer, own ≠ .checkNextSyncCall answer) (step : MapCallable.Step w.state own state)
    (answers : Answers expected false w.state.point w.seq own seq false) :
    (∀ args, w.state.point ≠ .poll args) ∧ w.state.point ≠ .idle ∧ w.state.point ≠ .notify := by
  obtain ⟨s, seq₀⟩ := w
  cases step with
  | run f set => cases answers
  | goOn f args handler set => exact absurd rfl (quiet true)
  | stop f args handler set => exact absurd rfl (quiet false)
  | handleSuccess f handler set => exact absurd rfl (answers_of_work quiet answers true).2.1
  | throws f point running => exact absurd rfl (answers_of_work quiet answers true).2.2
  | more | exhausted | next | call | rejected | accepted =>
      exact ⟨fun _ same => (by cases same), fun same => (by cases same), fun same => by cases same⟩

section Points

variable {state state' : State Unit ArgType DecryptionResult}

theorem poll_of_check {answer : Bool}
    (own : MapCallable.Step state (.checkNextSyncCall answer) state') :
    ∃ args, state.point = .poll args := by
  cases own with
  | goOn f args handler set => exact ⟨args, rfl⟩
  | stop f args handler set => exact ⟨args, rfl⟩

theorem notify_of_handleSuccess (own : MapCallable.Step state .handleSuccess state') :
    state.point = .notify ∧ state' = ⟨state.fields, .idle⟩ := by
  cases own with
  | handleSuccess f handler set => exact ⟨rfl, rfl⟩

theorem run_cases (own : MapCallable.Step state .run state') : state' = ⟨state.fields, .test⟩ := by
  cases own with
  | run f set => rfl

end Points

/-- A worker at a check can get either answer. -/
theorem check_of_poll {w : Worker Unit} {i : Nat} {args : ArgType}
    (poll : w.state.point = .poll args) {handler : Unit}
    (handled : w.state.fields.sighandler = some handler) (answer : Bool) :
    ∃ w', (searchCallable prepared i).step w (.checkNextSyncCall answer) w' := by
  obtain ⟨⟨f, point⟩, seq⟩ := w
  obtain rfl : point = .poll args := poll
  cases answer with
  | true => exact ⟨⟨⟨f, .invoke args⟩, seq⟩, .goOn f args handler handled, rfl⟩
  | false => exact ⟨⟨⟨f, .idle⟩, seq⟩, .stop f args handler handled, rfl⟩

/-- A worker that has found a key calls `handle_success`. -/
theorem notifies_of_notify {w : Worker Unit} {i : Nat} (notify : w.state.point = .notify)
    {handler : Unit} (handled : w.state.fields.sighandler = some handler) :
    (searchCallable prepared i).Notifies w := by
  obtain ⟨⟨f, point⟩, seq⟩ := w
  obtain rfl : point = .notify := notify
  exact ⟨⟨⟨f, .idle⟩, seq⟩, .handleSuccess f handler handled, rfl⟩

/-- **What a worker can do next**: leave `run`, work, take either answer of a check, or
call `handle_success`. -/
theorem exists_act (search : Search) {prepared : Prepared DecryptorSequence}
    (prepare : prepareMappedFunctions 0 search.rangeEnd search.numThreads search.message
      search.encrypted = .ok prepared)
    {notified : Bool} {i : Nat} (under : i < search.numThreads.toNat) {w : Worker Unit}
    (inv : search.WorkerInv notified i w) :
    w.state.point = .idle ∨ (∃ w', (searchCallable prepared i).step w .work w') ∨
      (∀ answer, ∃ w', (searchCallable prepared i).step w (.checkNextSyncCall answer) w') ∨
      (searchCallable prepared i).Notifies w := by
  by_cases idle : w.state.point = .idle
  · exact .inl idle
  right
  obtain ⟨handler, handled⟩ := inv.handled
  obtain ⟨own, state, seq, notified', moved, answers⟩ := inv.exists_step under idle
  rw [← Search.expected_of_prepareMapped search prepare] at answers
  have work : (∀ answer, own ≠ .checkNextSyncCall answer) →
      Answers prepared.expected false w.state.point w.seq own seq false →
        ∃ w', (searchCallable prepared i).step w .work w' :=
    fun quiet answers => ⟨⟨state, seq⟩, own, quiet, moved, answers⟩
  cases answers with
  | hasNext computed => exact .inl (work (fun _ same => by cases same) (.hasNext computed))
  | next computed => exact .inl (work (fun _ same => by cases same) (.next computed))
  | call computed => exact .inl (work (fun _ same => by cases same) (.call computed))
  | resultChecker computed =>
      exact .inl (work (fun _ same => by cases same) (.resultChecker computed))
  | goOn =>
      obtain ⟨args, poll⟩ := poll_of_check moved
      exact .inr (.inl fun answer => check_of_poll poll handled answer)
  | stop allowed =>
      obtain ⟨args, poll⟩ := poll_of_check moved
      exact .inr (.inl fun answer => check_of_poll poll handled answer)
  | checkThrows allowed polling =>
      exact .inr (.inl fun answer => check_of_poll polling handled answer)
  | handleSuccess =>
      exact .inr (.inr (notifies_of_notify (notify_of_handleSuccess moved).1 handled))
  | handleThrows notifying => exact .inr (.inr (notifies_of_notify notifying handled))

/-- The search of `main`: five workers on the keys up to `10000000`, and the string
`AAAAAAAA` encrypted with the key `123232`. -/
def mainSearch : Search :=
  ⟨10000000, 5, 123232, List.replicate 8 0x41, by decide, by decide, by decide, by decide,
    by decide⟩

end ParallelLabs.Decryptor
