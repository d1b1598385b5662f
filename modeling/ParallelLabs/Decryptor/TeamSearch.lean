import ParallelLabs.Decryptor.SearchUnits
import ParallelLabs.Runners.ConcurrencyUnits

/-!
# The search of a runner

A runner is given the `MapCallable`s of `prepare_mapped_functions` and a shared
interrupter. Whatever the runner and the interrupter, as long as the interrupter is
sound, a run of the runner is a run of the search, seen through `searchUnit`
(`simulation`). A worker that has not entered `run` stands at the test of
its loop there, and one that has called `handle_success` has returned.

So what holds of the search holds of what the runner prints: every line names the
first accepted key of its worker, and at least one line is printed
(`printed_complete`).
-/

set_option autoImplicit false

namespace ParallelLabs.Decryptor

open Library Twofish Encryptor Callables Runners

/-- The runner of a search. -/
def searchLoad (kind : Kind) {n : Nat} (pid : Fin n → Nat)
    (prepared : Prepared DecryptorSequence) : Workload (Worker Unit) n :=
  ⟨kind, fun i => searchCallable prepared i, report, pid⟩

/-! ## The search behind a runner -/

/-- A worker as the search sees it. -/
def searchUnit (unit : ConcurrencyUnit (Worker Unit)) : Worker Unit :=
  match unit.phase with
  | .absent | .started => ⟨⟨unit.executable.state.fields, .test⟩, unit.executable.seq⟩
  | .inside | .leaving | .printing _ | .finished =>
      if unit.calling = true ∧ unit.executable.state.point = .notify then
        ⟨⟨unit.executable.state.fields, .idle⟩, unit.executable.seq⟩
      else unit.executable

/-- What a phase says about the callable. -/
def Form (unit : ConcurrencyUnit (Worker Unit)) : Prop :=
  match unit.phase with
  | .absent | .started =>
      unit.executable.state = ⟨(Fields.make true).setSigHandler (some ()), .idle⟩ ∧
        unit.calling = false
  | .inside => unit.calling = true →
      unit.executable.state.point = .notify ∨ ∃ args, unit.executable.state.point = .poll args
  | .leaving | .printing _ | .finished =>
      unit.executable.state.point = .idle ∧ unit.calling = false

variable {n : Nat} {interrupter : SystemInterrupter (Fin n)}
  {prepared : Prepared DecryptorSequence}

/-- A worker's check has returned false. -/
def ToldToStop (past : List (TeamEvent n)) (i : Fin n) : Prop :=
  .talk i (.checkReturns false) ∈ past

/-- Some worker has called `handle_success`. -/
def Signalled (past : List (TeamEvent n)) : Prop := ∃ i, .talk i .handleSuccess ∈ past

/-- The search takes a step when the runner does. -/
def seen : TeamEvent n → Bool
  | .work _ | .talk _ .handleSuccess | .talk _ (.checkReturns _) => true
  | .start _ | .run _ | .talk _ .handleSuccessReturns | .talk _ .checkNextSyncCall | .interrupter
  | .leave _ | .hasResult _ | .print _ _ | .finish _ | .returns => false

/-- **A runner and the search behind it.** -/
structure Related (past : List (TeamEvent n)) (units : Fin n → ConcurrencyUnit (Worker Unit))
    (past' : List (Fin n × SearchEvent)) (s : System Unit n) : Prop
    extends Behind searchUnit Form (fun i _ => ToldToStop past i) units past' s where
  notified : Signalled past → s.notified = true

section Seen

variable {unit : ConcurrencyUnit (Worker Unit)}

theorem searchUnit_busy (inside : unit.phase = .inside) (busy : unit.calling = false) :
    searchUnit unit = unit.executable := by
  rw [searchUnit, inside]
  simp [busy]

/-- The search sees the fields as they are. -/
theorem fields_searchUnit (unit : ConcurrencyUnit (Worker Unit)) :
    (searchUnit unit).state.fields = unit.executable.state.fields := by
  rw [searchUnit]
  split
  · rfl
  · rfl
  all_goals split <;> rfl

/-- A worker that asks is seen as it is. -/
theorem searchUnit_of_poll {args : ArgType} (inside : unit.phase = .inside)
    (poll : unit.executable.state.point = .poll args) : searchUnit unit = unit.executable := by
  rw [searchUnit, inside]
  simp [poll]

/-- A worker that has called `handle_success` is seen as returned. -/
theorem searchUnit_of_notify (inside : unit.phase = .inside) (calling : unit.calling = true)
    (notify : unit.executable.state.point = .notify) :
    searchUnit unit = ⟨⟨unit.executable.state.fields, .idle⟩, unit.executable.seq⟩ := by
  rw [searchUnit, inside]
  simp [calling, notify]

theorem searchUnit_over (form : Form unit) (phase : unit.phase ≠ .absent ∧ unit.phase ≠ .started ∧
    unit.phase ≠ .inside) : searchUnit unit = unit.executable ∧
      unit.executable.state.point = .idle := by
  obtain ⟨absent, started, inside⟩ := phase
  cases here : unit.phase with
  | absent => exact absurd here absent
  | started => exact absurd here started
  | inside => exact absurd here inside
  | leaving | printing | finished =>
      rw [Form, here] at form
      refine ⟨?_, form.1⟩
      rw [searchUnit, here]
      simp [form.2]

end Seen

namespace Related

variable {past : List (TeamEvent n)} {units : Fin n → ConcurrencyUnit (Worker Unit)}
  {past' : List (Fin n × SearchEvent)} {s : System Unit n}
  {event : TeamEvent n} {i : Fin n} {unit : ConcurrencyUnit (Worker Unit)}

/-- Only `handle_success` notifies. -/
theorem notified_of_quiet (related : Related past units past' s)
    (quiet : ∀ i, event ≠ .talk i .handleSuccess) :
    Signalled (past ++ [event]) → s.notified = true := by
  rintro ⟨j, member⟩
  rcases List.mem_append.mp member with earlier | last
  · exact related.notified ⟨j, earlier⟩
  · exact absurd (List.mem_singleton.mp last).symm (quiet j)

/-- A step of no worker. -/
theorem frame (related : Related past units past' s)
    (quiet : ∀ i, event ≠ .talk i .handleSuccess) : Related (past ++ [event]) units past' s :=
  ⟨related.mono fun _ _ => List.mem_append_left _, related.notified_of_quiet quiet⟩

/-- A step that the search does not see. -/
theorem stutter (related : Related past units past' s) (quiet : ∀ i, event ≠ .talk i .handleSuccess)
    (form : Form unit) (same : searchUnit unit = searchUnit (units i)) :
    Related (past ++ [event]) (Function.update units i unit) past' s :=
  ⟨(related.frame quiet).toBehind.stutter form same id, related.notified_of_quiet quiet⟩

/-- A step that the search takes too. -/
theorem move (related : Related past units past' s) (form : Form unit) {w w' : Worker Unit}
    (before : searchUnit (units i) = w) (after : searchUnit unit = w') {own : SearchEvent}
    {notified : Bool} (step : MapCallable.Step w.state own w'.state)
    (answers : Answers prepared.expected s.notified w.state.point w.seq own w'.seq notified)
    (told : (∃ j, event = .talk j .handleSuccess) → notified = true)
    (stops : own = .checkNextSyncCall false ∨ own = .throws →
      event = .talk i (.checkReturns false)) (visible : seen event = true) :
    ∃ later t', Path (System.Step prepared.expected) s later t' ∧
      later.length = (seen event).toNat ∧
      Related (past ++ [event]) (Function.update units i unit) (past' ++ later) t' := by
  have later : Behind searchUnit Form (fun i _ => ToldToStop (past ++ [event]) i) units past' s :=
    related.mono fun _ _ => List.mem_append_left _
  obtain ⟨t', next, rfl, behind⟩ := later.move form before after step answers id fun kind => by
    rw [stops kind]
    exact List.mem_append_right _ (List.mem_singleton_self _)
  refine ⟨_, t', .single next, by rw [visible]; rfl, behind, ?_⟩
  rintro ⟨j, member⟩
  rcases List.mem_append.mp member with earlier | last
  · exact answers.later (related.notified ⟨j, earlier⟩)
  · exact told ⟨j, (List.mem_singleton.mp last).symm⟩

end Related

/-! ## The steps of a runner -/

/-- The calls of the interrupter's part of a run are calls of the run. -/
theorem signalled_of_called {past : List (TeamEvent n)}
    (called : SystemInterrupter.Called (past.filterMap TeamEvent.label)) : Signalled past := by
  obtain ⟨i, member⟩ := called
  obtain ⟨event, inside, label⟩ := List.mem_filterMap.mp member
  cases event with
  | talk j call =>
      cases label
      exact ⟨i, inside⟩
  | start | run | work | interrupter | leave | hasResult | print | finish | returns => cases label

section Simulates

variable {kind : Kind} {pid : Fin n → Nat} {past : List (TeamEvent n)}
  {t t' : Team (Worker Unit) n interrupter} {event : TeamEvent n}
  {past' : List (Fin n × SearchEvent)} {s : System Unit n}

/-- **A step of a runner is a step of the search or none.** -/
theorem Related.step (related : Related past t.units past' s)
    (step : t.Step (searchLoad kind pid prepared) event t')
    (heard : ∀ i, event = .talk i (.checkReturns false) → Signalled past) :
    ∃ later s', Path (System.Step prepared.expected) s later s' ∧
      later.length = (seen event).toNat ∧
      Related (past ++ [event]) t'.units (past' ++ later) s' := by
  have still : ∀ {units'}, Related (past ++ [event]) units' past' s → seen event = false →
      ∃ later s', Path (System.Step prepared.expected) s later s' ∧
        later.length = (seen event).toNat ∧
        Related (past ++ [event]) units' (past' ++ later) s' := fun related silent =>
    ⟨[], s, .done s, by rw [silent]; rfl, by rwa [List.append_nil]⟩
  cases step with
  | start i running few next new =>
      have form := related.forms i
      rw [Form, new] at form
      exact still (related.stutter (fun _ same => by cases same) form
        (by rw [searchUnit, searchUnit, new])) rfl
  | @run i object here own =>
      have form := related.forms i
      rw [Form, here] at form
      refine still (related.stutter (fun _ same => by cases same)
        (fun calling => by cases calling) ?_) rfl
      rw [searchUnit_busy rfl rfl, searchUnit, here]
      obtain ⟨moved, same⟩ := own
      cases object
      simp only [Worker.mk.injEq]
      exact ⟨run_cases moved, same⟩
  | @work i object busy own =>
      obtain ⟨own, quiet, moved, answers⟩ := own
      obtain ⟨answers, -, noThrow⟩ := answers_of_work quiet answers s.notified
      have before := searchUnit_busy busy.1 busy.2
      have after : searchUnit { t.units i with executable := object } = object :=
        searchUnit_busy busy.1 busy.2
      refine related.move ?form before after moved answers (fun ⟨_, same⟩ => by cases same) ?stops
        rfl
      case form =>
        rw [Form, busy.1]
        exact fun calling => absurd (busy.2.symm.trans calling) Bool.false_ne_true
      case stops =>
        rintro (check | throws)
        · exact absurd check (quiet false)
        · exact absurd throws noThrow
  | checkNextSyncCall i busy own asked =>
      obtain ⟨answer, object, moved, -⟩ := own
      obtain ⟨args, poll⟩ := poll_of_check moved
      refine still (related.stutter (fun _ same => by cases same) ?_ ?_) rfl
      · rw [Form, busy.1]
        exact fun _ => .inr ⟨args, poll⟩
      · have after : searchUnit { t.units i with calling := true } = (t.units i).executable :=
          searchUnit_of_poll busy.1 poll
        exact after.trans (searchUnit_busy busy.1 busy.2).symm
  | @checkReturns i answer object state waits own answered =>
      obtain ⟨moved, same⟩ := own
      obtain ⟨args, poll⟩ := poll_of_check moved
      have before := searchUnit_of_poll waits.1 poll
      have after : searchUnit { t.units i with executable := object, calling := false } = object :=
        searchUnit_busy waits.1 rfl
      have answers : Answers prepared.expected s.notified (t.units i).executable.state.point
          (t.units i).executable.seq (.checkNextSyncCall answer : SearchEvent) object.seq
          s.notified := by
        rw [same]
        cases answer with
        | true => exact .goOn
        | false => exact .stop (related.notified (heard i rfl))
      refine related.move ?form before after moved answers (fun ⟨_, same⟩ => by cases same) ?stops
        rfl
      case form =>
        rw [Form, waits.1]
        exact fun calling => by cases calling
      case stops =>
        rintro (check | throws)
        · cases check
          rfl
        · cases throws
  | handleSuccess i busy own told =>
      obtain ⟨object, moved, same⟩ := own
      obtain ⟨notify, left⟩ := notify_of_handleSuccess moved
      have before := searchUnit_busy busy.1 busy.2
      have after : searchUnit { t.units i with calling := true } =
          ⟨⟨(t.units i).executable.state.fields, .idle⟩, (t.units i).executable.seq⟩ :=
        searchUnit_of_notify busy.1 rfl notify
      rw [left] at moved
      have answers : Answers prepared.expected s.notified (t.units i).executable.state.point
          (t.units i).executable.seq (.handleSuccess : SearchEvent) (t.units i).executable.seq
          true :=
        .handleSuccess
      refine related.move ?form before after moved answers (fun _ => rfl) ?stops rfl
      case form =>
        rw [Form, busy.1]
        exact fun _ => .inl notify
      case stops =>
        rintro (check | throws)
        · cases check
        · cases throws
  | @handleSuccessReturns i object state waits own done =>
      obtain ⟨moved, same⟩ := own
      obtain ⟨notify, left⟩ := notify_of_handleSuccess moved
      refine still (related.stutter (fun _ same => by cases same) ?_ ?_) rfl
      · rw [Form, waits.1]
        exact fun calling => by cases calling
      · have after :
            searchUnit { t.units i with executable := object, calling := false } = object :=
          searchUnit_busy waits.1 rfl
        rw [searchUnit_of_notify waits.1 waits.2 notify, ← left, ← same]
        exact after
  | interrupter own => exact still (related.frame fun _ same => by cases same) rfl
  | leave i busy own =>
      obtain ⟨idle, rfl⟩ := own
      have form : Form ⟨.leaving, (t.units i).executable, false⟩ := ⟨idle, rfl⟩
      refine still (related.stutter (fun _ same => by cases same) form ?_) rfl
      rw [searchUnit_busy busy.1 busy.2]
      exact (searchUnit_over form (by simp)).1
  | hasResult i here =>
      have form := related.forms i
      rw [Form, here] at form
      exact still (related.stutter (fun _ same => by cases same) form
        (by rw [searchUnit, searchUnit, here])) rfl
  | print i here =>
      have form := related.forms i
      rw [Form, here] at form
      exact still (related.stutter (fun _ same => by cases same) form
        (by rw [searchUnit, searchUnit, here])) rfl
  | finish i here =>
      have form := related.forms i
      rw [Form, here] at form
      exact still (related.stutter (fun _ same => by cases same) form
        (by rw [searchUnit, searchUnit, here])) rfl
  | returns running all => exact still (related.frame fun _ same => by cases same) rfl

/-- The runner enters `run` as the workers of the search do. -/
theorem related_of_started (started : t.Started (searchLoad kind pid prepared)) :
    Entered prepared (⟨fun i => searchUnit (t.units i), false⟩ : System Unit n) ∧
      Related [] t.units [] ⟨fun i => searchUnit (t.units i), false⟩ := by
  obtain ⟨_, _, _, _, units⟩ := started
  have fresh : ∀ i, (t.units i).executable.state =
      ⟨(Fields.make true).setSigHandler (some ()), .idle⟩ := fun i => (units i).1.1
  refine ⟨⟨rfl, fun i => ?_⟩, ⟨rfl, fun i => ?_, ?_⟩, ?_⟩
  · show (∃ handler, (searchUnit (t.units i)).state = _) ∧ _ = some (searchUnit (t.units i)).seq
    rw [searchUnit, (units i).2]
    exact ⟨⟨(), by rw [fresh i]⟩, (units i).1.2⟩
  · rw [Form, (units i).2]
    exact ⟨fresh i, rfl⟩
  · rintro i (member | member) <;> cases member
  · rintro ⟨_, member⟩
    cases member

/-- A worker of a run is told to stop only after a worker has called `handle_success`. -/
theorem heard_of_run (sound : interrupter.Sound)
    (run : Run (Team.Step (searchLoad kind pid prepared))
      (Team.Started (searchLoad kind pid prepared)) past t)
    (step : t.Step (searchLoad kind pid prepared) event t') (i : Fin n)
    (told : event = .talk i (.checkReturns false)) : Signalled past := by
  subst told
  exact signalled_of_called (sound _ _ i _ (Team.run_interrupter run)
    (step.interrupter_moves.1 _ rfl))

/-- **A run of a runner is a run of the search**, whatever the runner, if its
interrupter is sound. -/
theorem simulation (sound : interrupter.Sound) :
    Simulation (Team.Step (searchLoad kind pid prepared))
      (Team.Started (searchLoad kind pid prepared)) (System.Step prepared.expected)
      (Entered prepared)
      fun past (t : Team (Worker Unit) n interrupter) => Related past t.units where
  initially t started := ⟨_, related_of_started started⟩
  preserved past t event t' past' s run related step := by
    obtain ⟨later, s', path, -, related'⟩ := related.step step (heard_of_run sound run step)
    exact ⟨later, s', path, related'⟩

end Simulates

/-- A runner can be given the workers of a search, with any interrupter. -/
theorem exists_started (search : Search) (kind : Kind) (pid : Fin search.numThreads.toNat → Nat)
    {interrupter : SystemInterrupter (Fin search.numThreads.toNat)} {state : interrupter.State}
    (initial : interrupter.initial state) :
    ∃ (prepared : Prepared DecryptorSequence)
      (t : Team (Worker Unit) search.numThreads.toNat interrupter),
      prepareMappedFunctions 0 search.rangeEnd search.numThreads search.message
        search.encrypted = .ok prepared ∧ t.Started (searchLoad kind pid prepared) := by
  obtain ⟨prepared, s, prepare, _, workers⟩ := Search.exists_entered search ()
  exact ⟨prepared, ⟨0, false, fun i => ⟨.absent,
      ⟨⟨(Fields.make true).setSigHandler (some ()), .idle⟩, (s.workers i).seq⟩, false⟩, state, []⟩,
    prepare, rfl, rfl, initial, rfl, fun i => ⟨⟨rfl, (workers i).2⟩, rfl⟩⟩

/-! ## What is printed -/

section Printed

variable {search : Search} {kind : Kind} {pid : Fin search.numThreads.toNat → Nat}
  {interrupter : SystemInterrupter (Fin search.numThreads.toNat)}
  {prepared : Prepared DecryptorSequence}

/-- The line of a worker, piece by piece: that of the first accepted key of its stretch. -/
def Search.pieces (search : Search) (kind : Kind) (pid : Fin search.numThreads.toNat → Nat)
    (i : Fin search.numThreads.toNat) : List (List Byte) :=
  match search.firstHit i with
  | some result => kind.pieces (innerUid i) (pid i) result.toString
  | none => []

theorem pieces_of_getResult {i : Fin search.numThreads.toNat} {w : Worker Unit}
    (result : w.state.fields.getResult = search.firstHit i) :
    (searchLoad kind pid prepared).pieces i w = search.pieces kind pid i := by
  rw [Workload.pieces, Search.pieces]
  show (match report w with | some result => kind.pieces _ _ result | none => []) = _
  rw [report, result]
  cases search.firstHit i <;> rfl

theorem pieces_ne_nil {i : Fin search.numThreads.toNat} (hit : search.firstHit i ≠ none) :
    search.pieces kind pid i ≠ [] := by
  obtain ⟨result, found⟩ := Option.ne_none_iff_exists'.mp hit
  rw [Search.pieces, found]
  cases kind <;> exact List.cons_ne_nil _ _

theorem pieces_of_none {n : Nat} {pid : Fin n → Nat} {i : Fin n} {w : Worker Unit}
    (nothing : w.state.fields.getResult = none) :
    (searchLoad kind pid prepared).pieces i w = [] := by
  rw [Workload.pieces]
  show (match report w with | some result => kind.pieces _ _ result | none => []) = _
  rw [report, nothing]
  rfl

variable {events : List (TeamEvent search.numThreads.toNat)}
  {t : Team (Worker Unit) search.numThreads.toNat interrupter}

/-- **What a runner has printed when it returns.** A worker has printed the line of the
first accepted key of its stretch, or nothing and then it was told to stop; and some
worker has printed a line. -/
theorem printed_of_run (sound : interrupter.Sound)
    (launching : kind.Launches search.numThreads.toNat)
    (prepare : prepareMappedFunctions 0 search.rangeEnd search.numThreads search.message
      search.encrypted = .ok prepared)
    (run : Run (Team.Step (searchLoad kind pid prepared))
      (Team.Started (searchLoad kind pid prepared)) events t)
    (returned : t.returned = true) :
    (∀ i, t.printed i = search.pieces kind pid i ∨ ToldToStop events i ∧ t.printed i = []) ∧
      ∃ i : Fin search.numThreads.toNat, search.firstHit i ≠ none ∧
        t.printed i = search.pieces kind pid i := by
  obtain ⟨past, s, run', related⟩ := (simulation sound).exists_run run
  have inv := Search.systemInv_of_run search prepare run'
  have ended : ∀ i, s.workers i = (t.units i).executable ∧
      (t.units i).executable.state.point = .idle := by
    intro i
    have finished := Team.finished_of_returned launching run returned i
    have seen := searchUnit_over (related.forms i) (by rw [finished]; simp)
    exact ⟨(related.worker i).trans seen.1, seen.2⟩
  have line : ∀ i,
      t.printed i = (searchLoad kind pid prepared).pieces i (t.units i).executable := by
    intro i
    have held := TeamInv.of_run run i
    rw [UnitInv, Team.finished_of_returned launching run returned i] at held
    exact held.1
  have result : ∀ i, (t.units i).executable.state.fields.getResult = search.firstHit i ∨
      ToldToStop events i ∧ (t.units i).executable.state.fields.getResult = none := by
    intro i
    have idle : (s.workers i).state.point = .idle := by rw [(ended i).1]; exact (ended i).2
    have first := Search.firstInv_of_run search prepare run' i
    have reported := Search.getResult_of_inv (inv.workers i) first idle
    rw [(ended i).1] at reported
    exact reported.imp_right (And.imp_left (related.stopped i))
  constructor
  · intro i
    rw [line i]
    rcases result i with found | ⟨told, nothing⟩
    · exact .inl (pieces_of_getResult found)
    · exact .inr ⟨told, pieces_of_none nothing⟩
  · obtain ⟨i, flag⟩ := inv.exists_flag fun i => by rw [(ended i).1]; exact (ended i).2
    have idle : (s.workers i).state.point = .idle := by rw [(ended i).1]; exact (ended i).2
    obtain ⟨finished, -, value, stored, -⟩ := (inv.workers i).found idle flag
    have has : (t.units i).executable.state.fields.getResult = some value := by
      rw [← (ended i).1, Fields.getResult, finished, flag]
      exact stored
    rcases result i with found | ⟨_, nothing⟩
    · refine ⟨i, ?_, (line i).trans (pieces_of_getResult found)⟩
      rw [← found, has]
      exact Option.some_ne_none value
    · rw [has] at nothing
      cases nothing

end Printed

/-! ## A line is printed after the call -/

section AfterTheCall

variable {kind : Kind} {pid : Fin n → Nat} {past : List (TeamEvent n)}
  {t t' : Team (Worker Unit) n interrupter} {event : TeamEvent n}

/-- The worker's `handle_success` has returned. -/
def Reported (past : List (TeamEvent n)) (i : Fin n) : Prop :=
  .talk i .handleSuccessReturns ∈ past

/-- A worker with a result is at `handle_success`, or it has returned. -/
def FlagInv (past : List (TeamEvent n)) (i : Fin n) (w : Worker Unit) : Prop :=
  w.state.fields.should_call_sighandler = true ∧
    (w.state.fields.hasResultFlag = true → w.state.point = .notify ∨ Reported past i)

theorem FlagInv.mono {i : Fin n} {w : Worker Unit} (inv : FlagInv past i w) :
    FlagInv (past ++ [event]) i w :=
  ⟨inv.1, fun flag => (inv.2 flag).imp_right fun member => List.mem_append_left _ member⟩

/-- A step of `run` that is no call of `handle_success`. -/
theorem FlagInv.step {i : Fin n} {w : Worker Unit} {own : SearchEvent}
    {state : State Unit ArgType DecryptionResult} {seq : DecryptorSequence}
    (inv : FlagInv past i w) (step : MapCallable.Step w.state own state)
    (other : own ≠ .handleSuccess ∧ own ≠ .throws) : FlagInv past i ⟨state, seq⟩ := by
  obtain ⟨s, seq₀⟩ := w
  obtain ⟨should, flagged⟩ := inv
  have unset : ∀ {f : Fields Unit DecryptionResult} {point : Point ArgType}, s = ⟨f, point⟩ →
      point ≠ .notify → f.hasResultFlag = true → Reported past i := by
    rintro f point rfl elsewhere flag
    exact (flagged flag).resolve_left elsewhere
  cases step with
  | run f set => exact ⟨should, fun flag => .inr (unset rfl (fun same => by cases same) flag)⟩
  | more f => exact ⟨should, fun flag => .inr (unset rfl (fun same => by cases same) flag)⟩
  | exhausted f => exact ⟨should, fun flag => .inr (unset rfl (fun same => by cases same) flag)⟩
  | next f args => exact ⟨should, fun flag => .inr (unset rfl (fun same => by cases same) flag)⟩
  | goOn f args handler set =>
      exact ⟨should, fun flag => .inr (unset rfl (fun same => by cases same) flag)⟩
  | stop f args handler set =>
      exact ⟨should, fun flag => .inr (unset rfl (fun same => by cases same) flag)⟩
  | call f args value =>
      exact ⟨should, fun flag => .inr (unset rfl (fun same => by cases same) flag)⟩
  | rejected f value stored =>
      exact ⟨should, fun flag => .inr (unset rfl (fun same => by cases same) flag)⟩
  | accepted f value stored => exact ⟨should, fun _ => .inl (if_pos should)⟩
  | handleSuccess f handler set => exact absurd rfl other.1
  | throws f point running => exact absurd rfl other.2

theorem flagInv_of_run (run : Run (Team.Step (searchLoad kind pid prepared))
      (Team.Started (searchLoad kind pid prepared)) past t) (i : Fin n) :
    FlagInv past i (t.units i).executable := by
  refine run.invariant (fun past t => ∀ i, FlagInv past i (t.units i).executable) ?_ ?_ i
  · intro t started i
    have fresh := ((started.2.2.2.2 i).1 : (searchCallable prepared i).initial _).1
    rw [FlagInv, fresh]
    exact ⟨rfl, fun flag => by cases flag⟩
  · intro past t event t' inv step
    have frame : ∀ {j : Fin n} {unit : ConcurrencyUnit (Worker Unit)},
        FlagInv (past ++ [event]) j unit.executable →
          ∀ i, FlagInv (past ++ [event]) i (Function.update t.units j unit i).executable :=
      fun own => (Function.forall_update_iff t.units fun i unit =>
        FlagInv (past ++ [event]) i unit.executable).mpr ⟨own, fun i _ => (inv i).mono⟩
    cases step with
    | start j running few next new => exact frame (inv j).mono
    | run j here own =>
        exact frame ((inv j).mono.step own.1
          ⟨fun same => (by cases same), fun same => by cases same⟩)
    | work j busy own =>
        obtain ⟨own, quiet, moved, answers⟩ := own
        exact frame ((inv j).mono.step moved (answers_of_work quiet answers true).2)
    | checkNextSyncCall j busy own asked => exact frame (inv j).mono
    | checkReturns j waits own answered =>
        exact frame ((inv j).mono.step own.1
          ⟨fun same => (by cases same), fun same => by cases same⟩)
    | handleSuccess j busy own told => exact frame (inv j).mono
    | @handleSuccessReturns j object state waits own done =>
        have returned : Reported (past ++ [.talk j .handleSuccessReturns]) j :=
          List.mem_append_right _ (List.mem_singleton_self _)
        refine frame ⟨?_, fun _ => .inr returned⟩
        show object.state.fields.should_call_sighandler = true
        rw [(notify_of_handleSuccess own.1).2]
        exact (inv j).1
    | interrupter own => exact fun i => (inv i).mono
    | leave j busy own =>
        obtain ⟨idle, rfl⟩ := own
        exact frame (inv j).mono
    | hasResult j here => exact frame (inv j).mono
    | print j here => exact frame (inv j).mono
    | finish j here => exact frame (inv j).mono
    | returns running all => exact fun i => (inv i).mono

/-- **A worker prints only after its `handle_success` has returned.** -/
theorem reported_of_printed (sound : interrupter.Sound)
    (run : Run (Team.Step (searchLoad kind pid prepared))
      (Team.Started (searchLoad kind pid prepared)) past t) {i : Fin n}
    (line : t.printed i ≠ []) : Reported past i := by
  obtain ⟨_, _, _, related⟩ := (simulation sound).exists_run run
  have form := related.forms i
  have held := TeamInv.of_run run i
  -- What is printed is part of the line, and the worker has left `run`.
  have ended : (t.units i).executable.state.point = .idle ∧
      (searchLoad kind pid prepared).pieces i (t.units i).executable ≠ [] := by
    rw [UnitInv] at held
    rw [Form] at form
    cases phase : (t.units i).phase with
    | absent | started | leaving => rw [phase] at held; exact absurd held.1 line
    | inside => rw [phase] at held; exact absurd held line
    | printing rest =>
        rw [phase] at held form
        refine ⟨form.1, fun nothing => line ?_⟩
        exact (List.append_eq_nil_iff.mp (held.1.trans nothing)).1
    | finished =>
        rw [phase] at held form
        exact ⟨form.1, fun nothing => line (held.1.trans nothing)⟩
  have has : (t.units i).executable.state.fields.getResult ≠ none :=
    fun nothing => ended.2 (pieces_of_none nothing)
  have flag : (t.units i).executable.state.fields.hasResultFlag = true := by
    by_contra unset
    exact has (by rw [Fields.getResult, Bool.eq_false_of_not_eq_true unset, Bool.and_false]; rfl)
  refine ((flagInv_of_run run i).2 flag).resolve_left fun notify => ?_
  rw [ended.1] at notify
  cases notify

end AfterTheCall

end ParallelLabs.Decryptor
