import ParallelLabs.Decryptor.TeamTermination
import ParallelLabs.SharedMemory.SystemInterrupter

/-!
# The search with the stop flag

The configuration of `main`: the thread runner, or the process runner, on the workers
of `prepare_mapped_functions` with `SharedMemorySystemInterrupter`. Everything
interleaves: the workers' calls, the single bytes of the flag, the pieces of the
lines printed, and the start of the workers. Every run of the program ends, and it
ends with a found key printed (`sharedMemory_search`).

A line is printed after the worker's `handle_success` has returned, so the whole
message is in the mapping by then, and every check that starts later says stop. A
worker that is in the middle of a check may still be sent on, with a part of the
message in its hands. It takes at most one more key from its generator
(`sharedMemory_prompt`).
-/

set_option autoImplicit false

namespace ParallelLabs.SharedMemory

open Library Callables Runners Decryptor

/-- The program of `main` has a run to its end. -/
theorem exists_returned_main :
    ∃ (prepared : Prepared DecryptorSequence) (events : List (TeamEvent 5))
      (t : Team (Decryptor.Worker Unit) 5 (SharedMemorySystemInterrupter (Fin 5))),
      prepareMappedFunctions 0 mainSearch.rangeEnd mainSearch.numThreads mainSearch.message
        mainSearch.encrypted = .ok prepared ∧
      Run (Team.Step (searchLoad .thread (fun _ => 0) prepared))
        (Team.Started (searchLoad .thread (fun _ => 0) prepared)) events t ∧ t.returned = true := by
  have launching : Runners.Kind.thread.Launches mainSearch.numThreads.toNat :=
    show launches 5 = true from rfl
  have initial : (SharedMemorySystemInterrupter (Fin mainSearch.numThreads.toNat)).initial
      ⟨createSharedMemory, fun _ => .idle⟩ := ⟨rfl, fun _ => rfl⟩
  exact exists_returned mainSearch launching (fun _ => 0) (sharedMemoryResponsive _)
    (sharedMemory_sound _) initial

/-- A worker that had taken `j` keys when the message was whole: it has taken no more,
or one more, and then its check says stop. -/
def LastKey (j : Int) (unit : ConcurrencyUnit (Decryptor.Worker Unit)) (activity : Activity) :
    Prop :=
  unit.executable.seq.j = j ∨ unit.executable.seq.j = j + 1 ∧
    (unit.phase = .inside ∧ (∃ args, unit.executable.state.point = .poll args) ∧
        (∀ length copied, activity = .copying length copied → length = pointerSize) ∨
      unit.executable.state.point = .idle ∧ unit.phase ≠ .absent ∧ unit.phase ≠ .started)

namespace LastKey

variable {j : Int} {unit : ConcurrencyUnit (Decryptor.Worker Unit)} {activity : Activity}

theorem le (last : LastKey j unit activity) : unit.executable.seq.j ≤ j + 1 := by
  rcases last with same | ⟨next, -⟩
  · omega
  · exact next.le

/-- A worker elsewhere has taken no more keys. -/
theorem same (last : LastKey j unit activity)
    (elsewhere : unit.phase = .inside → ∀ args, unit.executable.state.point ≠ .poll args)
    (running : unit.phase = .absent ∨ unit.phase = .started ∨
      unit.executable.state.point ≠ .idle) : unit.executable.seq.j = j := by
  rcases last with same | ⟨-, ⟨inside, ⟨args, poll⟩, -⟩ | ⟨idle, entered, begun⟩⟩
  · exact same
  · exact absurd poll (elsewhere inside args)
  · rcases running with absent | started | busy
    · exact absurd absent entered
    · exact absurd started begun
    · exact absurd idle busy

/-- A worker that goes on to another phase after `run`. -/
theorem leave (last : LastKey j unit activity) (idle : unit.executable.state.point = .idle)
    (unit' : ConcurrencyUnit (Decryptor.Worker Unit)) (kept : unit'.executable = unit.executable)
    (ended : unit'.phase ≠ .absent ∧ unit'.phase ≠ .started) {activity' : Activity} :
    LastKey j unit' activity' := by
  rcases last with same | ⟨next, -⟩
  · exact .inl (kept ▸ same)
  · exact .inr ⟨kept ▸ next, .inr ⟨kept ▸ idle, ended⟩⟩

end LastKey

section Team

variable {n : Nat} {kind : Runners.Kind} {pid : Fin n → Nat} {prepared : Prepared DecryptorSequence}
  {t t' : Team (Decryptor.Worker Unit) n (SharedMemorySystemInterrupter (Fin n))}
  {event : TeamEvent n}

/-- The work of a worker takes at most one key, and then it stands at a check. -/
theorem lastKey_of_work {j : Int} {w : Decryptor.Worker Unit} {own : SearchEvent}
    {state : State Unit ArgType DecryptionResult} {seq : DecryptorSequence}
    (here : w.seq.j = j) (step : MapCallable.Step w.state own state)
    (answers : Answers prepared.expected false w.state.point w.seq own seq false) :
    seq.j = j ∨ seq.j = j + 1 ∧ ∃ args, state.point = .poll args := by
  obtain ⟨s, seq₀⟩ := w
  cases answers with
  | hasNext computed => exact .inl here
  | next computed =>
      obtain rfl := DecryptorSequence.eq_of_next computed
      cases step with
      | next f args => exact .inr ⟨congrArg (· + 1) here, _, rfl⟩
  | goOn => exact .inl here
  | stop allowed => exact .inl here
  | call computed => exact .inl here
  | resultChecker computed => exact .inl here
  | checkThrows allowed polling => cases allowed

theorem idle_of_stop {state state' : State Unit ArgType DecryptionResult}
    (step : MapCallable.Step state (.checkNextSyncCall false) state') : state'.point = .idle := by
  cases step with
  | stop f args handler set => rfl

theorem entered_of_inside {phase : UnitPhase} (inside : phase = .inside) :
    phase ≠ .absent ∧ phase ≠ .started := by
  subst inside
  exact ⟨fun same => (by cases same), fun same => by cases same⟩

/-- **A step after a success**: no worker takes a second key. -/
theorem LastKey.step {events : List (Event (Fin n))} {place : Fin n → Int}
    (last : ∀ i, LastKey (place i) (t.units i) (World.workers t.interrupter i))
    (forms : ∀ i, Form (t.units i)) (coupled : CoupledInv (sharedMemoryResponsive _) t)
    (inv : WorldInv events t.interrupter) (full : Full t.interrupter)
    (step : t.Step (searchLoad kind pid prepared) event t') (i : Fin n) :
    LastKey (place i) (t'.units i) (World.workers t'.interrupter i) := by
  have alone : ∀ {k : Fin n} {unit : ConcurrencyUnit (Decryptor.Worker Unit)},
      LastKey (place k) unit (World.workers t.interrupter k) →
        LastKey (place i) (Function.update t.units k unit i) (World.workers t.interrupter i) := by
    intro k unit own
    by_cases same : i = k
    · subst same
      rwa [Function.update_self]
    · rw [Function.update_of_ne same]
      exact last i
  have both : ∀ {k : Fin n} {unit : ConcurrencyUnit (Decryptor.Worker Unit)} {activity : Activity},
      LastKey (place k) unit activity → LastKey (place i) (Function.update t.units k unit i)
        (Function.update (World.workers t.interrupter) k activity i) := by
    intro k unit activity own
    by_cases same : i = k
    · subst same
      rwa [Function.update_self, Function.update_self]
    · rw [Function.update_of_ne same, Function.update_of_ne same]
      exact last i
  have ended : ∀ {k : Fin n} {unit : ConcurrencyUnit (Decryptor.Worker Unit)},
      ((t.units k).phase = .leaving ∨ ∃ rest, (t.units k).phase = .printing rest) →
      unit.executable = (t.units k).executable → unit.phase ≠ .absent ∧ unit.phase ≠ .started →
        LastKey (place i) (Function.update t.units k unit i) (World.workers t.interrupter i) := by
    intro k unit here kept later
    have form := forms k
    refine alone ((last k).leave ?_ unit kept later)
    rcases here with here | ⟨rest, here⟩
    · rw [Form, here] at form
      exact form.1
    · rw [Form, here] at form
      exact form.1
  cases step with
  | start k running few next new =>
      refine alone (.inl ?_)
      exact (last k).same (fun inside => by cases inside.symm.trans new) (.inl new)
  | run k here own =>
      refine alone (.inl ?_)
      rw [own.2]
      exact (last k).same (fun inside => by cases inside.symm.trans here) (.inr (.inl here))
  | @work k object busy own =>
      obtain ⟨own, quiet, moved, answers⟩ := own
      have place' : (t.units k).executable.seq.j = place k := by
        obtain ⟨elsewhere, entered, -⟩ := busy_of_work quiet moved answers
        exact (last k).same (fun _ => elsewhere) (.inr (.inr entered))
      rcases lastKey_of_work place' moved answers with same | ⟨next, poll⟩
      · exact alone (.inl same)
      · refine alone (.inr ⟨next, .inl ⟨busy.1, poll, fun length copied copying => ?_⟩⟩)
        have outside : (World.workers t.interrupter k).method = none := (coupled k).idle busy.2
        rw [copying] at outside
        cases outside
  | checkNextSyncCall k busy own asked =>
      obtain ⟨_, rfl⟩ := checkNextSyncCall_cases asked
      refine both ?_
      rcases last k with same | ⟨next, ⟨inside, poll, -⟩ | idle⟩
      · exact .inl same
      · exact .inr ⟨next, .inl ⟨inside, poll, fun _ _ same => by cases same⟩⟩
      · exact .inr ⟨next, .inr idle⟩
  | @checkReturns k answer object state waits own answered =>
      obtain ⟨moved, kept⟩ := own
      obtain ⟨args, poll⟩ := poll_of_check moved
      obtain ⟨_, _, copying, rfl⟩ := checkReturns_cases answered
      refine both ?_
      rcases last k with same | ⟨next, ⟨inside, -, whole⟩ | ⟨idle, -⟩⟩
      · exact .inl (kept ▸ same)
      · obtain rfl := stop_of_whole inv answered whole
        have stopped : object.state.point = .idle := idle_of_stop moved
        exact .inr ⟨kept ▸ next, .inr ⟨stopped, entered_of_inside inside⟩⟩
      · rw [poll] at idle
        cases idle
  | handleSuccess k busy own told =>
      obtain ⟨object, moved, -⟩ := own
      obtain ⟨notify, -⟩ := notify_of_handleSuccess moved
      obtain ⟨_, rfl⟩ := handleSuccess_cases told
      refine both (.inl ((last k).same (fun _ args poll => ?_) (.inr (.inr fun idle => ?_))))
      · cases notify.symm.trans poll
      · cases notify.symm.trans idle
  | @handleSuccessReturns k object state waits own done =>
      obtain ⟨moved, kept⟩ := own
      obtain ⟨notify, -⟩ := notify_of_handleSuccess moved
      obtain ⟨_, rfl⟩ := handleSuccessReturns_cases done
      refine both (.inl ?_)
      show object.seq.j = place k
      rw [kept]
      refine (last k).same (fun _ args poll => ?_) (.inr (.inr fun idle => ?_))
      · cases notify.symm.trans poll
      · cases notify.symm.trans idle
  | interrupter own =>
      rcases last i with same | ⟨next, ⟨inside, poll, whole⟩ | idle⟩
      · exact .inl same
      · refine .inr ⟨next, .inl ⟨inside, poll, fun length copied copying => ?_⟩⟩
        rcases copying_of_byte inv full own copying with ⟨copied', before⟩ | whole
        · exact whole length copied' before
        · exact whole
      · exact .inr ⟨next, .inr idle⟩
  | leave k busy own =>
      obtain ⟨idle, rfl⟩ := own
      exact alone ((last k).leave idle ⟨.leaving, (t.units k).executable, false⟩ rfl
        ⟨fun same => (by cases same), fun same => by cases same⟩)
  | hasResult k here => exact ended (.inl here) rfl (by simp)
  | print k here => exact ended (.inr ⟨_, here⟩) rfl (by simp)
  | finish k here => exact ended (.inr ⟨_, here⟩) rfl (by simp)
  | returns running all => exact last i

/-- After a success has been recorded, the workers keep to their last key. -/
theorem lastKey_of_path (place : Fin n → Int) {past later : List (TeamEvent n)}
    (behind : ∀ {past t}, Run (Team.Step (searchLoad kind pid prepared))
      (Team.Started (searchLoad kind pid prepared)) past t → (∀ i, Form (t.units i)) ∧
        (∃ events, WorldInv events t.interrupter) ∧ CoupledInv (sharedMemoryResponsive _) t)
    (path : Path (Team.Step (searchLoad kind pid prepared)) t later t')
    (run : Run (Team.Step (searchLoad kind pid prepared))
      (Team.Started (searchLoad kind pid prepared)) past t) {w : Fin n} (reported : Reported past w)
    (last : ∀ i, LastKey (place i) (t.units i) (World.workers t.interrupter i)) (i : Fin n) :
    LastKey (place i) (t'.units i) (World.workers t'.interrupter i) := by
  induction path generalizing past with
  | done => exact last i
  | cons next rest ih =>
      obtain ⟨forms, ⟨_, inv⟩, coupled⟩ := behind run
      have full := full_of_returned (Team.run_interrupter run)
        (List.mem_filterMap.mpr ⟨_, reported, rfl⟩)
      exact ih (run.snoc next) (List.mem_append_left _ reported)
        (LastKey.step last forms coupled inv full next)

end Team

/-- **At most one more key.** Once a worker has begun to print its line, no worker takes
more than one further key from its generator, in any continuation of the run. -/
theorem sharedMemory_prompt (search : Search) {kind : Runners.Kind}
    (pid : Fin search.numThreads.toNat → Nat) {prepared : Prepared DecryptorSequence}
    {past later : List (TeamEvent search.numThreads.toNat)}
    {t t' : Team (Decryptor.Worker Unit) search.numThreads.toNat
      (SharedMemorySystemInterrupter (Fin search.numThreads.toNat))}
    (run : Run (Team.Step (searchLoad kind pid prepared))
      (Team.Started (searchLoad kind pid prepared)) past t)
    {w : Fin search.numThreads.toNat} (line : t.printed w ≠ [])
    (path : Path (Team.Step (searchLoad kind pid prepared)) t later t')
    (i : Fin search.numThreads.toNat) :
    (t'.units i).executable.seq.j ≤ (t.units i).executable.seq.j + 1 := by
  have reported := reported_of_printed (sharedMemory_sound _) run line
  refine LastKey.le (lastKey_of_path (fun i => (t.units i).executable.seq.j)
    (fun run => ?_) path run reported (fun i => .inl rfl) i)
  obtain ⟨_, _, _, related⟩ := (simulation (sharedMemory_sound _)).exists_run run
  obtain ⟨events, run', -⟩ := exists_run_of_talks (Team.run_interrupter run)
  exact ⟨related.forms, ⟨events, WorldInv.of_run run'⟩,
    CoupledInv.of_run (sharedMemoryResponsive _) (sharedMemory_sound _) run⟩

/-- The program of `main`, past the first line. -/
theorem sharedMemory_prompt_main :
    ∃ (prepared : Prepared DecryptorSequence) (events : List (TeamEvent 5))
      (t : Team (Decryptor.Worker Unit) 5 (SharedMemorySystemInterrupter (Fin 5))) (w : Fin 5),
      Run (Team.Step (searchLoad .thread (fun _ => 0) prepared))
        (Team.Started (searchLoad .thread (fun _ => 0) prepared)) events t ∧ t.printed w ≠ [] ∧
      ∀ later t', Path (Team.Step (searchLoad .thread (fun _ => 0) prepared)) t later t' →
        ∀ i, (t'.units i).executable.seq.j ≤ (t.units i).executable.seq.j + 1 := by
  have launching : Runners.Kind.thread.Launches mainSearch.numThreads.toNat :=
    show launches 5 = true from rfl
  obtain ⟨prepared, events, t, prepare, run, returned⟩ := exists_returned_main
  obtain ⟨-, w, hit, pieces⟩ :=
    printed_of_run (sharedMemory_sound _) launching prepare run returned
  have line : t.printed w ≠ [] := fun nothing =>
    pieces_ne_nil hit (pieces.symm.trans nothing)
  exact ⟨prepared, events, t, w, run, line,
    fun later t' path => sharedMemory_prompt mainSearch (fun _ => 0) run line path⟩

end ParallelLabs.SharedMemory
