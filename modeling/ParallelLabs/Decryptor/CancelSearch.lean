import ParallelLabs.Decryptor.TeamSearch
import ParallelLabs.Runners.ThreadRunner

/-!
# The search with `pthread_cancel`

`LinuxThreadParallelRunner` on the workers of `prepare_mapped_functions` with
`LinuxSignalSystemInterrupter`. A thread that has found a key goes through the others in
`kill_except` and cancels those whose flag it has seen, wherever they are: in `run`, in
a `kill_except` of their own, or in the middle of their line.

Only a thread that has not been cancelled cancels another one. So once a thread has been
cancelled there is always one with a key that has not been cancelled (`SpareInv`), and
when `run` returns it has printed its line as a whole (`cancel_search`).
-/

set_option autoImplicit false

namespace ParallelLabs.Decryptor

open Library Twofish Encryptor Callables Runners

/-- A thread of the search. -/
abbrev SearchThread := Thread ArgType DecryptionResult

/-- The runner in `run`, on the workers of a search: the threads, their generators, and
what each thread has printed. -/
structure Cancelling (n : Nat) where
  pool : Pool ArgType DecryptionResult n
  seqs : Fin n → DecryptorSequence
  printed : Fin n → List (List Byte)
  returned : Bool

inductive CancelEvent (n : Nat) where
  | thread (event : ThreadEvent ArgType DecryptionResult n)
  | print (thread : Fin n) (piece : List Byte)
  | returns

/-- The line of a thread with a result, piece by piece. -/
def linePieces (i : Nat) (result : Option DecryptionResult) : List (List Byte) :=
  match result with
  | some result => Kind.thread.pieces (innerUid i) 0 result.toString
  | none => []

/-- The thread has ended or has been cancelled, so that `pthread_join` returns. -/
def threadOver (thread : SearchThread) : Prop :=
  thread.cancelled = true ∨ thread.phase = .finished

namespace Cancelling

variable {n : Nat} (prepared : Prepared DecryptorSequence) (s : Cancelling n)

/-- What the thread has to print. -/
def line (i : Fin n) : List (List Byte) :=
  linePieces i (s.pool.threads i).callable.fields.getResult

/-- The generators after an event of a thread. The calls of the generator, the function
and the checker are answered as in the search. -/
inductive Answered : ThreadEvent ArgType DecryptionResult n → (Fin n → DecryptorSequence) →
    Prop where
  | run (i : Fin n) : Answered (.own i .run) s.seqs
  | own (i : Fin n) {event : SearchEvent} {seq : DecryptorSequence} {notified : Bool}
      (answers : Answers prepared.expected false (s.pool.threads i).callable.point (s.seqs i)
        event seq notified) : Answered (.own i event) (Function.update s.seqs i seq)
  | other {event : ThreadEvent ArgType DecryptionResult n} (silent : ∀ i own, event ≠ .own i own) :
      Answered event s.seqs

inductive Step : CancelEvent n → Cancelling n → Prop where
  /-- A thread clears its flag after it has printed. -/
  | thread {event : ThreadEvent ArgType DecryptionResult n}
      {pool : Pool ArgType DecryptionResult n} {seqs : Fin n → DecryptorSequence}
      (step : s.pool.Step event pool) (answered : s.Answered prepared event seqs)
      (whole : ∀ i, event = .setRunning i false → s.printed i = s.line i) :
      Step (.thread event) { s with pool := pool, seqs := seqs }
  | print (i : Fin n) {piece : List Byte} {rest : List (List Byte)}
      (here : s.pool.At i .leaving) (left : s.line i = s.printed i ++ piece :: rest) :
      Step (.print i piece)
        { s with printed := Function.update s.printed i (s.printed i ++ [piece]) }
  /-- All threads have been created and joined. -/
  | returns (running : s.returned = false)
      (joined : launches n = true → s.pool.created = n ∧ ∀ i, threadOver (s.pool.threads i)) :
      Step .returns { s with returned := true }

/-- The runner enters `run`. -/
def Started : Prop :=
  s.pool.created = 0 ∧ s.returned = false ∧ ∀ i : Fin n,
    s.pool.threads i = ⟨.absent, false, false,
      ⟨(Fields.make true).setSigHandler (some ()), .idle⟩, 0, none⟩ ∧
    prepared.workers[i.val]? = some (s.seqs i) ∧ s.printed i = []

end Cancelling

/-! ## The search behind the threads -/

/-- A thread as the search sees it. -/
def threadUnit (thread : SearchThread) (seq : DecryptorSequence) : Worker Unit :=
  match thread.phase with
  | .absent | .created | .flagged => ⟨⟨thread.callable.fields, .test⟩, seq⟩
  | .inside | .leaving | .finished => ⟨thread.callable, seq⟩

/-- What the phase of a thread says about its callable. -/
def ThreadForm (thread : SearchThread) : Prop :=
  match thread.phase with
  | .absent | .created | .flagged =>
      thread.callable = ⟨(Fields.make true).setSigHandler (some ()), .idle⟩
  | .inside => True
  | .leaving | .finished => thread.callable.point = .idle

variable {n : Nat} {prepared : Prepared DecryptorSequence}

/-- **The threads and the search behind them.** A unit is a thread with its generator. -/
def CancelRelated (threads : Fin n → SearchThread) (seqs : Fin n → DecryptorSequence)
    (past' : List (Fin n × SearchEvent)) (sys : System Unit n) : Prop :=
  Behind (fun unit : SearchThread × DecryptorSequence => threadUnit unit.1 unit.2)
    (fun unit => ThreadForm unit.1) (fun _ _ => False) (fun i => (threads i, seqs i)) past' sys

theorem threadUnit_inside {thread : SearchThread} (inside : thread.phase = .inside)
    (seq : DecryptorSequence) : threadUnit thread seq = ⟨thread.callable, seq⟩ := by
  rw [threadUnit, inside]

theorem update_pair (threads : Fin n → SearchThread) (seqs : Fin n → DecryptorSequence) (i : Fin n)
    (thread : SearchThread) (seq : DecryptorSequence) :
    (fun j => (Function.update threads i thread j, Function.update seqs i seq j)) =
      Function.update (fun j => (threads j, seqs j)) i (thread, seq) := by
  funext j
  by_cases same : j = i
  · subst same
    simp only [Function.update_self]
  · simp only [Function.update_of_ne same]

namespace CancelRelated

variable {threads : Fin n → SearchThread} {seqs : Fin n → DecryptorSequence}
  {past' : List (Fin n × SearchEvent)} {sys : System Unit n} {i : Fin n} {thread : SearchThread}

theorem seen (related : CancelRelated threads seqs past' sys) (i : Fin n) :
    sys.workers i = threadUnit (threads i) (seqs i) :=
  related.worker i

theorem form (related : CancelRelated threads seqs past' sys) (i : Fin n) :
    ThreadForm (threads i) :=
  related.forms i

/-- A step that the search does not see. -/
theorem stutter (related : CancelRelated threads seqs past' sys) (form : ThreadForm thread)
    (same : threadUnit thread (seqs i) = threadUnit (threads i) (seqs i)) :
    CancelRelated (Function.update threads i thread) seqs past' sys := by
  have pairs := update_pair threads seqs i thread (seqs i)
  rw [Function.update_eq_self] at pairs
  rw [CancelRelated, pairs]
  exact Behind.stutter related form same id

/-- A step that the search takes too. -/
theorem move (related : CancelRelated threads seqs past' sys) (thread : SearchThread)
    (seq : DecryptorSequence)
    (before : (threads i).phase = .inside) (after : thread.phase = .inside) {own : SearchEvent}
    {notified : Bool} (step : MapCallable.Step (threads i).callable own thread.callable)
    (answers : Answers prepared.expected sys.notified (threads i).callable.point (seqs i) own seq
      notified)
    (quiet : own ≠ .checkNextSyncCall false ∧ own ≠ .throws) :
    ∃ sys', System.Step prepared.expected sys (i, own) sys' ∧
      CancelRelated (Function.update threads i thread) (Function.update seqs i seq)
        (past' ++ [(i, own)]) sys' := by
  have form : ThreadForm thread := by
    rw [ThreadForm, after]
    trivial
  have moved : ∃ sys', System.Step prepared.expected sys (i, own) sys' ∧ sys'.notified = notified ∧
      Behind _ _ _ (Function.update (fun j => (threads j, seqs j)) i (thread, seq))
        (past' ++ [(i, own)]) sys' :=
    Behind.move related form (threadUnit_inside before _) (threadUnit_inside after _) step answers
      id (not_or.mpr quiet)
  obtain ⟨sys', next, -, behind⟩ := moved
  refine ⟨sys', next, ?_⟩
  rw [CancelRelated, update_pair]
  exact behind

end CancelRelated

/-- The search takes a step when the threads do. -/
def seenByThreads : CancelEvent n → Bool
  | .thread (.own _ .run) => false
  | .thread (.own _ _) => true
  | .thread (.create _) | .thread (.setRunning _ _) | .thread (.returns _) | .thread (.look _ _)
  | .thread (.cancel _ _) | .print _ _ | .returns => false

theorem not_unnotified_run {point : Point ArgType} :
    ¬ Unnotified point (.run : SearchEvent) := by
  rintro (works | check)
  · cases works
  · cases check

/-- What `run` of a thread does besides `handle_success` involves neither a stop nor an
exception. -/
theorem quiet_of_unnotified {point : Point ArgType} {seq seq' : DecryptorSequence}
    {own : SearchEvent} {notified : Bool} {expected : List Byte} (allowed : Unnotified point own)
    (answers : Answers expected false point seq own seq' notified) (before : Bool) :
    own ≠ .run ∧ own ≠ .checkNextSyncCall false ∧ own ≠ .throws ∧
      Answers expected before point seq own seq' before := by
  rcases allowed with works | rfl
  · cases answers with
    | hasNext computed => exact ⟨nofun, nofun, nofun, .hasNext computed⟩
    | next computed => exact ⟨nofun, nofun, nofun, .next computed⟩
    | call computed => exact ⟨nofun, nofun, nofun, .call computed⟩
    | resultChecker computed => exact ⟨nofun, nofun, nofun, .resultChecker computed⟩
    | goOn | stop | handleSuccess => cases works
    | checkThrows told polling => cases told
    | handleThrows notifying =>
        cases works with
        | throws point checks notifies => exact absurd notifying notifies
  · cases answers with
    | goOn => exact ⟨nofun, nofun, nofun, .goOn⟩

section Simulates

variable {s s' : Cancelling n} {event : CancelEvent n} {past' : List (Fin n × SearchEvent)}
  {sys : System Unit n}

/-- **A step of the threads is a step of the search or none.** -/
theorem CancelRelated.step (related : CancelRelated s.pool.threads s.seqs past' sys)
    (step : s.Step prepared event s') :
    ∃ later sys', Path (System.Step prepared.expected) sys later sys' ∧
      later.length = (seenByThreads event).toNat ∧
      CancelRelated s'.pool.threads s'.seqs (past' ++ later) sys' := by
  have still : ∀ {threads seqs}, CancelRelated threads seqs past' sys →
      seenByThreads event = false →
      ∃ later sys', Path (System.Step prepared.expected) sys later sys' ∧
        later.length = (seenByThreads event).toNat ∧
        CancelRelated threads seqs (past' ++ later) sys' := fun related silent =>
    ⟨[], sys, .done sys, by rw [silent]; rfl, by rwa [List.append_nil]⟩
  cases step with
  | print i here left => exact still related rfl
  | returns running joined => exact still related rfl
  | thread step answered whole =>
    cases step with
    | create i few next new =>
        have form := related.form i
        rw [ThreadForm, new] at form
        cases answered with
        | other silent =>
            refine still (related.stutter form ?_) rfl
            rw [threadUnit, threadUnit, new]
    | setRunning i here =>
        have form := related.form i
        rw [ThreadForm, here.2] at form
        cases answered with
        | other silent =>
            refine still (related.stutter form ?_) rfl
            rw [threadUnit, threadUnit, here.2]
    | @run i callable here own =>
        have form : ThreadForm { s.pool.threads i with callable := callable, phase := .inside } :=
          trivial
        cases answered with
        | own _ answers => cases answers
        | other silent => exact absurd rfl (silent i .run)
        | run =>
            refine still (related.stutter form ?_) rfl
            rw [threadUnit, threadUnit, here.2]
            show (⟨callable, _⟩ : Worker Unit) = _
            rw [run_cases own]
    | @work i own callable here allowed moved =>
        cases answered with
        | run => exact absurd allowed not_unnotified_run
        | other silent => exact absurd rfl (silent i own)
        | own _ answers =>
            obtain ⟨noRun, noStop, noThrow, answers⟩ :=
              quiet_of_unnotified allowed answers sys.notified
            obtain ⟨sys', next, related'⟩ :=
              related.move { s.pool.threads i with callable := callable } _
                here.2 here.2 moved answers ⟨noStop, noThrow⟩
            refine ⟨_, sys', .single next, ?_, related'⟩
            cases own with
            | run => exact absurd rfl noRun
            | setSigHandler | addSingleCallable | hasNext | next | checkNextSyncCall | call
            | resultChecker | handleSuccess | throws => rfl
    | look i target killing loop fresh =>
        cases answered with
        | other silent =>
            refine still (related.stutter (related.form i) ?_) rfl
            rfl
    | cancel i target killing loop other flagged =>
        cases answered with
        | other silent =>
            have cancelled : CancelRelated (Function.update s.pool.threads target
                { s.pool.threads target with cancelled := true }) s.seqs past' sys :=
              related.stutter (related.form target) rfl
            have own : Function.update s.pool.threads target
                { s.pool.threads target with cancelled := true } i = s.pool.threads i :=
              Function.update_of_ne other.symm _ _
            refine still (cancelled.stutter (related.form i) ?_) rfl
            rw [own]
            rfl
    | pass i target killing loop looked spare =>
        cases answered with
        | other silent =>
            refine still (related.stutter (related.form i) ?_) rfl
            rfl
    | @handleSuccess i callable killing all own =>
        cases answered with
        | other silent => exact absurd rfl (silent i .handleSuccess)
        | own _ answers =>
            cases answers with
            | handleSuccess =>
                obtain ⟨sys', next, related'⟩ := related.move
                  { s.pool.threads i with callable := callable, index := 0 } (s.seqs i)
                  killing.1.2 killing.1.2 own .handleSuccess ⟨nofun, nofun⟩
                exact ⟨_, sys', .single next, rfl, related'⟩
    | returns i here done =>
        cases answered with
        | other silent =>
            refine still (related.stutter done ?_) rfl
            rw [threadUnit, threadUnit, here.2]
    | clearRunning i here =>
        have form := related.form i
        rw [ThreadForm, here.2] at form
        cases answered with
        | other silent =>
            refine still (related.stutter form ?_) rfl
            rw [threadUnit, threadUnit, here.2]

end Simulates

/-! ## Who is spared -/

theorem threads_set_self (pool : Pool ArgType DecryptionResult n) (i : Fin n)
    (thread : SearchThread) : (pool.set i thread).threads i = thread :=
  Function.update_self _ _ _

theorem threads_set_of_ne (pool : Pool ArgType DecryptionResult n) {i j : Fin n} (other : j ≠ i)
    (thread : SearchThread) : (pool.set i thread).threads j = pool.threads j :=
  Function.update_of_ne other _ _

/-- What a thread has printed. -/
def PrintForm (i : Nat) (thread : SearchThread) (printed : List (List Byte)) : Prop :=
  match thread.phase with
  | .absent | .created | .flagged | .inside => printed = []
  | .leaving => printed <+: linePieces i thread.callable.fields.getResult
  | .finished => printed = linePieces i thread.callable.fields.getResult

/-- Where a thread is in the loop of `kill_except`. -/
def LoopForm (n : Nat) (thread : SearchThread) : Prop :=
  thread.index ≤ n ∧ (thread.copied ≠ none → thread.index < n)

/-- **The invariant of the threads.** Once a thread has been cancelled there is one with a
key that has not been cancelled. -/
structure SpareInv (s : Cancelling n) : Prop where
  created : ∀ i, (s.pool.threads i).phase = .absent ↔ s.pool.created ≤ i.val
  few : s.pool.created ≤ n
  spare : (∃ i, (s.pool.threads i).cancelled = true) →
    ∃ j, (s.pool.threads j).cancelled = false ∧
      (s.pool.threads j).callable.fields.hasResultFlag = true
  loops : ∀ i, LoopForm n (s.pool.threads i)
  printed : ∀ i : Fin n, PrintForm i (s.pool.threads i) (s.printed i)
  closed : s.returned = true → launches n = true →
    s.pool.created = n ∧ ∀ i, threadOver (s.pool.threads i)

theorem printForm_inside {i : Nat} {thread : SearchThread} {printed : List (List Byte)}
    (inside : thread.phase = .inside) : PrintForm i thread printed ↔ printed = [] := by
  rw [PrintForm, inside]

namespace SpareInv

variable {s : Cancelling n} {i : Fin n} {thread : SearchThread}

theorem started (started : s.Started prepared) : SpareInv s := by
  obtain ⟨created, running, threads⟩ := started
  refine ⟨fun i => ?_, ?_, ?_, fun i => ?_, fun i => ?_, fun returned => ?_⟩
  · rw [(threads i).1, created]
    exact ⟨fun _ => Nat.zero_le _, fun _ => rfl⟩
  · rw [created]
    exact Nat.zero_le n
  · rintro ⟨i, cancelled⟩
    rw [(threads i).1] at cancelled
    cases cancelled
  · rw [(threads i).1]
    exact ⟨Nat.zero_le n, fun copied => absurd rfl copied⟩
  · rw [(threads i).1]
    exact (threads i).2.2
  · cases running.symm.trans returned

/-- A change of one thread. -/
theorem change (inv : SpareInv s) {created : Nat} {seqs : Fin n → DecryptorSequence}
    (absent : ∀ j, ((s.pool.set i thread).threads j).phase = .absent ↔ created ≤ j.val)
    (few : created ≤ n) (cancelled : thread.cancelled = (s.pool.threads i).cancelled)
    (flag : (s.pool.threads i).callable.fields.hasResultFlag = true →
      thread.callable.fields.hasResultFlag = true)
    (loop : LoopForm n thread) (print : PrintForm i thread (s.printed i))
    (closed : s.returned = true → launches n = true →
      created = n ∧ (threadOver (s.pool.threads i) → threadOver thread)) :
    SpareInv { s with pool := ⟨created, (s.pool.set i thread).threads⟩, seqs := seqs } := by
  have here : (s.pool.set i thread).threads i = thread := threads_set_self _ _ _
  have there : ∀ {j}, j ≠ i → (s.pool.set i thread).threads j = s.pool.threads j :=
    fun other => threads_set_of_ne _ other _
  refine ⟨absent, few, ?_, fun j => ?_, fun j => ?_, fun returned launching => ?_⟩
  · rintro ⟨j, hit⟩
    have before : ∃ j, (s.pool.threads j).cancelled = true := by
      refine ⟨j, ?_⟩
      by_cases same : j = i
      · subst same
        rw [← cancelled, ← here]
        exact hit
      · rw [← there same]
        exact hit
    obtain ⟨k, free, has⟩ := inv.spare before
    refine ⟨k, ?_⟩
    show ((s.pool.set i thread).threads k).cancelled = false ∧
      ((s.pool.set i thread).threads k).callable.fields.hasResultFlag = true
    by_cases same : k = i
    · subst same
      rw [here]
      exact ⟨cancelled.trans free, flag has⟩
    · rw [there same]
      exact ⟨free, has⟩
  · show LoopForm n ((s.pool.set i thread).threads j)
    by_cases same : j = i
    · subst same
      rw [here]
      exact loop
    · rw [there same]
      exact inv.loops j
  · show PrintForm j ((s.pool.set i thread).threads j) (s.printed j)
    by_cases same : j = i
    · subst same
      rw [here]
      exact print
    · rw [there same]
      exact inv.printed j
  · obtain ⟨all, gone⟩ := closed returned launching
    refine ⟨all, fun j => ?_⟩
    show threadOver ((s.pool.set i thread).threads j)
    by_cases same : j = i
    · subst same
      rw [here]
      exact gone ((inv.closed returned launching).2 j)
    · rw [there same]
      exact (inv.closed returned launching).2 j

/-- A change of one thread that has been created. -/
theorem set (inv : SpareInv s) {seqs : Fin n → DecryptorSequence}
    (created : (s.pool.threads i).phase ≠ .absent ∧ thread.phase ≠ .absent)
    (cancelled : thread.cancelled = (s.pool.threads i).cancelled)
    (flag : (s.pool.threads i).callable.fields.hasResultFlag = true →
      thread.callable.fields.hasResultFlag = true)
    (loop : LoopForm n thread) (print : PrintForm i thread (s.printed i))
    (gone : threadOver (s.pool.threads i) → threadOver thread) :
    SpareInv { s with pool := s.pool.set i thread, seqs := seqs } := by
  refine inv.change (fun j => ?_) inv.few cancelled flag loop print
    fun returned launching => ⟨(inv.closed returned launching).1, gone⟩
  rw [← inv.created j]
  by_cases same : j = i
  · subst same
    rw [threads_set_self]
    exact ⟨fun absent => absurd absent created.2, fun absent => absurd absent created.1⟩
  · rw [threads_set_of_ne _ same]

/-- A thread that runs is not over. -/
theorem not_threadOver {phase : Phase} (here : s.pool.At i phase) (runs : phase ≠ .finished) :
    ¬ threadOver (s.pool.threads i) := by
  rintro (cancelled | finished)
  · cases here.1.symm.trans cancelled
  · exact runs (here.2.symm.trans finished)

/-- A step of a thread in `run`. -/
theorem inside (inv : SpareInv s) {seqs : Fin n → DecryptorSequence} (here : s.pool.At i .inside)
    (stays : thread.phase = .inside) (cancelled : thread.cancelled = (s.pool.threads i).cancelled)
    (flag : (s.pool.threads i).callable.fields.hasResultFlag = true →
      thread.callable.fields.hasResultFlag = true) (loop : LoopForm n thread) :
    SpareInv { s with pool := s.pool.set i thread, seqs := seqs } := by
  refine inv.set ⟨?_, ?_⟩ cancelled flag loop ?_ fun gone => absurd gone (not_threadOver here nofun)
  · rw [here.2]
    nofun
  · rw [stays]
    nofun
  · exact (printForm_inside stays).mpr ((printForm_inside here.2).mp (inv.printed i))

/-- A thread that has not been cancelled and has a key cancels another one. -/
theorem cancel (inv : SpareInv s) {target : Fin n} (other : target ≠ i)
    (free : (s.pool.threads i).cancelled = false)
    (has : (s.pool.threads i).callable.fields.hasResultFlag = true)
    (same : thread = { s.pool.threads target with cancelled := true }) :
    SpareInv { s with pool := s.pool.set target thread } := by
  have here : (s.pool.set target thread).threads target = thread := threads_set_self _ _ _
  have there : ∀ {j}, j ≠ target → (s.pool.set target thread).threads j = s.pool.threads j :=
    fun other => threads_set_of_ne _ other _
  refine ⟨fun j => ?_, inv.few, fun _ => ⟨i, ?_⟩, fun j => ?_, fun j => ?_,
    fun returned launching => ?_⟩
  · show ((s.pool.set target thread).threads j).phase = .absent ↔ s.pool.created ≤ j.val
    by_cases at_target : j = target
    · subst at_target
      rw [here, same]
      exact inv.created j
    · rw [there at_target]
      exact inv.created j
  · show ((s.pool.set target thread).threads i).cancelled = false ∧
      ((s.pool.set target thread).threads i).callable.fields.hasResultFlag = true
    rw [there other.symm]
    exact ⟨free, has⟩
  · show LoopForm n ((s.pool.set target thread).threads j)
    by_cases at_target : j = target
    · subst at_target
      rw [here, same]
      exact inv.loops j
    · rw [there at_target]
      exact inv.loops j
  · show PrintForm j ((s.pool.set target thread).threads j) (s.printed j)
    by_cases at_target : j = target
    · subst at_target
      rw [here, same]
      exact inv.printed j
    · rw [there at_target]
      exact inv.printed j
  · obtain ⟨all, ended⟩ := inv.closed returned launching
    refine ⟨all, fun j => ?_⟩
    show threadOver ((s.pool.set target thread).threads j)
    by_cases at_target : j = target
    · subst at_target
      rw [here, same]
      exact .inl rfl
    · rw [there at_target]
      exact ended j

variable {s' : Cancelling n} {event : CancelEvent n}

/-- **A step keeps the invariant of the threads.** -/
theorem step (inv : SpareInv s)
    (found : ∀ i, (s.pool.threads i).phase = .inside →
      (s.pool.threads i).callable.point = .notify →
      (s.pool.threads i).callable.fields.hasResultFlag = true)
    (step : s.Step prepared event s') : SpareInv s' := by
  cases step with
  | @print i piece rest here left =>
      refine ⟨inv.created, inv.few, inv.spare, inv.loops, fun j => ?_, inv.closed⟩
      show PrintForm j (s.pool.threads j) (Function.update s.printed i (s.printed i ++ [piece]) j)
      by_cases same : j = i
      · subst same
        rw [Function.update_self, PrintForm, here.2]
        show s.printed j ++ [piece] <+: s.line j
        have split : s.line j = s.printed j ++ [piece] ++ rest :=
          left.trans (List.append_cons _ _ _)
        rw [split]
        exact List.prefix_append (s.printed j ++ [piece]) rest
      · rw [Function.update_of_ne same]
        exact inv.printed j
  | returns running joined =>
      exact ⟨inv.created, inv.few, inv.spare, inv.loops, inv.printed, fun _ => joined⟩
  | thread step answered whole =>
    cases step with
    | create i few next new =>
        have print := inv.printed i
        rw [PrintForm, new] at print
        refine inv.change (fun j => ?_) (next ▸ i.isLt) rfl id (inv.loops i) print
          fun returned launching => ?_
        · have before := inv.created j
          by_cases same : j = i
          · subst same
            rw [threads_set_self]
            refine ⟨nofun, fun later => ?_⟩
            omega
          · rw [threads_set_of_ne _ same, before]
            have apart : j.val ≠ i.val := fun eq => same (Fin.ext eq)
            omega
        · have all := (inv.closed returned launching).1
          have below := i.isLt
          omega
    | setRunning i here =>
        have print := inv.printed i
        rw [PrintForm, here.2] at print
        refine inv.set ⟨?_, nofun⟩ rfl id (inv.loops i) print
          fun gone => absurd gone (not_threadOver here nofun)
        rw [here.2]
        nofun
    | @run i callable here own =>
        have print := inv.printed i
        rw [PrintForm, here.2] at print
        refine inv.set ⟨?_, nofun⟩ rfl (fun flag => ?_) (inv.loops i) print
          fun gone => absurd gone (not_threadOver here nofun)
        · rw [here.2]
          nofun
        · exact Search.hasResultFlag_mono (w := ⟨_, s.seqs i⟩) own flag
    | @work i own callable here allowed moved =>
        exact inv.inside here here.2 rfl
          (Search.hasResultFlag_mono (w := ⟨_, s.seqs i⟩) moved) (inv.loops i)
    | look i target killing loop fresh =>
        refine inv.inside killing.1 killing.1.2 rfl id ⟨(inv.loops i).1, fun _ => ?_⟩
        show (s.pool.threads i).index < n
        rw [loop]
        exact target.isLt
    | cancel i target killing loop other flagged =>
        have cancelled := inv.cancel other killing.1.1 (found i killing.1.2 killing.2) rfl
        have own : (s.pool.set target { s.pool.threads target with cancelled := true }).threads i =
            s.pool.threads i := threads_set_of_ne _ other.symm _
        refine cancelled.inside (i := i) ⟨?_, ?_⟩ killing.1.2 ?_ (fun flag => ?_) ⟨?_, ?_⟩
        · rw [own]
          exact killing.1.1
        · rw [own]
          exact killing.1.2
        · rw [own]
        · rwa [own] at flag
        · show (s.pool.threads i).index + 1 ≤ n
          rw [loop]
          exact target.isLt
        · exact fun copied => absurd rfl copied
    | pass i target killing loop looked spare =>
        refine inv.inside killing.1 killing.1.2 rfl id ⟨?_, fun copied => absurd rfl copied⟩
        show (s.pool.threads i).index + 1 ≤ n
        rw [loop]
        exact target.isLt
    | @handleSuccess i callable killing all own =>
        refine inv.inside killing.1 killing.1.2 rfl
          (Search.hasResultFlag_mono (w := ⟨_, s.seqs i⟩) own) ⟨Nat.zero_le n, fun copied => ?_⟩
        have below := (inv.loops i).2 copied
        omega
    | returns i here done =>
        have print := (printForm_inside here.2).mp (inv.printed i)
        refine inv.set ⟨?_, nofun⟩ rfl id (inv.loops i) ?_
          fun gone => absurd gone (not_threadOver here nofun)
        · rw [here.2]
          nofun
        · rw [print]
          exact List.nil_prefix
    | clearRunning i here =>
        refine inv.set ⟨?_, nofun⟩ rfl id (inv.loops i) (whole i rfl)
          fun gone => absurd gone (not_threadOver here nofun)
        rw [here.2]
        nofun

end SpareInv

/-! ## The threads end -/

section Rest

variable {s s' : Cancelling n} {event : CancelEvent n}

end Rest

/-! ## The runs of the thread runner -/

section Runs

variable {search : Search} {prepared : Prepared DecryptorSequence}
  {past : List (CancelEvent search.numThreads.toNat)}
  {s s' : Cancelling search.numThreads.toNat}
  {event : CancelEvent search.numThreads.toNat}

theorem CancelRelated.totalWeight {past' : List (Fin search.numThreads.toNat × SearchEvent)}
    {sys : System Unit search.numThreads.toNat}
    (related : CancelRelated s.pool.threads s.seqs past' sys) :
    Search.totalWeight sys = ∑ i, search.weight (threadUnit (s.pool.threads i) (s.seqs i)) :=
  Behind.totalWeight related

end Runs

end ParallelLabs.Decryptor
