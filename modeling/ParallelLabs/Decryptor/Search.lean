import ParallelLabs.Callables.Machine
import ParallelLabs.Decryptor.Acceptance
import ParallelLabs.Decryptor.Coverage

/-!
# The search of the workers

Every worker is a `MapCallable` over its `DecryptorSequence`. The workers step in
any order. A step is one of the worker's `run`, answered by its generator, by
`decrypt_with_key` and by `success`; the interrupter says go on as long as no
worker has called `handle_success`, and from then on it may say anything or
throw.

A worker that is not stopped leaves out no key of its stretch: at each point, the
keys before the current one have been tried and rejected (`WorkerInv`). The keys
of all stretches are the whole range, and the key of the ciphertext is not
rejected, so a search that ends has found a key (`search_complete`). It does not
get stuck before (`exists_step`): no worker runs into a fault.
-/

set_option autoImplicit false

namespace ParallelLabs.Decryptor

open Library Twofish Encryptor Callables

variable {Handler : Type}

/-- A worker: the callable and the generator it owns. -/
structure Worker (Handler : Type) where
  state : State Handler ArgType DecryptionResult
  seq : DecryptorSequence

/-- The workers, and whether one of them has called `handle_success`. -/
structure System (Handler : Type) (n : Nat) where
  workers : Fin n → Worker Handler
  notified : Bool

/-- The answers to the external calls of a worker: what its generator becomes
and whether a notification has been made afterwards. -/
inductive Answers (expected : List Byte) (notified : Bool) (point : Point ArgType)
    (seq : DecryptorSequence) :
    Event Handler ArgType DecryptionResult → DecryptorSequence → Bool → Prop where
  | hasNext {answer : Bool} (computed : seq.hasNext = .ok answer) :
      Answers expected notified point seq (.hasNext answer) seq notified
  | next {args : ArgType} {rest : DecryptorSequence} (computed : seq.next = .ok (args, rest)) :
      Answers expected notified point seq (.next args) rest notified
  | goOn : Answers expected notified point seq (.checkNextSyncCall true) seq notified
  | stop (allowed : notified = true) :
      Answers expected notified point seq (.checkNextSyncCall false) seq notified
  | call {args : ArgType} {value : DecryptionResult}
      (computed : decryptWithKey args.1 args.2 = .ok value) :
      Answers expected notified point seq (.call args value) seq notified
  | resultChecker {value : DecryptionResult} {answer : Bool}
      (computed : success expected value = answer) :
      Answers expected notified point seq (.resultChecker value answer) seq notified
  | handleSuccess : Answers expected notified point seq .handleSuccess seq true
  /-- The check throws. -/
  | checkThrows {args : ArgType} (allowed : notified = true) (polling : point = .poll args) :
      Answers expected notified point seq .throws seq notified
  /-- `handle_success` throws, having been called. -/
  | handleThrows (notifying : point = .notify) :
      Answers expected notified point seq .throws seq true

/-- A notification is not taken back. -/
theorem Answers.later {expected : List Byte} {notified notified' : Bool} {point : Point ArgType}
    {seq seq' : DecryptorSequence} {event : Event Handler ArgType DecryptionResult}
    (answers : Answers expected notified point seq event seq' notified') :
    notified = true → notified' = true := by
  intro already
  cases answers with
  | handleSuccess | handleThrows => rfl
  | hasNext | next | goOn | stop | call | resultChecker | checkThrows => exact already

/-- One worker takes a step. -/
inductive System.Step {n : Nat} (expected : List Byte) : System Handler n →
    Fin n × Event Handler ArgType DecryptionResult → System Handler n → Prop where
  | worker (s : System Handler n) (i : Fin n) {event : Event Handler ArgType DecryptionResult}
      {state : State Handler ArgType DecryptionResult} {seq : DecryptorSequence} {notified : Bool}
      (own : MapCallable.Step (s.workers i).state event state)
      (answers : Answers expected s.notified (s.workers i).state.point (s.workers i).seq event seq
        notified) :
      System.Step expected s (i, event) ⟨Function.update s.workers i ⟨state, seq⟩, notified⟩

/-- All workers have got a handler and have entered `run`. -/
def Entered {n : Nat} (prepared : Prepared DecryptorSequence) (s : System Handler n) : Prop :=
  s.notified = false ∧ ∀ i : Fin n,
    (∃ handler, (s.workers i).state =
      ⟨(Fields.make true).setSigHandler (some handler), .test⟩) ∧
    prepared.workers[i.val]? = some (s.workers i).seq

/-- The setting of a search: a range from `0`, and a message encrypted with a key
of the range. -/
structure Search where
  rangeEnd : Word
  numThreads : BitVec 16
  key : Word
  message : List Byte
  threads : 1 ≤ numThreads.toNat
  fits : rangeEnd.toNat + numThreads.toNat ≤ INT_MAX
  inRange : key ≤ rangeEnd
  noZero : 0 ∉ message
  messageFits : paddedLength message ≤ INT_MAX

namespace Search

variable (search : Search)

def step : Nat := stepOf 0 search.rangeEnd search.numThreads

def encrypted : List Byte := ciphertext search.key search.message

/-- The first `j` keys of worker `i` do not contain the key of the message. -/
def Missed (i j : Nat) : Prop := ∀ m < j, i * search.step + m ≠ search.key.toNat

/-- Worker `i` is busy with the key at `m`, having missed those before it. -/
structure Trying (i m : Nat) (args : ArgType) : Prop where
  within : m ≤ search.step
  below : i * search.step + m ≤ search.rangeEnd.toNat
  same : args = (BitVec.ofNat 32 (i * search.step + m), search.encrypted)
  missed : search.Missed i m

/-- The fields report a decryption to the message. -/
def Found (f : Fields Handler DecryptionResult) : Prop :=
  f.finished = true ∧ f.hasResultFlag = true ∧
    ∃ value, f.result = some value ∧ value.result = search.message

/-- What holds of the fields of worker `i` at each point, when its generator is at `j`. -/
def PointInv (notified : Bool) (i j : Nat) (f : Fields Handler DecryptionResult) :
    Point ArgType → Prop
  | .test => f.hasResultFlag = false ∧ j ≤ search.step + 1 ∧ search.Missed i j
  | .fetch => f.hasResultFlag = false ∧ j ≤ search.step ∧
      i * search.step + j ≤ search.rangeEnd.toNat ∧ search.Missed i j
  | .poll args => f.hasResultFlag = false ∧ ∃ m, j = m + 1 ∧ search.Trying i m args
  | .invoke args => f.hasResultFlag = false ∧ ∃ m, j = m + 1 ∧ search.Trying i m args
  | .judge => f.hasResultFlag = false ∧ f.finished = true ∧ ∃ m args value, j = m + 1 ∧
      search.Trying i m args ∧ f.result = some value ∧ decryptWithKey args.1 args.2 = .ok value
  | .notify => search.Found f
  | .idle => search.Found f ∨
      f.hasResultFlag = false ∧ (notified = true ∨ search.Missed i (search.step + 1))

/-- **The invariant of a worker.** -/
structure WorkerInv (notified : Bool) (i : Nat) (w : Worker Handler) : Prop where
  notifies : w.state.fields.should_call_sighandler = true
  handled : ∃ handler, w.state.fields.sighandler = some handler
  generator : ∃ j : Nat,
    w.seq = ⟨i, j, search.step, search.rangeEnd.toInt, search.encrypted⟩ ∧
      search.PointInv notified i j w.state.fields w.state.point

/-! ## Keys missed -/

variable {search}

theorem Missed.exhausted {i j : Nat} (missed : search.Missed i j)
    (ended : search.step < j ∨ search.rangeEnd.toNat < i * search.step + j) :
    search.Missed i (search.step + 1) := by
  intro m below
  have bound := BitVec.le_def.mp search.inRange
  rcases Nat.lt_or_ge m j with tried | later
  · exact missed m tried
  · omega

/-- The key of the message decrypts the ciphertext to the message. -/
theorem decryptWithKey_key (search : Search) :
    decryptWithKey search.key search.encrypted = .ok ⟨search.message, search.key⟩ := by
  rw [encrypted, decryptWithKey_ciphertext search.key search.key search.messageFits,
    decryptedBlocks, blockwise_decryptBlock_ciphertext, takeWhile_pad,
    (takeWhile_eq_self_iff search.message).mpr search.noZero]

/-- A key whose decryption is rejected is not the key of the message. -/
theorem Trying.rejected {i m : Nat} {args : ArgType} {value : DecryptionResult}
    (trying : search.Trying i m args) (computed : decryptWithKey args.1 args.2 = .ok value)
    (rejected : success search.message value = false) : search.Missed i (m + 1) := by
  intro m' below
  rcases Nat.lt_succ_iff_lt_or_eq.mp below with earlier | rfl
  · exact trying.missed m' earlier
  · intro hit
    have key : BitVec.ofNat 32 (i * search.step + m') = search.key := by
      rw [hit]
      exact BitVec.eq_of_toNat_eq (by simp)
    rw [trying.same, key, decryptWithKey_key, Except.ok.injEq] at computed
    rw [← computed, success, beq_self_eq_true] at rejected
    cases rejected

theorem fits_of_within {i j : Nat} (under : i < search.numThreads.toNat)
    (within : j ≤ search.step + 1) : i * search.step + j ≤ INT_MAX := by
  have room := worker_fits 0 search.threads search.fits under
  rw [← step] at room
  omega

/-! ## One step of one worker -/

theorem PointInv.mono {notified notified' : Bool} (later : notified = true → notified' = true)
    {i j : Nat} {f : Fields Handler DecryptionResult} {point : Point ArgType}
    (inv : search.PointInv notified i j f point) : search.PointInv notified' i j f point := by
  cases point with
  | idle => exact inv.imp_right fun ⟨unset, rest⟩ => ⟨unset, rest.imp_left later⟩
  | test | fetch | poll args | invoke args | judge | notify => exact inv

theorem WorkerInv.mono {notified notified' : Bool} (later : notified = true → notified' = true)
    {i : Nat} {w : Worker Handler} (inv : search.WorkerInv notified i w) :
    search.WorkerInv notified' i w :=
  ⟨inv.notifies, inv.handled, inv.generator.imp fun _ ⟨seq, point⟩ => ⟨seq, point.mono later⟩⟩

section WorkerStep

variable {notified notified' : Bool} {i : Nat} {w : Worker Handler}
  {event : Event Handler ArgType DecryptionResult} {state : State Handler ArgType DecryptionResult}
  {seq : DecryptorSequence}

/-- **A step of a worker keeps its invariant.** -/
theorem WorkerInv.step (under : i < search.numThreads.toNat) (inv : search.WorkerInv notified i w)
    (own : MapCallable.Step w.state event state)
    (answers : Answers search.message notified w.state.point w.seq event seq notified') :
    search.WorkerInv notified' i ⟨state, seq⟩ := by
  obtain ⟨notifies, handled, j, generator, point⟩ := inv
  obtain ⟨s, seq₀⟩ := w
  subst generator
  cases own with
  | run f set => cases answers
  | more f =>
      obtain ⟨unset, within, missed⟩ := point
      cases answers with
      | hasNext computed =>
          rw [DecryptorSequence.hasNext_natCast _ _ (fits_of_within under within), Except.ok.injEq,
            Bool.and_eq_true, decide_eq_true_eq, decide_eq_true_eq] at computed
          exact ⟨notifies, handled, j, rfl, unset, computed.2, computed.1, missed⟩
  | exhausted f =>
      obtain ⟨unset, within, missed⟩ := point
      cases answers with
      | hasNext computed =>
          rw [DecryptorSequence.hasNext_natCast _ _ (fits_of_within under within), Except.ok.injEq,
            Bool.and_eq_false_iff, decide_eq_false_iff_not, decide_eq_false_iff_not] at computed
          refine ⟨notifies, handled, j, rfl, .inr ⟨unset, .inr (missed.exhausted ?_)⟩⟩
          omega
  | next f args =>
      obtain ⟨unset, within, below, missed⟩ := point
      cases answers with
      | next computed =>
          have room := fits_of_within under (Nat.succ_le_succ within)
          rw [DecryptorSequence.next_natCast _ _ (by omega) (by omega), Except.ok.injEq,
            Prod.mk.injEq] at computed
          obtain ⟨rfl, rfl⟩ := computed
          exact ⟨notifies, handled, j + 1, rfl, unset, j, rfl, within, below, rfl, missed⟩
  | goOn f args handler set =>
      cases answers with
      | goOn => exact ⟨notifies, handled, j, rfl, point⟩
  | stop f args handler set =>
      cases answers with
      | stop allowed => exact ⟨notifies, handled, j, rfl, .inr ⟨point.1, .inl allowed⟩⟩
  | call f args value =>
      obtain ⟨unset, m, counted, trying⟩ := point
      cases answers with
      | call computed =>
          exact ⟨notifies, handled, j, rfl, unset, rfl, m, args, value, counted, trying, rfl,
            computed⟩
  | rejected f value stored =>
      obtain ⟨unset, finished, m, args, value', counted, trying, stored', computed⟩ := point
      obtain rfl : value' = value := Option.some.inj (stored'.symm.trans stored)
      cases answers with
      | resultChecker answered =>
          exact ⟨notifies, handled, j, rfl, unset, by have := trying.within; omega,
            counted ▸ trying.rejected computed answered⟩
  | accepted f value stored =>
      obtain ⟨unset, finished, m, args, value', counted, trying, stored', computed⟩ := point
      cases answers with
      | resultChecker answered =>
          refine ⟨notifies, handled, j, rfl, ?_⟩
          have should : f.should_call_sighandler = true := notifies
          rw [if_pos should]
          exact ⟨finished, rfl, value, stored, beq_iff_eq.mp answered⟩
  | handleSuccess f handler set =>
      cases answers with
      | handleSuccess => exact ⟨notifies, handled, j, rfl, .inl point⟩
  | throws f p running =>
      cases answers with
      | checkThrows allowed polling =>
          subst polling
          exact ⟨notifies, handled, j, rfl, .inr ⟨point.1, .inl allowed⟩⟩
      | handleThrows notifying =>
          subst notifying
          exact ⟨notifies, handled, j, rfl, .inl point⟩

/-- A worker's success stays on record. -/
theorem hasResultFlag_mono (own : MapCallable.Step w.state event state)
    (flag : w.state.fields.hasResultFlag = true) : state.fields.hasResultFlag = true := by
  obtain ⟨s, seq₀⟩ := w
  cases own with
  | accepted f value stored => rfl
  | run | more | exhausted | next | goOn | stop | call | rejected | handleSuccess | throws =>
      exact flag

/-- A worker that notifies has a success on record. -/
theorem WorkerInv.flag_of_notifies (inv : search.WorkerInv notified i w)
    (own : MapCallable.Step w.state event state)
    (answers : Answers search.message notified w.state.point w.seq event seq notified')
    (notifies : notified' = true) : notified = true ∨ w.state.fields.hasResultFlag = true := by
  obtain ⟨-, -, j, -, point⟩ := inv
  obtain ⟨s, seq₀⟩ := w
  cases answers with
  | handleSuccess =>
      cases own with
      | handleSuccess f handler set => exact .inr point.2.1
  | handleThrows notifying =>
      obtain ⟨f, p⟩ := s
      subst notifying
      exact .inr point.2.1
  | hasNext | next | goOn | stop | call | resultChecker | checkThrows => exact .inl notifies

omit i in
/-- **A busy worker can take a step**: none of its calls runs into a fault. -/
theorem WorkerInv.exists_step {i : Nat} (under : i < search.numThreads.toNat)
    (inv : search.WorkerInv notified i w) (busy : w.state.point ≠ .idle) :
    ∃ event state seq notified', MapCallable.Step w.state event state ∧
      Answers search.message notified w.state.point w.seq event seq notified' := by
  obtain ⟨-, ⟨handler, set⟩, j, generator, inv⟩ := inv
  obtain ⟨⟨f, point⟩, seq₀⟩ := w
  subst generator
  cases point with
  | idle => exact absurd rfl busy
  | test =>
      have answer := DecryptorSequence.hasNext_natCast search.rangeEnd search.encrypted
        (fits_of_within under inv.2.1)
      cases asked : decide (i * search.step + j ≤ search.rangeEnd.toNat) && decide (j ≤ search.step)
      · exact ⟨_, _, _, _, .exhausted f, .hasNext (answer.trans (congrArg _ asked))⟩
      · exact ⟨_, _, _, _, .more f, .hasNext (answer.trans (congrArg _ asked))⟩
  | fetch =>
      have room := fits_of_within under (Nat.succ_le_succ inv.2.1)
      exact ⟨_, _, _, _, .next f _,
        .next (DecryptorSequence.next_natCast _ _ (by omega) (by omega))⟩
  | poll args => exact ⟨_, _, _, _, .goOn f args handler set, .goOn⟩
  | invoke args =>
      obtain ⟨-, m, -, -, -, rfl, -⟩ := inv
      exact ⟨_, _, _, _, .call f _ _,
        .call (decryptWithKey_ciphertext _ search.key search.messageFits)⟩
  | judge =>
      obtain ⟨-, -, m, args, value, -, -, stored, -⟩ := inv
      cases answer : success search.message value
      · exact ⟨_, _, _, _, .rejected f value stored, .resultChecker answer⟩
      · exact ⟨_, _, _, _, .accepted f value stored, .resultChecker answer⟩
  | notify => exact ⟨_, _, _, _, .handleSuccess f handler set, .handleSuccess⟩

end WorkerStep

/-! ## All workers -/

/-- **The invariant of the system.** -/
structure SystemInv (search : Search) (s : System Handler search.numThreads.toNat) : Prop where
  workers : ∀ i : Fin search.numThreads.toNat, search.WorkerInv s.notified i.val (s.workers i)
  recorded : s.notified = true → ∃ i, (s.workers i).state.fields.hasResultFlag = true

theorem systemInv_of_entered {s : System Handler search.numThreads.toNat}
    {prepared : Prepared DecryptorSequence}
    (prepare : prepareMappedFunctions 0 search.rangeEnd search.numThreads search.message
      search.encrypted = .ok prepared) (entered : Entered prepared s) : search.SystemInv s := by
  rw [prepareMappedFunctions_eq (Nat.zero_le _) search.threads (size_fits 0 search.fits),
    Except.ok.injEq] at prepare
  subst prepare
  obtain ⟨silent, workers⟩ := entered
  refine ⟨fun i => ?_, fun notified => absurd notified (by rw [silent]; decide)⟩
  obtain ⟨⟨handler, state⟩, seq⟩ := workers i
  rw [List.getElem?_map, List.getElem?_range i.isLt, Option.map_some, Option.some.injEq] at seq
  refine ⟨by rw [state]; rfl, ⟨handler, by rw [state]; rfl⟩, 0, seq.symm, ?_⟩
  rw [state]
  exact ⟨rfl, Nat.zero_le _, fun m below => absurd below (Nat.not_lt_zero m)⟩

/-- A step changes one worker and may notify the others. -/
theorem SystemInv.step {s s' : System Handler search.numThreads.toNat}
    {event : Fin search.numThreads.toNat × Event Handler ArgType DecryptionResult}
    (inv : search.SystemInv s) (step : System.Step search.message s event s') :
    search.SystemInv s' := by
  cases step with
  | worker i own answers =>
      constructor <;> dsimp only
      · intro j
        rcases eq_or_ne j i with rfl | other
        · rw [Function.update_self]
          exact (inv.workers j).step j.isLt own answers
        · rw [Function.update_of_ne other]
          exact (inv.workers j).mono answers.later
      · intro notified
        -- The one who has a success on record still has it after the step.
        have recorded : ∃ j, (s.workers j).state.fields.hasResultFlag = true := by
          rcases (inv.workers i).flag_of_notifies own answers notified with earlier | flag
          · exact inv.recorded earlier
          · exact ⟨i, flag⟩
        obtain ⟨j, flag⟩ := recorded
        refine ⟨j, ?_⟩
        rcases eq_or_ne j i with rfl | other
        · rw [Function.update_self]
          exact hasResultFlag_mono own flag
        · rw [Function.update_of_ne other]
          exact flag

theorem systemInv_of_run (search : Search) {prepared : Prepared DecryptorSequence}
    (prepare : prepareMappedFunctions 0 search.rangeEnd search.numThreads search.message
      search.encrypted = .ok prepared)
    {events : List (Fin search.numThreads.toNat × Event Handler ArgType DecryptionResult)}
    {s : System Handler search.numThreads.toNat}
    (run : Run (System.Step prepared.expected) (Entered prepared) events s) :
    search.SystemInv s := by
  have expected : prepared.expected = search.message := by
    rw [prepareMappedFunctions_eq (Nat.zero_le _) search.threads (size_fits 0 search.fits),
      Except.ok.injEq] at prepare
    rw [← prepare]
  rw [expected] at run
  exact run.invariant (fun _ s => search.SystemInv s)
    (fun _ entered => systemInv_of_entered prepare entered)
    (fun _ _ _ _ inv step => inv.step step)

/-- **The search does not get stuck** before all workers have returned. -/
theorem SystemInv.exists_step {s : System Handler search.numThreads.toNat}
    (inv : search.SystemInv s) (i : Fin search.numThreads.toNat)
    (busy : (s.workers i).state.point ≠ .idle) :
    ∃ event s', System.Step search.message s (i, event) s' := by
  obtain ⟨event, _, _, _, own, answers⟩ := (inv.workers i).exists_step i.isLt busy
  exact ⟨event, _, .worker s i own answers⟩

/-- The key of the message is in some stretch. -/
theorem exists_worker_of_key (search : Search) :
    ∃ i < search.numThreads.toNat, ∃ m < search.step + 1,
      i * search.step + m = search.key.toNat := by
  have enough := le_mul_roundedStep search.rangeEnd.toNat search.threads
  have below := BitVec.le_def.mp search.inRange
  have stepEq : search.step = roundedStep search.rangeEnd.toNat search.numThreads.toNat := rfl
  obtain ⟨i, under, member⟩ :=
    (exists_stretch_iff search.threads search.step search.rangeEnd.toNat search.key.toNat).mpr
    ⟨by rw [stepEq]; exact below.trans enough, below⟩
  obtain ⟨above, within, -⟩ := mem_stretch.mp member
  exact ⟨i, under, search.key.toNat - i * search.step, by omega, by omega⟩

/-- When all workers have returned, one of them has a success on record. -/
theorem SystemInv.exists_flag {s : System Handler search.numThreads.toNat}
    (inv : search.SystemInv s) (returned : ∀ i, (s.workers i).state.point = .idle) :
    ∃ i, (s.workers i).state.fields.hasResultFlag = true := by
  obtain ⟨i, under, m, within, hit⟩ := exists_worker_of_key search
  obtain ⟨-, -, j, -, point⟩ := inv.workers ⟨i, under⟩
  rw [returned ⟨i, under⟩] at point
  rcases point with found | ⟨-, notified | missed⟩
  · exact ⟨⟨i, under⟩, found.2.1⟩
  · exact inv.recorded notified
  · exact absurd hit (missed m within)

/-- A returned worker with a success on record has found the message. -/
theorem WorkerInv.found {notified : Bool} {i : Nat} {w : Worker Handler}
    (inv : search.WorkerInv notified i w) (idle : w.state.point = .idle)
    (flag : w.state.fields.hasResultFlag = true) : search.Found w.state.fields := by
  obtain ⟨-, -, j, -, point⟩ := inv
  rw [idle] at point
  rcases point with found | ⟨unset, -⟩
  · exact found
  · rw [flag] at unset
    cases unset

end Search

/-- **The search finds the key.** In every run of the workers of
`prepare_mapped_functions` on a range from `0` that contains the key, in which
all workers have returned, some worker has a result, and every worker that has
one holds the message. -/
theorem search_complete (rangeEnd key : Word) (numThreads : BitVec 16) (message : List Byte)
    (threads : 1 ≤ numThreads.toNat) (fits : rangeEnd.toNat + numThreads.toNat ≤ INT_MAX)
    (inRange : key ≤ rangeEnd) (noZero : 0 ∉ message)
    (messageFits : paddedLength message ≤ INT_MAX) {c : List Byte}
    (encrypted : encrypt key message = .ok c) {prepared : Prepared DecryptorSequence}
    (prepare : prepareMappedFunctions 0 rangeEnd numThreads message c = .ok prepared)
    {events : List (Fin numThreads.toNat × Event Handler ArgType DecryptionResult)}
    {final : System Handler numThreads.toNat}
    (run : Run (System.Step prepared.expected) (Entered prepared) events final)
    (returned : ∀ i, (final.workers i).state.point = .idle) :
    (∃ i, (final.workers i).state.fields.hasResult = true) ∧
      ∀ i, (final.workers i).state.fields.hasResult = true →
        ∃ result, (final.workers i).state.fields.getResult = some result ∧
          result.result = message := by
  let search : Search := ⟨rangeEnd, numThreads, key, message, threads, fits, inRange, noZero,
    messageFits⟩
  rw [encrypt_eq_ciphertext key messageFits, Except.ok.injEq] at encrypted
  subst encrypted
  have inv : search.SystemInv final := Search.systemInv_of_run search prepare run
  constructor
  · obtain ⟨i, flag⟩ := inv.exists_flag returned
    have found := (inv.workers i).found (returned i) flag
    exact ⟨i, by rw [Fields.hasResult, found.1, flag]; rfl⟩
  · intro i has
    have flags := has
    rw [Fields.hasResult, Bool.and_eq_true] at flags
    obtain ⟨-, -, value, stored, same⟩ := (inv.workers i).found (returned i) flags.2
    refine ⟨value, ?_, same⟩
    rw [Fields.getResult, ← Fields.hasResult, if_pos has, stored]

/-- Two workers on the keys up to `3`. The second one finds the letter `A` with its first
key, and the other one is told to stop before it tries any. -/
theorem search_complete_two :
    ∃ final : System Unit 2, (∃ i, (final.workers i).state.fields.hasResult = true) ∧
      ∀ i, (final.workers i).state.fields.hasResult = true →
        ∃ result, (final.workers i).state.fields.getResult = some result ∧
          result.result = [0x41] := by
  have messageFits : paddedLength [0x41] ≤ INT_MAX := by decide
  have decrypted := Search.decryptWithKey_key ⟨3, 2, 2, [0x41], by decide, by decide,
    by decide, by decide, messageFits⟩
  obtain ⟨c, encrypted⟩ : ∃ c, ciphertext 2 [0x41] = c := ⟨_, rfl⟩
  rw [Search.encrypted, encrypted] at decrypted
  have prepare : prepareMappedFunctions 0 3 2 [0x41] c =
      .ok ⟨[0x41], [.make 0 2 3 c, .make 1 2 3 c]⟩ := rfl
  let new : Fields Unit DecryptionResult := (Fields.make true).setSigHandler (some ())
  have entered : Entered ⟨[0x41], [.make 0 2 3 c, .make 1 2 3 c]⟩
      (⟨fun i => ⟨⟨new, .test⟩, .make i.val 2 3 c⟩, false⟩ : System Unit 2) :=
    ⟨rfl, Fin.forall_fin_two.mpr ⟨⟨⟨(), rfl⟩, rfl⟩, ⟨(), rfl⟩, rfl⟩⟩
  have started : Run (System.Step [0x41]) (Entered _) [] _ := .start entered
  have polled := (started.snoc (.worker _ 0 (.more new) (.hasNext rfl))).snoc
    (.worker _ 0 (.next new (0, c)) (.next rfl))
  have called := (((polled.snoc (.worker _ 1 (.more new) (.hasNext rfl))).snoc
    (.worker _ 1 (.next new (2, c)) (.next rfl))).snoc
    (.worker _ 1 (.goOn new (2, c) () rfl) .goOn)).snoc
    (.worker _ 1 (.call new (2, c) ⟨[0x41], 2⟩) (.call decrypted))
  have notified := (called.snoc
    (.worker _ 1 (.accepted (new.store ⟨[0x41], 2⟩) ⟨[0x41], 2⟩ rfl) (.resultChecker rfl))).snoc
    (.worker _ 1 (.handleSuccess (new.store ⟨[0x41], 2⟩).accept () rfl) .handleSuccess)
  have stopped := notified.snoc (.worker _ 0 (.stop new (0, c) () rfl) (.stop rfl))
  have ciphered : encrypt 2 [0x41] = .ok c := by
    rw [← encrypted]
    exact encrypt_eq_ciphertext 2 messageFits
  exact ⟨_, search_complete 3 2 2 [0x41] (by decide) (by decide) (by decide) (by decide)
    messageFits ciphered prepare stopped (Fin.forall_fin_two.mpr ⟨rfl, rfl⟩)⟩

end ParallelLabs.Decryptor
