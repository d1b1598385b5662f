import ParallelLabs.Callables.WorkerKinds
import ParallelLabs.Decryptor.Search

/-!
# Several searches in one process

A preparation puts the string that it looks for into the global `expected`, and
`success` reads it from there whenever a result is judged. A process can prepare
several batches, of either kind, and run their callables in any order. All they
share is `expected`, which is that of the batch that was prepared last.

A search is independent of the others if its part of the run, its preparation and
the steps of its callables, is a run of a process that does nothing else and that
leaves the callables as they are. It is so if and only if at each of its calls of
`success` the two strings, the one in `expected` and its own, give the same answer
(`independent_iff`). When another batch has been prepared for another string in
between, its hits can be lost (`hit_lost`).
-/

set_option autoImplicit false

namespace ParallelLabs.Decryptor

open Library Twofish Callables

/-- The two preparations. -/
inductive Preparation where
  | functions
  | mappedFunctions
  deriving DecidableEq, Repr

/-- The call of a preparation. -/
structure Request where
  preparation : Preparation
  rangeBegin : Word
  rangeEnd : Word
  numThreads : BitVec 16
  expected : List Byte
  encrypted : List Byte

/-- A callable of a batch, with the generator of a `MapCallable`. -/
structure Member (Handler : Type) where
  callable : Tree Handler ArgType DecryptionResult
  generator : Option DecryptorSequence

section Processes

variable {Handler : Type}

namespace Member

/-- A worker of `prepare_functions`. -/
def ofFunctions (args : List ArgType) : Member Handler :=
  ⟨args.foldl pushCallable (.multiple .make .idle []), none⟩

/-- A worker of `prepare_mapped_functions`. -/
def ofMappedFunctions (seq : DecryptorSequence) : Member Handler :=
  ⟨.leaf .mapCallable ⟨.make true, .idle⟩, some seq⟩

end Member

/-- The batch that a preparation returns. -/
def Request.prepare (r : Request) : Except Fault (Prepared (Member Handler)) :=
  match r.preparation with
  | .functions => do
      let prepared ←
        prepareFunctions r.rangeBegin r.rangeEnd r.numThreads r.expected r.encrypted
      pure ⟨prepared.expected, prepared.workers.map .ofFunctions⟩
  | .mappedFunctions => do
      let prepared ←
        prepareMappedFunctions r.rangeBegin r.rangeEnd r.numThreads r.expected r.encrypted
      pure ⟨prepared.expected, prepared.workers.map .ofMappedFunctions⟩

/-- What is outside of a callable does its part: the generator, `decrypt_with_key` and
`success`, which reads `expected`. The interrupter may say anything, or throw. -/
def Allowed (expected : List Byte) (generator : Option DecryptorSequence) :
    Deed Handler ArgType DecryptionResult → Option DecryptorSequence → Prop
  | .leaf _ _ (.hasNext answer), generator' =>
      generator' = generator ∧ ∃ seq, generator = some seq ∧ seq.hasNext = .ok answer
  | .leaf _ _ (.next args), generator' =>
      ∃ seq rest, generator = some seq ∧ seq.next = .ok (args, rest) ∧ generator' = some rest
  | .leaf _ _ (.call args value), generator' =>
      generator' = generator ∧ decryptWithKey args.1 args.2 = .ok value
  | .leaf _ _ (.resultChecker value answer), generator' =>
      generator' = generator ∧ success expected value = answer
  | .leaf _ point .throws, generator' =>
      generator' = generator ∧ (point = .notify ∨ ∃ args, point = .poll args)
  | _, generator' => generator' = generator

/-- What happens in a process. -/
inductive Act (ι Handler : Type) where
  | prepare (batch : ι)
  /-- `set_sig_handler` of a callable of a batch. -/
  | setSigHandler (batch : ι) (i : Nat) (handler : Handler)
  /-- A step of a callable of a batch. -/
  | step (batch : ι) (i : Nat) (path : List Nat) (deed : Deed Handler ArgType DecryptionResult)

variable {ι : Type}

/-- The batch that an act belongs to. -/
def Act.batch : Act ι Handler → ι
  | .prepare batch => batch
  | .setSigHandler batch _ _ => batch
  | .step batch _ _ _ => batch

/-- A process: the global `expected` and the batches that have been prepared. -/
structure Process (ι Handler : Type) where
  expected : List Byte
  batches : ι → Option (List (Member Handler))

namespace Process

/-- No batch has been prepared. -/
def Started (s : Process ι Handler) : Prop := s = ⟨[], fun _ => none⟩

variable [DecidableEq ι]

inductive Step (request : ι → Request) (cast : DecryptionResult → String)
    (s : Process ι Handler) : Act ι Handler → Process ι Handler → Prop where
  | prepare (batch : ι) {prepared : Prepared (Member Handler)} (first : s.batches batch = none)
      (made : (request batch).prepare = .ok prepared) :
      Step request cast s (.prepare batch)
        ⟨prepared.expected, Function.update s.batches batch (some prepared.workers)⟩
  | setSigHandler (batch : ι) (i : Nat) (handler : Handler) {members : List (Member Handler)}
      {m : Member Handler} (there : s.batches batch = some members) (current : members[i]? = some m)
      (idle : m.callable.Idle) :
      Step request cast s (.setSigHandler batch i handler)
        ⟨s.expected, Function.update s.batches batch
          (some (members.set i ⟨m.callable.setSigHandler (some handler), m.generator⟩))⟩
  | step (batch : ι) (i : Nat) (path : List Nat) {deed : Deed Handler ArgType DecryptionResult}
      {escapes : Bool} {members : List (Member Handler)} {m : Member Handler}
      {callable : Tree Handler ArgType DecryptionResult} {generator : Option DecryptorSequence}
      (there : s.batches batch = some members) (current : members[i]? = some m)
      (own : m.callable.Step cast path deed escapes callable)
      (allowed : Allowed s.expected m.generator deed generator) :
      Step request cast s (.step batch i path deed)
        ⟨s.expected, Function.update s.batches batch (some (members.set i ⟨callable, generator⟩))⟩

/-- The acts that belong to a batch. -/
def partOf (A : ι) (past : List (Process ι Handler × Act ι Handler)) : List (Act ι Handler) :=
  (past.map Prod.snd).filter fun act => act.batch = A

/-- The part of a batch is a run by itself, and leaves the same callables. -/
def Independent (request : ι → Request) (cast : DecryptionResult → String) (A : ι)
    (past : List (Process ι Handler × Act ι Handler)) (s : Process ι Handler) : Prop :=
  ∃ s', Run (Step request cast) Started (partOf A past) s' ∧ s'.batches A = s.batches A

/-- Where `success` judges a result of the batch, it answers as for the string of the
batch. -/
def Agrees (request : ι → Request) (A : ι) (s : Process ι Handler) : Act ι Handler → Prop
  | .step batch _ _ (.leaf _ _ (.resultChecker value _)) =>
      batch = A → success s.expected value = success (request A).expected value
  | _ => True

variable {request : ι → Request} {cast : DecryptionResult → String} {A : ι}
  {s s' s₀ s₀' : Process ι Handler} {act : Act ι Handler}

omit [DecidableEq ι] in
theorem expected_of_prepare {r : Request} {prepared : Prepared (Member Handler)}
    (made : r.prepare = .ok prepared) : prepared.expected = r.expected := by
  rw [Request.prepare] at made
  split at made
  · obtain ⟨eager, returned, boxed⟩ := bind_eq_ok.mp made
    obtain rfl := Except.ok.inj boxed
    rw [prepareFunctions] at returned
    obtain ⟨step, _, filled⟩ := bind_eq_ok.mp returned
    obtain ⟨workers, _, written⟩ := bind_eq_ok.mp filled
    obtain rfl := Except.ok.inj written
    rfl
  · obtain ⟨mapped, returned, boxed⟩ := bind_eq_ok.mp made
    obtain rfl := Except.ok.inj boxed
    rw [prepareMappedFunctions] at returned
    obtain ⟨step, _, written⟩ := bind_eq_ok.mp returned
    obtain rfl := Except.ok.inj written
    rfl

/-- A step of another batch. -/
theorem Step.batches_of_ne (step : Step request cast s act s') (other : act.batch ≠ A) :
    s'.batches A = s.batches A := by
  cases step with
  | prepare | setSigHandler | step => exact Function.update_of_ne (Ne.symm other) _ _

/-- **The string of a batch that is alone** is in `expected`. -/
theorem expected_of_alone {events : List (Act ι Handler)}
    (run : Run (Step request cast) Started events s) (alone : ∀ act ∈ events, act.batch = A) :
    s.batches A ≠ none → s.expected = (request A).expected := by
  induction run with
  | start starts =>
      rw [show _ = _ from starts]
      exact fun some => absurd rfl some
  | snoc _ next ih =>
      have before := ih fun act member => alone act (List.mem_append_left _ member)
      have own := alone _ (List.mem_append_right _ List.mem_cons_self)
      cases next with
      | prepare batch first made =>
          cases own
          exact fun _ => expected_of_prepare made
      | setSigHandler batch i handler there =>
          cases own
          exact fun _ => before (there ▸ Option.some_ne_none _)
      | step batch i path there =>
          cases own
          exact fun _ => before (there ▸ Option.some_ne_none _)

omit [DecidableEq ι] in
/-- Only a judgement depends on `expected`. -/
theorem allowed_of_agrees {i : Nat} {path : List Nat}
    {deed : Deed Handler ArgType DecryptionResult} {generator generator' : Option DecryptorSequence}
    (allowed : Allowed s.expected generator deed generator')
    (agrees : Agrees request A s (.step A i path deed)) :
    Allowed (request A).expected generator deed generator' := by
  cases deed with
  | leaf kind point event =>
      cases event with
      | resultChecker value answer => exact ⟨allowed.1, (agrees rfl).symm.trans allowed.2⟩
      | setSigHandler | addSingleCallable | run | hasNext | next | checkNextSyncCall | call
      | handleSuccess | throws => exact allowed
  | runUnset | run | checkNextSyncCall | handleSuccess | loop => exact allowed

/-- **A step of a batch can be made by a process that does nothing else**, if the
strings agree. -/
theorem Step.alone (step : Step request cast s act s') (own : act.batch = A)
    (same : s₀.batches A = s.batches A) (agrees : Agrees request A s act)
    (mine : s₀.batches A ≠ none → s₀.expected = (request A).expected) :
    ∃ s₀', Step request cast s₀ act s₀' ∧ s₀'.batches A = s'.batches A := by
  cases step with
  | prepare batch first made =>
      obtain rfl : batch = A := own
      exact ⟨_, .prepare batch (same.trans first) made,
        by simp only [Function.update_self]⟩
  | setSigHandler batch i handler there current idle =>
      obtain rfl : batch = A := own
      exact ⟨_, .setSigHandler batch i handler (same.trans there) current idle,
        by simp only [Function.update_self]⟩
  | step batch i path there current step allowed =>
      obtain rfl : batch = A := own
      have there₀ := same.trans there
      have allowed₀ := allowed_of_agrees allowed agrees
      rw [← mine (there₀ ▸ Option.some_ne_none _)] at allowed₀
      exact ⟨_, .step batch i path there₀ current step allowed₀,
        by simp only [Function.update_self]⟩

theorem mem_partOf {past : List (Process ι Handler × Act ι Handler)} :
    act ∈ partOf A past ↔ (∃ s, (s, act) ∈ past) ∧ act.batch = A := by
  rw [partOf, List.mem_filter, decide_eq_true_iff]
  exact and_congr_left fun _ => List.mem_map.trans
    ⟨fun ⟨⟨s, _⟩, member, same⟩ => ⟨s, same ▸ member⟩, fun ⟨s, member⟩ => ⟨_, member, rfl⟩⟩

section Judgements

variable {batch : ι} {i : Nat} {path : List Nat} {kind : Class ArgType} {point : Point ArgType}
  {value : DecryptionResult} {answer : Bool}

/-- A result is judged by the string in `expected`. -/
theorem answer_of_step
    (step : Step request cast s
      (.step batch i path (.leaf kind point (.resultChecker value answer))) s') :
    success s.expected value = answer := by
  cases step with
  | step _ _ _ _ _ _ allowed => exact allowed.2

/-- **A batch that is alone is judged by its own string.** -/
theorem answer_of_alone {events : List (Act ι Handler)}
    (run : Run (Step request cast) Started events s) (alone : ∀ act ∈ events, act.batch = A)
    (member : .step A i path (.leaf kind point (.resultChecker value answer)) ∈ events) :
    success (request A).expected value = answer := by
  obtain ⟨before, after, rfl⟩ := List.append_of_mem member
  rw [List.append_cons] at run
  obtain ⟨s₂, upTo⟩ := run.exists_of_append
  obtain ⟨s₁, earlier, step⟩ := upTo.exists_step
  have mine := expected_of_alone earlier fun act member =>
    alone act (List.mem_append_left _ member)
  have judged := answer_of_step step
  cases step with
  | step _ _ _ there =>
      rwa [mine (there ▸ Option.some_ne_none _)] at judged

end Judgements

section Parts

variable {past : List (Process ι Handler × Act ι Handler)}

theorem partOf_snoc_of_eq (own : act.batch = A) :
    partOf A (past ++ [(s, act)]) = partOf A past ++ [act] := by
  rw [partOf, List.map_append, List.filter_append, List.map_singleton,
    List.filter_singleton, decide_eq_true own]
  rfl

theorem partOf_snoc_of_ne (other : act.batch ≠ A) :
    partOf A (past ++ [(s, act)]) = partOf A past := by
  rw [partOf, List.map_append, List.filter_append, List.map_singleton,
    List.filter_singleton, decide_eq_false other]
  exact List.append_nil _

end Parts

/-- If a batch is independent, the strings agree. -/
theorem Independent.everyStep {past : List (Process ι Handler × Act ι Handler)}
    (independent : Independent request cast A past s)
    (trace : Trace (Step request cast) Started past s) : EveryStep (Agrees request A) past := by
  obtain ⟨_, run, _⟩ := independent
  rintro ⟨s₁, act⟩ member
  obtain ⟨s₂, step⟩ := trace.exists_step_of_mem member
  cases act with
  | prepare | setSigHandler => trivial
  | step batch i path deed =>
      cases deed with
      | leaf kind point event =>
          cases event with
          | resultChecker value answer =>
              rintro rfl
              have inside := mem_partOf.mpr ⟨⟨s₁, member⟩, rfl⟩
              have own := answer_of_alone run (fun act inside => (mem_partOf.mp inside).2) inside
              exact (answer_of_step step).trans own.symm
          | setSigHandler | addSingleCallable | run | hasNext | next | checkNextSyncCall | call
          | handleSuccess | throws => trivial
      | runUnset | run | checkNextSyncCall | handleSuccess | loop => trivial

/-- If the strings agree, the batch is independent. -/
theorem independent_of_everyStep {past : List (Process ι Handler × Act ι Handler)}
    (trace : Trace (Step request cast) Started past s) (agree : EveryStep (Agrees request A) past) :
    Independent request cast A past s := by
  induction trace with
  | start starts => exact ⟨_, .start starts, rfl⟩
  | @snoc past s s' act trace next ih =>
      obtain ⟨earlier, now⟩ := everyStep_snoc.mp agree
      obtain ⟨s₀, run, same⟩ := ih earlier
      by_cases own : act.batch = A
      · obtain ⟨s₀', step₀, same'⟩ := next.alone own same now
          (expected_of_alone run fun act inside => (mem_partOf.mp inside).2)
        refine ⟨s₀', ?_, same'⟩
        rw [partOf_snoc_of_eq own]
        exact run.snoc step₀
      · refine ⟨s₀, ?_, same.trans (next.batches_of_ne own).symm⟩
        rw [partOf_snoc_of_ne own]
        exact run

/-- **A search is independent if and only if the strings agree** wherever a result of
it is judged. -/
theorem independent_iff {past : List (Process ι Handler × Act ι Handler)}
    (trace : Trace (Step request cast) Started past s) :
    Independent request cast A past s ↔ EveryStep (Agrees request A) past :=
  ⟨fun independent => independent.everyStep trace, independent_of_everyStep trace⟩

/-! ### Searches with one callable -/

/-- A step of a callable that is a leaf. -/
def MemberStep (cast : DecryptionResult → String) (expected : List Byte) (m : Member Handler)
    (deed : Deed Handler ArgType DecryptionResult) (m' : Member Handler) : Prop :=
  ∃ escapes, m.callable.Step cast [] deed escapes m'.callable ∧
    Allowed expected m.generator deed m'.generator

/-- The only callable of a batch takes steps. -/
theorem exists_trace {m m' : Member Handler} {deeds : List (Deed Handler ArgType DecryptionResult)}
    {past : List (Process ι Handler × Act ι Handler)}
    (trace : Trace (Step request cast) Started past s)
    (path : Path (MemberStep cast s.expected) m deeds m') (there : s.batches A = some [m]) :
    ∃ later s', Trace (Step request cast) Started later s' ∧ s'.batches A = some [m'] ∧
      later.map Prod.snd = past.map Prod.snd ++ deeds.map (.step A 0 []) := by
  generalize same : s.expected = expected at path
  induction path generalizing s past with
  | done m => exact ⟨past, s, trace, there, (List.append_nil _).symm⟩
  | cons next _ ih =>
      obtain ⟨escapes, own, allowed⟩ := next
      subst same
      obtain ⟨later, s', trace', there', same⟩ :=
        ih (trace.snoc (.step A 0 [] there rfl own allowed)) (Function.update_self _ _ _) rfl
      refine ⟨later, s', trace', there', ?_⟩
      rw [same, List.map_append, List.append_assoc]
      rfl

end Process

end Processes

/-! ## A lost hit -/

section Example

/-- A search for a text with the key `0` alone. -/
def oneKey (encrypted expected : List Byte) : Request :=
  ⟨.mappedFunctions, 0, 0, 1, expected, encrypted⟩

/-- Two searches, for the letter `A` and for the letter `B`. -/
def twoLetters (encrypted : List Byte) (second : Bool) : Request :=
  oneKey encrypted (if second then [0x42] else [0x41])

theorem prepare_oneKey (encrypted expected : List Byte) :
    (oneKey encrypted expected).prepare =
      .ok ⟨expected, [(.ofMappedFunctions (.make 0 0 0 encrypted) : Member Unit)]⟩ := by
  have prepared : prepareMappedFunctions 0 0 1 expected encrypted =
      .ok ⟨expected, [.make 0 0 0 encrypted]⟩ := rfl
  simp only [oneKey, Request.prepare, prepared]
  rfl

variable {cast : DecryptionResult → String} {encrypted : List Byte}

/-- The decryption of the ciphertext. -/
def letterA : DecryptionResult := ⟨[0x41], 0⟩

/-- The callable after `set_sig_handler`. -/
def handledMember (encrypted : List Byte) : Member Unit :=
  ⟨.leaf .mapCallable ⟨(Fields.make true).setSigHandler (some ()), .idle⟩,
    some (.make 0 0 0 encrypted)⟩

/-- The steps of the callable up to the result. -/
def tryKey (encrypted : List Byte) : List (Deed Unit ArgType DecryptionResult) :=
  [.leaf .mapCallable .idle .run, .leaf .mapCallable .test (.hasNext true),
    .leaf .mapCallable .fetch (.next (0, encrypted)),
    .leaf .mapCallable (.poll (0, encrypted)) (.checkNextSyncCall true),
    .leaf .mapCallable (.invoke (0, encrypted)) (.call (0, encrypted) letterA)]

/-- The steps when the result is rejected. -/
def missDeeds (encrypted : List Byte) : List (Deed Unit ArgType DecryptionResult) :=
  tryKey encrypted ++ [.leaf .mapCallable .judge (.resultChecker letterA false),
    .leaf .mapCallable .test (.hasNext false)]

/-- The steps when it is accepted. -/
def hitDeeds (encrypted : List Byte) : List (Deed Unit ArgType DecryptionResult) :=
  tryKey encrypted ++ [.leaf .mapCallable .judge (.resultChecker letterA true),
    .leaf .mapCallable .notify .handleSuccess]

/-- The fields after the only call. -/
def calledFields : Fields Unit DecryptionResult :=
  ((Fields.make true).setSigHandler (some ())).store letterA

/-- The callable after its only call, at a point. -/
def calledMember (encrypted : List Byte) (accepted : Bool) (point : Point ArgType) : Member Unit :=
  ⟨.leaf .mapCallable ⟨if accepted then calledFields.accept else calledFields, point⟩,
    some ⟨0, 1, 0, 0, encrypted⟩⟩

theorem memberStep_leaf {expected : List Byte} {st st' : State Unit ArgType DecryptionResult}
    {event : Event Unit ArgType DecryptionResult} {generator generator' : Option DecryptorSequence}
    (own : MapCallable.Step st event st')
    (allowed : Allowed expected generator (.leaf .mapCallable st.point event) generator') :
    Process.MemberStep cast expected ⟨.leaf .mapCallable st, generator⟩
      (.leaf .mapCallable st.point event) ⟨.leaf .mapCallable st', generator'⟩ :=
  ⟨_, .leaf .mapCallable own, allowed⟩

theorem path_tryKey {expected : List Byte} (decrypted : decryptWithKey 0 encrypted = .ok letterA) :
    Path (Process.MemberStep cast expected) (handledMember encrypted) (tryKey encrypted)
      (calledMember encrypted false .judge) :=
  .cons (memberStep_leaf (.run _ rfl) rfl)
    (.cons (memberStep_leaf (.more _) ⟨rfl, _, rfl, rfl⟩)
    (.cons (memberStep_leaf (.next _ (0, encrypted)) ⟨_, _, rfl, rfl, rfl⟩)
    (.cons (memberStep_leaf (.goOn _ (0, encrypted) () rfl) rfl)
    (.cons (memberStep_leaf (.call _ (0, encrypted) letterA) ⟨rfl, decrypted⟩) (.done _)))))

theorem path_miss {expected : List Byte} (decrypted : decryptWithKey 0 encrypted = .ok letterA)
    (other : success expected letterA = false) :
    Path (Process.MemberStep cast expected) (handledMember encrypted) (missDeeds encrypted)
      (calledMember encrypted false .idle) :=
  (path_tryKey decrypted).append
    (.cons (memberStep_leaf (.rejected _ letterA rfl) ⟨rfl, other⟩)
    (.cons (memberStep_leaf (.exhausted _) ⟨rfl, _, rfl, rfl⟩) (.done _)))

theorem path_hit {expected : List Byte} (decrypted : decryptWithKey 0 encrypted = .ok letterA)
    (own : success expected letterA = true) :
    Path (Process.MemberStep cast expected) (handledMember encrypted) (hitDeeds encrypted)
      (calledMember encrypted true .idle) :=
  (path_tryKey decrypted).append
    (.cons (memberStep_leaf (.accepted _ letterA rfl) ⟨rfl, own⟩)
    (.cons (memberStep_leaf (.handleSuccess _ () rfl) rfl) (.done _)))

theorem prepare_twoLetters (second : Bool) {s : Process Bool Unit}
    (first : s.batches second = none) :
    Process.Step (twoLetters encrypted) cast s (.prepare second)
      ⟨(twoLetters encrypted second).expected, Function.update s.batches second
        (some [.ofMappedFunctions (.make 0 0 0 encrypted)])⟩ := by
  have made : (twoLetters encrypted second).prepare = .ok ⟨(twoLetters encrypted second).expected,
      [(.ofMappedFunctions (.make 0 0 0 encrypted) : Member Unit)]⟩ := prepare_oneKey encrypted _
  exact .prepare second first made

theorem handle_twoLetters {s : Process Bool Unit}
    (there : s.batches false = some [.ofMappedFunctions (.make 0 0 0 encrypted)]) :
    Process.Step (twoLetters encrypted) cast s (.setSigHandler false 0 ())
      ⟨s.expected, Function.update s.batches false (some [handledMember encrypted])⟩ :=
  .setSigHandler false 0 () there rfl rfl

/-- The search for the letter `A` alone. -/
theorem trace_alone (cast : DecryptionResult → String)
    (decrypted : decryptWithKey 0 encrypted = .ok letterA) :
    ∃ past s, Trace (Process.Step (twoLetters encrypted) cast) Process.Started past s ∧
      s.batches false = some [calledMember encrypted true .idle] ∧
      past.map Prod.snd = [.prepare false, .setSigHandler false 0 ()] ++
        (hitDeeds encrypted).map (.step false 0 []) := by
  have start : Trace (Process.Step (twoLetters encrypted) cast) Process.Started []
      (⟨[], fun _ => none⟩ : Process Bool Unit) := .start rfl
  have handled := (start.snoc (prepare_twoLetters false rfl)).snoc (handle_twoLetters rfl)
  exact Process.exists_trace handled (path_hit decrypted rfl) rfl

/-- The same search when the other one has been prepared before. -/
theorem trace_last (cast : DecryptionResult → String)
    (decrypted : decryptWithKey 0 encrypted = .ok letterA) :
    ∃ past s, Trace (Process.Step (twoLetters encrypted) cast) Process.Started past s ∧
      s.batches false = some [calledMember encrypted true .idle] ∧
      past.map Prod.snd = [.prepare true, .prepare false, .setSigHandler false 0 ()] ++
        (hitDeeds encrypted).map (.step false 0 []) := by
  have start : Trace (Process.Step (twoLetters encrypted) cast) Process.Started []
      (⟨[], fun _ => none⟩ : Process Bool Unit) := .start rfl
  have handled := ((start.snoc (prepare_twoLetters true rfl)).snoc
    (prepare_twoLetters false rfl)).snoc (handle_twoLetters rfl)
  exact Process.exists_trace handled (path_hit decrypted rfl) rfl

/-- The same search after the other one has been prepared. -/
theorem trace_both (cast : DecryptionResult → String)
    (decrypted : decryptWithKey 0 encrypted = .ok letterA) :
    ∃ past s, Trace (Process.Step (twoLetters encrypted) cast) Process.Started past s ∧
      s.batches false = some [calledMember encrypted false .idle] ∧
      past.map Prod.snd = [.prepare false, .prepare true, .setSigHandler false 0 ()] ++
        (missDeeds encrypted).map (.step false 0 []) := by
  have start : Trace (Process.Step (twoLetters encrypted) cast) Process.Started []
      (⟨[], fun _ => none⟩ : Process Bool Unit) := .start rfl
  have handled := ((start.snoc (prepare_twoLetters false rfl)).snoc
    (prepare_twoLetters true rfl)).snoc (handle_twoLetters rfl)
  exact Process.exists_trace handled (path_miss decrypted rfl) rfl

/-- The letter `A`, encrypted with the key `0`. -/
theorem exists_encrypted : ∃ encrypted, Encryptor.encrypt 0 [0x41] = .ok encrypted ∧
    decryptWithKey 0 encrypted = .ok letterA := by
  have fits : Encryptor.paddedLength [0x41] ≤ INT_MAX := by decide
  exact ⟨_, Encryptor.encrypt_eq_ciphertext 0 fits, Search.decryptWithKey_key
    ⟨0, 1, 0, [0x41], by decide, by decide, by decide, by decide, fits⟩⟩

/-- **A hit is lost.** The search for the letter `A` with its key finds it when it is
alone. When a search for the letter `B` is prepared before it is run, it rejects the
key, though it is asked to go on and tries the same key. -/
theorem hit_lost : ∃ encrypted : List Byte, Encryptor.encrypt 0 [0x41] = .ok encrypted ∧
    (∃ (past : List (Process Bool Unit × Act Bool Unit)) (s : Process Bool Unit) (m : Member Unit),
      Trace (Process.Step (twoLetters encrypted) fun _ => "") Process.Started past s ∧
      past.map Prod.snd = [.prepare false, .prepare true, .setSigHandler false 0 ()] ++
        (missDeeds encrypted).map (.step false 0 []) ∧
      s.batches false = some [m] ∧ m.callable.Idle ∧ m.callable.hasResult = false ∧
      ¬ Process.Independent (twoLetters encrypted) (fun _ => "") false past s) ∧
    ∃ (past : List (Process Bool Unit × Act Bool Unit)) (s : Process Bool Unit) (m : Member Unit),
      Trace (Process.Step (twoLetters encrypted) fun _ => "") Process.Started past s ∧
      past.map Prod.snd = [.prepare false, .setSigHandler false 0 ()] ++
        (hitDeeds encrypted).map (.step false 0 []) ∧
      s.batches false = some [m] ∧ m.callable.Idle ∧ m.callable.hasResult = true := by
  obtain ⟨encrypted, ciphered, decrypted⟩ := exists_encrypted
  obtain ⟨past, s, both, there, acts⟩ := trace_both (fun _ => "") decrypted
  obtain ⟨past', s', alone, there', acts'⟩ := trace_alone (fun _ => "") decrypted
  refine ⟨encrypted, ciphered, ⟨past, s, _, both, acts, there, rfl, rfl, ?_⟩,
    past', s', _, alone, acts', there', rfl, rfl⟩
  -- The part of the search would be judged by its own string.
  rintro ⟨_, run, _⟩
  have member : Act.step false 0 [] (.leaf .mapCallable .judge (.resultChecker letterA false)) ∈
      Process.partOf false past := by
    rw [Process.partOf, acts]
    exact List.mem_filter.mpr ⟨List.mem_append_right _
      (List.mem_map_of_mem (List.mem_of_getElem? (i := 5) rfl)), rfl⟩
  have judged : success [0x41] letterA = false :=
    Process.answer_of_alone run (fun act inside => (Process.mem_partOf.mp inside).2) member
  cases judged

/-- The part of a search that is prepared last is independent, and all answers are those
for its own string. -/
theorem independent_iff_last : ∃ (encrypted : List Byte)
    (past : List (Process Bool Unit × Act Bool Unit)) (s : Process Bool Unit),
    Trace (Process.Step (twoLetters encrypted) fun _ => "") Process.Started past s ∧
      .prepare true ∈ past.map Prod.snd ∧
      .step false 0 [] (.leaf .mapCallable .judge (.resultChecker letterA true)) ∈
        past.map Prod.snd ∧
      EveryStep (Process.Agrees (twoLetters encrypted) false) past := by
  obtain ⟨encrypted, _, decrypted⟩ := exists_encrypted
  obtain ⟨past, s, trace, there, acts⟩ := trace_last (fun _ => "") decrypted
  obtain ⟨past', s', alone, there', acts'⟩ := trace_alone (fun _ => "") decrypted
  have own : Process.partOf false past = past'.map Prod.snd := by
    rw [Process.partOf, acts, acts']
    rfl
  refine ⟨encrypted, past, s, trace, ?_, ?_, ?_⟩
  · rw [acts]
    exact List.mem_cons_self
  · rw [acts]
    exact List.mem_append_right _ (List.mem_map_of_mem (List.mem_of_getElem? (i := 5) rfl))
  · exact (Process.independent_iff trace).mp ⟨s', own ▸ alone.run, there'.trans there.symm⟩

end Example

end ParallelLabs.Decryptor
