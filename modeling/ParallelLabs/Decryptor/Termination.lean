import ParallelLabs.Decryptor.FirstKey
import ParallelLabs.Library.Termination

/-!
# The search ends

Every step of a worker brings it closer to the end of its stretch (`weight`), so a
run of the search has a bounded number of steps, whatever the order of the workers
and the answers of their interrupters. A run that can go on no further is one in
which all workers have returned (`search_ends`).
-/

set_option autoImplicit false

namespace ParallelLabs.Decryptor

open Library Twofish Encryptor Callables

variable {Handler : Type}

namespace Search

variable (search : Search)

/-- A bound on the steps that a worker still takes. -/
def weight (w : Worker Handler) : Nat :=
  let left := search.step + 1 - w.seq.j.toNat
  match w.state.point with
  | .test => 5 * left + 1
  | .fetch => 5 * left
  | .poll _ => 5 * left + 4
  | .invoke _ => 5 * left + 3
  | .judge => 5 * left + 2
  | .notify => 1
  | .idle => 0

/-- The weight of a worker that has tried nothing. -/
def fullWeight : Nat := 5 * (search.step + 1) + 1

variable {search}

/-- **A step of a worker decreases its weight.** -/
theorem weight_lt {notified notified' : Bool} {i : Nat} {w : Worker Handler}
    {event : Event Handler ArgType DecryptionResult}
    {state : State Handler ArgType DecryptionResult} {seq : DecryptorSequence}
    (under : i < search.numThreads.toNat) (inv : search.WorkerInv notified i w)
    (own : MapCallable.Step w.state event state)
    (answers : Answers search.message notified w.state.point w.seq event seq notified') :
    search.weight ⟨state, seq⟩ < search.weight w := by
  obtain ⟨-, -, j, generator, point⟩ := inv
  obtain ⟨s, seq₀⟩ := w
  subst generator
  cases own with
  | run f set => cases answers
  | more f =>
      cases answers with
      | hasNext computed => exact Nat.lt_succ_self _
  | exhausted f =>
      cases answers with
      | hasNext computed => exact Nat.succ_pos _
  | next f args =>
      obtain ⟨unset, within, below, missed⟩ := point
      cases answers with
      | next computed =>
          have room := fits_of_within under (Nat.succ_le_succ within)
          rw [DecryptorSequence.next_natCast _ _ (by omega) (by omega), Except.ok.injEq,
            Prod.mk.injEq] at computed
          obtain ⟨rfl, rfl⟩ := computed
          simp only [weight, Int.toNat_natCast]
          omega
  | goOn f args handler set =>
      cases answers with
      | goOn => exact Nat.lt_succ_self _
  | stop f args handler set =>
      cases answers with
      | stop allowed => exact Nat.succ_pos _
  | call f args value =>
      cases answers with
      | call computed => exact Nat.lt_succ_self _
  | rejected f value stored =>
      cases answers with
      | resultChecker answered => exact Nat.lt_succ_self _
  | accepted f value stored =>
      cases answers with
      | resultChecker answered =>
          split
          · exact Nat.succ_lt_succ (Nat.succ_pos _)
          · exact Nat.lt_succ_self _
  | handleSuccess f handler set =>
      cases answers with
      | handleSuccess => exact Nat.lt_succ_self _
  | throws f p running =>
      cases answers with
      | checkThrows allowed polling =>
          subst polling
          exact Nat.succ_pos _
      | handleThrows notifying =>
          subst notifying
          exact Nat.lt_succ_self _

/-- The steps that the workers still take. -/
def totalWeight (s : System Handler search.numThreads.toNat) : Nat :=
  ∑ i, search.weight (s.workers i)

section Runs

variable {prepared : Prepared DecryptorSequence}
  (prepare : prepareMappedFunctions 0 search.rangeEnd search.numThreads search.message
    search.encrypted = .ok prepared)

include prepare

theorem decreasing_totalWeight :
    Decreasing (System.Step prepared.expected) (Entered prepared)
      fun s : System Handler search.numThreads.toNat => totalWeight s := by
  intro past s event t run step
  have inv := systemInv_of_run search prepare run
  rw [expected_of_prepareMapped search prepare] at step
  cases step with
  | worker i own answers =>
      exact sum_update_lt (fun _ w => search.weight w) s.workers i
        (weight_lt i.isLt (inv.workers i) own answers)

omit prepare in
theorem totalWeight_le {s : System Handler search.numThreads.toNat}
    (entered : Entered prepared s) :
    totalWeight s ≤ search.numThreads.toNat * search.fullWeight := by
  obtain ⟨_, workers⟩ := entered
  refine sum_le_mul _ fun i => ?_
  obtain ⟨⟨handler, state⟩, _⟩ := workers i
  rw [weight, state, fullWeight]
  dsimp only
  omega

/-- **A search that can go on no further is over.** -/
theorem idle_of_stuck {events : List (Fin search.numThreads.toNat × Event Handler ArgType
      DecryptionResult)} {s : System Handler search.numThreads.toNat}
    (run : Run (System.Step prepared.expected) (Entered prepared) events s)
    (stuck : ∀ event s', ¬ System.Step prepared.expected s event s')
    (i : Fin search.numThreads.toNat) : (s.workers i).state.point = .idle := by
  by_contra busy
  obtain ⟨event, s', step⟩ := (systemInv_of_run search prepare run).exists_step i busy
  rw [← expected_of_prepareMapped search prepare] at step
  exact stuck _ _ step

end Runs

/-- The workers can be prepared, and enter `run` with any handler. -/
theorem exists_entered (search : Search) (handler : Handler) :
    ∃ (prepared : Prepared DecryptorSequence) (s : System Handler search.numThreads.toNat),
      prepareMappedFunctions 0 search.rangeEnd search.numThreads search.message
        search.encrypted = .ok prepared ∧ Entered prepared s := by
  refine ⟨_, ⟨fun i => ⟨⟨(Fields.make true).setSigHandler (some handler), .test⟩,
      DecryptorSequence.make i.val search.step search.rangeEnd search.encrypted⟩, false⟩,
    prepareMappedFunctions_eq (Nat.zero_le _) search.threads (size_fits 0 search.fits) _ _, rfl,
    fun i => ⟨⟨handler, rfl⟩, ?_⟩⟩
  rw [List.getElem?_map, List.getElem?_range i.isLt, Option.map_some]
  rfl

/-- **Every search has a run to its end.** -/
theorem exists_finished (search : Search) (handler : Handler) :
    ∃ (prepared : Prepared DecryptorSequence)
      (events : List (Fin search.numThreads.toNat × Event Handler ArgType DecryptionResult))
      (final : System Handler search.numThreads.toNat),
      prepareMappedFunctions 0 search.rangeEnd search.numThreads search.message
        search.encrypted = .ok prepared ∧
        Run (System.Step prepared.expected) (Entered prepared) events final ∧
        ∀ i, (final.workers i).state.point = .idle := by
  obtain ⟨prepared, s, prepare, entered⟩ := exists_entered search handler
  obtain ⟨later, final, -, run, stuck⟩ :=
    (Run.start entered).exists_stuck (decreasing_totalWeight prepare)
  exact ⟨prepared, _, final, prepare, run, idle_of_stuck prepare run stuck⟩

/-- Two workers on the keys `0` and `1`, and the letter `A` encrypted with `1`. -/
def letterSearch : Search :=
  ⟨1, 2, 1, [0x41], by decide, by decide, by decide, by decide, by decide⟩

/-! ## What the workers report -/

/-- What a returned worker reports. -/
theorem getResult_of_inv {notified : Bool} {stopped : Prop} {i : Nat} {w : Worker Handler}
    (inv : search.WorkerInv notified i w) (first : search.FirstInv stopped i w)
    (idle : w.state.point = .idle) :
    w.state.fields.getResult = search.firstHit i ∨
      stopped ∧ w.state.fields.getResult = none := by
  obtain ⟨j, generator, -⟩ := inv.generator
  have point := first j (congrArg DecryptorSequence.j generator)
  rw [idle] at point
  cases flag : w.state.fields.hasResultFlag with
  | true =>
      have finished := (inv.found idle flag).1
      left
      rw [Fields.getResult, finished, flag, ← point.1 flag]
      rfl
  | false =>
      have nothing : w.state.fields.getResult = none := by
        rw [Fields.getResult, flag, Bool.and_false]
        rfl
      rw [nothing]
      rcases point.2 flag with stop | missed
      · exact .inr ⟨stop, rfl⟩
      · exact .inl missed.symm

end Search

/-- **The search ends**, after at most five steps for each key and worker, and every
worker has then returned. -/
theorem search_ends (search : Search) {prepared : Prepared DecryptorSequence}
    (prepare : prepareMappedFunctions 0 search.rangeEnd search.numThreads search.message
      search.encrypted = .ok prepared)
    {events : List (Fin search.numThreads.toNat × Event Handler ArgType DecryptionResult)}
    {s : System Handler search.numThreads.toNat}
    (run : Run (System.Step prepared.expected) (Entered prepared) events s) :
    events.length ≤ search.numThreads.toNat * search.fullWeight ∧
      ∃ later final, Path (System.Step prepared.expected) s later final ∧
        ∀ i, (final.workers i).state.point = .idle := by
  constructor
  · obtain ⟨first, entered, bound⟩ :=
      run.length_add_le (Search.decreasing_totalWeight prepare)
    exact (Nat.le_of_add_right_le bound).trans (Search.totalWeight_le entered)
  · obtain ⟨later, final, path, run', stuck⟩ :=
      run.exists_stuck (Search.decreasing_totalWeight prepare)
    exact ⟨later, final, path, Search.idle_of_stuck prepare run' stuck⟩

/-- The search for a letter. -/
theorem search_ends_letter :
    ∃ (expected : List Byte) (events : List (Fin 2 × Event Unit ArgType DecryptionResult))
      (s : System Unit 2), events.length ≤ 2 * Search.letterSearch.fullWeight ∧
        ∃ later final, Path (System.Step expected) s later final ∧
          ∀ i, (final.workers i).state.point = .idle := by
  obtain ⟨prepared, s, prepare, entered⟩ := Search.exists_entered Search.letterSearch ()
  exact ⟨prepared.expected, _, s, search_ends Search.letterSearch prepare (.start entered)⟩

/-- **A worker reports the first key of its stretch that it accepts**, in every run in
which it has returned and was not stopped. -/
theorem result_firstHit (search : Search) {prepared : Prepared DecryptorSequence}
    (prepare : prepareMappedFunctions 0 search.rangeEnd search.numThreads search.message
      search.encrypted = .ok prepared)
    {events : List (Fin search.numThreads.toNat × Event Handler ArgType DecryptionResult)}
    {final : System Handler search.numThreads.toNat}
    (run : Run (System.Step prepared.expected) (Entered prepared) events final)
    (i : Fin search.numThreads.toNat) (idle : (final.workers i).state.point = .idle) :
    (final.workers i).state.fields.getResult = search.firstHit i ∨
      Search.Stopped events i ∧ (final.workers i).state.fields.getResult = none :=
  Search.getResult_of_inv ((Search.systemInv_of_run search prepare run).workers i)
    (Search.firstInv_of_run search prepare run i) idle

/-- The two workers of the search for a letter. -/
theorem result_firstHit_letter :
    ∃ (events : List (Fin 2 × Event Unit ArgType DecryptionResult)) (final : System Unit 2),
      ∀ i : Fin 2, (final.workers i).state.fields.getResult = Search.letterSearch.firstHit i ∨
        Search.Stopped events i ∧ (final.workers i).state.fields.getResult = none := by
  obtain ⟨prepared, events, final, prepare, run, idle⟩ :=
    Search.exists_finished Search.letterSearch ()
  exact ⟨events, final, fun i => result_firstHit Search.letterSearch prepare run i (idle i)⟩

end ParallelLabs.Decryptor
