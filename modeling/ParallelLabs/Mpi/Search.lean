import ParallelLabs.Mpi.Progress

/-!
# What the ranks print

`run` of `MPIParallelRunner` on the workers of `prepare_mapped_functions`, with the lines
that each rank prints between one callable and the next. Every run of the ranks ends, and
when the loops are over every rank has printed the lines of its callables in their order
(`mpi_search`). A callable has printed the first accepted key of its stretch, or nothing;
then its generator had yielded one tuple, and it was stopped before it called the function
for the first time, so that it has stored no value. At least one line is there.
-/

set_option autoImplicit false

namespace ParallelLabs.Mpi

open Library Twofish Callables Decryptor Runners

/-! ## The lines of a rank -/

/-- The ranks, and the lines that each has printed. -/
structure Output (Object : Type) where
  world : World Object
  printed : Nat → List (List Byte)

/-- The line of a callable, if it has a result. -/
def rankLines (r : Nat) (result : Option (List Byte)) : List (List Byte) :=
  result.toList.map (Kind.thread.line (innerUid r) 0)

section Lines

variable {Object : Type} (size count : Nat) (callables : Nat → AbstractCallable Object)
  (report : Object → Option (List Byte))

/-- The steps of the ranks. When `run` of a callable has returned, its result is printed. -/
inductive Output.Step (o : Output Object) : Event → Output Object → Prop where
  | moves {event : Event} {w : World Object}
      (own : World.Step size count callables o.world event w)
      (inside : ∀ r, event ≠ .returns r) : Output.Step o event ⟨w, o.printed⟩
  | returns (r : Nat) {w : World Object}
      (own : World.Step size count callables o.world (.returns r) w) :
      Output.Step o (.returns r) ⟨w, Function.update o.printed r
        (o.printed r ++ rankLines r (report (w.objects (o.world.ranks r).counter)))⟩

/-- Nothing is printed yet. -/
def Output.Started (o : Output Object) : Prop :=
  Mpi.Started callables o.world ∧ ∀ r, o.printed r = []

variable {size count callables report} {o o' : Output Object} {event : Event}
  {events : List Event}

theorem Output.Step.world (step : o.Step size count callables report event o') :
    World.Step size count callables o.world event o'.world := by
  cases step with
  | moves own inside => exact own
  | returns r own => exact own

/-- The ranks of a run with its lines. -/
theorem world_of_run (run : Run (Output.Step size count callables report)
      (Output.Started callables) events o) :
    Run (World.Step size count callables) (Started callables) events o.world := by
  have moves := run.component Output.world some (fun _ started => started.1)
    (fun _ _ _ step event' same => Option.some.inj same ▸ step.world) fun _ _ _ _ none => by
      cases none
  rwa [List.filterMap_some] at moves

/-- A step of the ranks is a step with the lines. -/
theorem exists_output {w : World Object}
    (step : World.Step size count callables o.world event w) :
    ∃ o', o.Step size count callables report event o' := by
  by_cases returns : ∃ r, event = .returns r
  · obtain ⟨r, rfl⟩ := returns
    exact ⟨_, .returns r step⟩
  · exact ⟨_, .moves step fun r same => returns ⟨r, same⟩⟩

/-- The numbers of a rank up to the next one. -/
theorem filter_range_step {c r : Nat} (own : c % size = r) (below : r < size)
    (more : c < count) :
    (List.range (min (c + size) count)).filter (· % size = r) =
      (List.range (min c count)).filter (· % size = r) ++ [c] := by
  obtain ⟨k, length⟩ := Nat.exists_eq_add_of_lt (show c < min (c + size) count by omega)
  rw [Nat.min_eq_left (Nat.le_of_lt more), length, Nat.add_assoc, List.range_add,
    List.filter_append, List.range_succ_eq_map, List.map_cons, Nat.add_zero,
    List.filter_cons_of_pos (by simpa using own)]
  congr 2
  rw [List.filter_eq_nil_iff]
  intro id member congruent
  obtain ⟨j, inside, rfl⟩ := List.mem_map.mp member
  obtain ⟨j, within, rfl⟩ := List.mem_map.mp inside
  have apart := Nat.sub_mod_eq_zero_of_mod_eq ((of_decide_eq_true congruent).trans own.symm)
  rw [Nat.add_sub_cancel_left] at apart
  have far := Nat.le_of_dvd (Nat.succ_pos j) (Nat.dvd_of_mod_eq_zero apart)
  have near := List.mem_range.mp within
  omega

/-- The loop of a rank moves on when a callable has returned, and only then. -/
theorem counter_of_step {w w' : World Object}
    (step : World.Step size count callables w event w') (inside : ∀ r, event ≠ .returns r)
    (r : Nat) : (w'.ranks r).counter = (w.ranks r).counter := by
  have kept : ∀ {r' : Nat} {rank : Rank}, w'.ranks = Function.update w.ranks r' rank →
      rank.counter = (w.ranks r').counter → (w'.ranks r).counter = (w.ranks r).counter := by
    intro r' rank ranks same
    rw [ranks]
    by_cases here : r = r'
    · subst here
      rw [Function.update_self, same]
    · rw [Function.update_of_ne here]
  cases step with
  | work => rfl
  | returns r => exact absurd rfl (inside r)
  | run | checkAgain | checkFirst | test | send | handleSuccess | deliver => exact kept rfl rfl

/-- **Every rank has printed the lines of the callables that have returned**, in their
order. -/
theorem printed_eq (run : Run (Output.Step size count callables report)
      (Output.Started callables) events o) {r : Nat} (below : r < size) :
    o.printed r = ((List.range (min (o.world.ranks r).counter count)).filter
      (· % size = r)).flatMap fun id => rankLines r (report (o.world.objects id)) := by
  induction run with
  | @start o started =>
      obtain ⟨⟨ranks, -⟩, printed⟩ := started
      have none : (List.range (min r count)).filter (· % size = r) = [] := by
        rw [List.filter_eq_nil_iff]
        intro id member congruent
        have before := List.mem_range.mp member
        have same := of_decide_eq_true congruent
        rw [Nat.mod_eq_of_lt (by omega)] at same
        omega
      rw [printed, ranks]
      simp only [none, List.flatMap_nil]
  | @snoc past o o' event run step ih =>
      have inv := worldInv_of_run (world_of_run run)
      have tidy := tidy_of_run (world_of_run run)
      -- The callables that have returned keep their results.
      have kept : ∀ id ∈ (List.range (min (o.world.ranks r).counter count)).filter
          (· % size = r), o'.world.objects id = o.world.objects id := by
        intro id member
        obtain ⟨before, own⟩ := List.mem_filter.mp member
        have before := List.mem_range.mp before
        have own := of_decide_eq_true own
        rw [← slot_object size, ← slot_object size]
        refine congrArg Slot.object (step.world.slot_of_ne inv ?_)
        rintro rfl
        obtain rfl : event.rank = r := by
          rw [← (inv.ranks event.rank step.world.rank_lt).counter, own]
        omega
      -- What was printed before, with the results as they are now.
      have earlier : o.printed r = ((List.range (min (o.world.ranks r).counter count)).filter
          (· % size = r)).flatMap fun id => rankLines r (report (o'.world.objects id)) := by
        rw [ih]
        exact List.flatMap_congr fun id member => by rw [kept id member]
      cases step with
      | moves own inside =>
          show o.printed r = _
          rw [counter_of_step own inside, earlier]
      | @returns r' w own =>
          by_cases same : r = r'
          · subst same
            have counter : (w.ranks r).counter = (o.world.ranks r).counter + size ∧
                (o.world.ranks r).counter < count := by
              cases own with
              | returns _ _ running _ =>
                  exact ⟨by simp [World.setRank], tidy.more r below running.1.1⟩
            show Function.update o.printed r _ r = _
            rw [Function.update_self, counter.1,
              filter_range_step (inv.ranks r below).counter below counter.2,
              List.flatMap_append, earlier, List.flatMap_singleton]
          · show Function.update o.printed r' _ r = _
            have counter : (w.ranks r).counter = (o.world.ranks r).counter :=
              congrArg Rank.counter (own.elsewhere inv same).1
            rw [Function.update_of_ne same, counter, earlier]

end Lines

/-! ## The search -/

section Search

variable {search : Search} {size : Nat} {prepared : Prepared DecryptorSequence}
  {events : List Event} {w : World (Decryptor.Worker Unit)}

/-- **What the callables report** when the loops are over. -/
theorem reports_of_run
    (prepare : prepareMappedFunctions 0 search.rangeEnd search.numThreads search.message
      search.encrypted = .ok prepared) (ranks : 0 < size)
    (run : Run (World.Step size search.numThreads.toNat (rankCallable prepared))
      (Started (rankCallable prepared)) events w)
    (ended : ∀ r < size, search.numThreads.toNat ≤ (w.ranks r).counter) :
    (∀ i : Fin search.numThreads.toNat,
      report (w.objects i) = (search.firstHit i).map DecryptionResult.toString ∨
        report (w.objects i) = none ∧ (w.objects i).seq.j = 1 ∧
          (w.objects i).state.fields.result = none) ∧
      ∃ i : Fin search.numThreads.toNat, report (w.objects i) ≠ none := by
  obtain ⟨past', s, run', related⟩ := (mpiSimulation prepare).exists_run run
  have inv := Search.systemInv_of_run search prepare run'
  have slot : ∀ i : Fin search.numThreads.toNat,
      w.slot size i = ⟨.returned, w.objects i, (w.interrupters i).calls, false, 0⟩ := fun i =>
    slot_returned rfl (i.isLt.trans_le (ended _ (Nat.mod_lt _ ranks)))
  have seen : ∀ i : Fin search.numThreads.toNat, s.workers i = w.objects i := by
    intro i
    rw [related.workers]
    dsimp only
    rw [slot]
    rfl
  have idle : ∀ i : Fin search.numThreads.toNat, (s.workers i).state.point = .idle := by
    intro i
    have form := related.forms i
    rw [slot] at form
    rw [seen]
    exact form.1
  constructor
  · intro i
    have reported := Search.getResult_of_inv (inv.workers i)
      (Search.firstInv_of_run search prepare run' i) (idle i)
    rw [seen] at reported
    rcases reported with found | ⟨stopped, nothing⟩
    · exact .inl (congrArg (Option.map DecryptionResult.toString) found)
    · have refused := related.stopped i stopped
      rw [slot] at refused
      refine .inr ⟨congrArg (Option.map DecryptionResult.toString) nothing, refused.2.2, ?_⟩
      have untried := Search.untried_of_run (Search.fresh_of_prepareMapped search prepare) run' i
      rw [Search.UntriedInv, idle i, seen] at untried
      cases flag : (w.objects i).state.fields.hasResultFlag with
      | false => exact untried stopped flag refused.2.2
      | true =>
          obtain ⟨finished, -, value, stored, -⟩ :=
            (inv.workers i).found (idle i) (by rw [seen]; exact flag)
          rw [seen] at finished stored
          rw [Fields.getResult, finished, flag, stored] at nothing
          cases nothing
  · obtain ⟨i, flag⟩ := inv.exists_flag idle
    obtain ⟨finished, -, value, stored, -⟩ := (inv.workers i).found (idle i) flag
    rw [seen] at finished flag stored
    refine ⟨i, ?_⟩
    rw [report, Fields.getResult, finished, flag]
    simp [stored]

end Search

/-- **The ranks end with a key.** Every run of the ranks has a bounded number of steps, and
goes on until the loops are over and all stops are delivered. Then every rank has printed
the lines of its callables, one after the other. A callable has reported the first accepted
key of its stretch, or it was stopped before it tried a key: its generator has yielded one
tuple, and no call of the function has stored a value. At least one has reported a key. -/
theorem mpi_search (search : Search) {size : Nat} (ranks : 0 < size)
    {prepared : Prepared DecryptorSequence}
    (prepare : prepareMappedFunctions 0 search.rangeEnd search.numThreads search.message
      search.encrypted = .ok prepared)
    {events : List Event} {o : Output (Decryptor.Worker Unit)}
    (run : Run (Output.Step size search.numThreads.toNat (rankCallable prepared) report)
      (Output.Started (rankCallable prepared)) events o) :
    events.length ≤ search.numThreads.toNat * ((2 * size + 1) * search.fullWeight + 2) ∧
      ((∃ r < size, (o.world.ranks r).counter < search.numThreads.toNat ∨
          o.world.inFlight r ≠ []) →
        ∃ event o', o.Step size search.numThreads.toNat (rankCallable prepared) report event o') ∧
      ((∀ r < size, search.numThreads.toNat ≤ (o.world.ranks r).counter) →
        (∀ r < size, o.printed r =
          ((List.range search.numThreads.toNat).filter (· % size = r)).flatMap
            fun i => rankLines r (report (o.world.objects i))) ∧
        (∀ i : Fin search.numThreads.toNat,
          report (o.world.objects i) = (search.firstHit i).map DecryptionResult.toString ∨
            report (o.world.objects i) = none ∧ (o.world.objects i).seq.j = 1 ∧
              (o.world.objects i).state.fields.result = none) ∧
        ∃ i : Fin search.numThreads.toNat, report (o.world.objects i) ≠ none) := by
  have moves := world_of_run run
  refine ⟨length_le_of_ranks prepare moves, ?_, fun ended => ⟨fun r below => ?_, ?_⟩⟩
  · rintro ⟨r, below, more | waiting⟩
    · obtain ⟨event, w, step⟩ := exists_step_of_more prepare moves below more
      exact ⟨event, exists_output step⟩
    · obtain ⟨message, sent⟩ := List.exists_mem_of_ne_nil _ waiting
      exact ⟨_, exists_output (.deliver r below sent)⟩
  · rw [printed_eq run below, Nat.min_eq_right (ended r below)]
  · exact reports_of_run prepare ranks moves ended

/-- The search of `main` on three ranks, run to its end. -/
theorem mpi_search_main :
    ∃ (prepared : Prepared DecryptorSequence) (events : List Event)
      (o : Output (Decryptor.Worker Unit)),
      Run (Output.Step 3 5 (rankCallable prepared) report)
        (Output.Started (rankCallable prepared)) events o ∧
      (∀ r < 3, 5 ≤ (o.world.ranks r).counter) ∧
      ∃ i : Fin 5, report (o.world.objects i) ≠ none := by
  obtain ⟨prepared, s, prepare, _, workers⟩ := Search.exists_entered mainSearch ()
  let fresh : State Unit ArgType DecryptionResult :=
    ⟨(Fields.make true).setSigHandler (some ()), .idle⟩
  let first : Output (Decryptor.Worker Unit) :=
    ⟨⟨fun r => ⟨r, false, none, 0, .empty, [], []⟩,
      fun id => ⟨fresh, (prepared.workers[id]?).getD (.make 0 0 0 [])⟩,
      fun _ => .make, fun _ => [], []⟩, fun _ => []⟩
  have started : first.Started (rankCallable prepared) := by
    refine ⟨⟨fun _ => rfl, fun id => ⟨rfl, fun seq own => ?_⟩, fun _ => rfl, fun _ => rfl, rfl⟩,
      fun _ => rfl⟩
    show (prepared.workers[id]?).getD _ = seq
    rw [own]
    rfl
  have decreasing : Decreasing
      (Output.Step 3 mainSearch.numThreads.toNat (rankCallable prepared) report)
      (Output.Started (rankCallable prepared)) fun o => ranksMeasure mainSearch 3 o.world :=
    fun _ _ _ _ run step => decreasing_ranks prepare (world_of_run run) step.world
  obtain ⟨later, o, -, run, stuck⟩ := (Run.start started).exists_stuck decreasing
  obtain ⟨-, moves, reports⟩ := mpi_search mainSearch (Nat.succ_pos 2) prepare run
  have ended : ∀ r < 3, 5 ≤ (o.world.ranks r).counter := by
    intro r below
    by_contra more
    obtain ⟨event, o', step⟩ := moves ⟨r, below, .inl (Nat.lt_of_not_le more)⟩
    exact stuck event o' step
  exact ⟨prepared, _, o, run, ended, (reports ended).2.2⟩

end ParallelLabs.Mpi
