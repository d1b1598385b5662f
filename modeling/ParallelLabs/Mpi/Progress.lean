import ParallelLabs.Mpi.Simulation

/-!
# The ranks come to an end

Every step of the ranks brings the search or the loops forward, or it takes a stop off its
way. A check that has been called returns, a stop that was sent is delivered, and the
`size` sends of a success are made one after the other (`decreasing_ranks`). Nothing waits
for another rank: as long as a callable is left, its rank can go on (`exists_step_of_more`).
-/

set_option autoImplicit false

namespace ParallelLabs.Mpi

open Library Callables Decryptor

/-! ## The stops on their way -/

section Flying

variable {Object : Type} {size count : Nat} {callables : Nat → AbstractCallable Object}
  {w w' : World Object} {event : Event}

/-- The stops on their way. -/
def World.flying (size : Nat) (w : World Object) : Nat :=
  ∑ t : Fin size, (w.inFlight t).length

theorem sum_length_update (inFlight : Nat → List String) {t : Nat} (below : t < size)
    (messages : List String) :
    ∑ t' : Fin size, (Function.update inFlight t messages t').length + (inFlight t).length =
      ∑ t' : Fin size, (inFlight t').length + messages.length := by
  have changed := sum_add_of_ne (fun t' : Fin size => (inFlight t').length)
    (fun t' : Fin size => (Function.update inFlight t messages t').length) ⟨t, below⟩
    fun t' other => by rw [Function.update_of_ne fun same => other (Fin.ext same)]
  rwa [Function.update_self] at changed

/-- A send puts one stop on its way, and a delivery takes one away. -/
theorem flying_of_step (step : World.Step size count callables w event w') :
    ((∀ r, event ≠ .send r) → w'.flying size ≤ w.flying size) ∧
      w'.flying size ≤ w.flying size + 1 ∧
      ((∃ r message, event = .deliver r message) → w'.flying size < w.flying size) := by
  cases step with
  | run | work | checkAgain | checkFirst | test | handleSuccess | returns =>
      exact ⟨fun _ => Nat.le_refl _, Nat.le_succ _, fun ⟨_, _, same⟩ => by cases same⟩
  | send r below inside own next =>
      have sum := sum_length_update w.inFlight next (w.inFlight (w.ranks r).sent ++ [stop])
      rw [List.length_append, List.length_singleton] at sum
      refine ⟨fun quiet => absurd rfl (quiet r), ?_, fun ⟨_, _, same⟩ => by cases same⟩
      show ∑ t : Fin size, (Function.update w.inFlight _ _ t).length ≤ _
      rw [World.flying]
      omega
  | @deliver r message below sent =>
      have sum := sum_length_update w.inFlight below ((w.inFlight r).erase message)
      rw [List.length_erase_of_mem sent] at sum
      have some : 0 < (w.inFlight r).length := List.length_pos_of_mem sent
      have less : (w.deliver r message).flying size < w.flying size := by
        show ∑ t : Fin size, (Function.update w.inFlight r _ t).length < _
        rw [World.flying]
        omega
      exact ⟨fun _ => less.le, less.le.trans (Nat.le_succ _), fun _ => less⟩

end Flying

/-! ## The steps of the loops -/

/-- The steps that a callable still causes besides those of the search. -/
def slotRest (size : Nat) (slot : SearchSlot) : Nat :=
  match slot.turn with
  | .waiting => 2
  | .inside =>
    if 0 < slot.sent then 2 * (size - slot.sent) + 2
    else match slot.object.state.point with
      | .poll _ => if slot.checking then 1 else 2
      | _ => 1
  | .returned => 0

section Rest

variable (size k : Nat) {sent : Nat} {o : Decryptor.Worker Unit}

theorem slotRest_sending (o : Decryptor.Worker Unit) (some : 0 < sent) :
    slotRest size ⟨.inside, o, k, false, sent⟩ = 2 * (size - sent) + 2 := by
  simp [slotRest, some]

theorem slotRest_of_check (checking : Bool) (atCheck : AtCheck o.state.point) :
    slotRest size ⟨.inside, o, k, checking, 0⟩ = if checking then 1 else 2 := by
  obtain ⟨args, poll⟩ := atCheck
  simp [slotRest, poll]

theorem slotRest_of_not (checking : Bool) (other : ¬ AtCheck o.state.point) :
    slotRest size ⟨.inside, o, k, checking, 0⟩ = 1 := by
  have noPoll : ∀ args, o.state.point ≠ .poll args := fun args same => other ⟨args, same⟩
  rw [slotRest]
  cases here : o.state.point with
  | poll args => exact absurd here (noPoll args)
  | idle | test | fetch | invoke | judge | notify => simp

theorem slotRest_le_two (o : Decryptor.Worker Unit) :
    1 ≤ slotRest size ⟨.inside, o, k, false, 0⟩ ∧ slotRest size ⟨.inside, o, k, false, 0⟩ ≤ 2 := by
  by_cases atCheck : AtCheck o.state.point
  · rw [slotRest_of_check size k false atCheck]
    decide
  · rw [slotRest_of_not size k false atCheck]
    decide

variable {size} {prepared : Prepared DecryptorSequence} {i : Nat} {slot slot' : SearchSlot}
  {move : Move}

/-- **What a move costs.** A move that the search does not see pays for the stop that it
sends; one that it sees leaves a bounded number of others. -/
theorem slotRest_step (form : SlotForm slot) (ranks : 0 < size)
    (step : Slot.Step size (rankCallable prepared i) slot move slot') :
    (move.seen slot.sent = false →
        slotRest size slot' + (if move = .send then 1 else 0) < slotRest size slot) ∧
      slotRest size slot' + (if move = .send then 1 else 0) ≤ slotRest size slot + 2 * size := by
  cases step with
  | @run o o' k own =>
      have other : ¬ AtCheck o'.state.point :=
        not_atCheck_of_ne (congrArg State.point (run_cases own.1)) nofun
      have after := slotRest_of_not size k false other
      have before : slotRest size ⟨.waiting, o, k, false, 0⟩ = 2 := rfl
      simp only [reduceCtorEq, if_false]
      omega
  | @work o o' k own =>
      obtain ⟨-, few⟩ := slotRest_le_two size k o'
      obtain ⟨some, -⟩ := slotRest_le_two size k o
      refine ⟨nofun, ?_⟩
      simp only [reduceCtorEq, if_false]
      omega
  | @check o k own =>
      obtain ⟨answer, o', moved, -⟩ := own
      have atCheck : AtCheck o.state.point := poll_of_check moved
      have before := slotRest_of_check size k false atCheck
      have after := slotRest_of_check size (k + 1) true atCheck
      simp only [reduceCtorEq, if_false, if_true, Bool.false_eq_true] at before after ⊢
      omega
  | @test o o' k sent answer own =>
      obtain rfl := sent_of_checking form
      have before := slotRest_of_check size k true
        (poll_of_check own.1)
      have after := slotRest_of_not size k false
        (not_atCheck_of_check own.1).1
      refine ⟨nofun, ?_⟩
      simp only [reduceCtorEq, if_false, if_true] at before ⊢
      omega
  | @send o k sent own next =>
      obtain ⟨o', moved, -⟩ := own
      have notify := (notify_of_handleSuccess moved).1
      have after : slotRest size ⟨.inside, o, k, false, sent + 1⟩ = 2 * (size - (sent + 1)) + 2 :=
        slotRest_sending size k o (Nat.succ_pos sent)
      rcases Nat.eq_zero_or_pos sent with rfl | some
      · have before := slotRest_of_not size k false
          (not_atCheck_of_ne notify nofun)
        refine ⟨nofun, ?_⟩
        simp only [if_true]
        omega
      · have before := slotRest_sending size k o some
        simp only [if_true]
        omega
  | @handleSuccess o o' k own =>
      have before := slotRest_sending size k o ranks
      have after := slotRest_of_not size k false
        (not_atCheck_of_ne (congrArg State.point (notify_of_handleSuccess own.1).2) nofun)
      simp only [reduceCtorEq, if_false]
      omega
  | @returns o o' k own =>
      obtain ⟨some, few⟩ := slotRest_le_two size k o
      have after : slotRest size ⟨.returned, o', k, false, 0⟩ = 0 := rfl
      simp only [reduceCtorEq, if_false]
      omega

end Rest

section Ranks

variable {search : Search} {size : Nat} {prepared : Prepared DecryptorSequence}
  {past : List Event} {w : World (Decryptor.Worker Unit)}

/-- The measure of the ranks: the steps of the search, those of the loops, and the stops on
their way. -/
def ranksMeasure (search : Search) (size : Nat) (w : World (Decryptor.Worker Unit)) : Nat :=
  (2 * size + 1) * (∑ i : Fin search.numThreads.toNat, search.weight (searchSlot (w.slot size i))) +
    (∑ i : Fin search.numThreads.toNat, slotRest size (w.slot size i)) + w.flying size

theorem sum_slotRest_update (size : Nat) (slots : Nat → SearchSlot) {n : Nat} (i : Fin n)
    (slot : SearchSlot) :
    ∑ j : Fin n, slotRest size (Function.update slots i slot j) + slotRest size (slots i) =
      ∑ j : Fin n, slotRest size (slots j) + slotRest size slot := by
  have changed := sum_add_of_ne (fun j : Fin n => slotRest size (slots j))
    (fun j : Fin n => slotRest size (Function.update slots i slot j)) i
    fun j other => by rw [Function.update_of_ne fun same => other (Fin.ext same)]
  rwa [Function.update_self] at changed

section Runs

variable (prepare : prepareMappedFunctions 0 search.rangeEnd search.numThreads search.message
    search.encrypted = .ok prepared)

include prepare

/-- **Every step of the ranks decreases their measure.** -/
theorem decreasing_ranks :
    Decreasing (World.Step size search.numThreads.toNat (rankCallable prepared))
      (Started (rankCallable prepared)) (ranksMeasure search size) := by
  intro past w event w' run step
  obtain ⟨past', s, run', related⟩ := (mpiSimulation prepare).exists_run run
  obtain ⟨quiet, most, fewer⟩ := flying_of_step step
  rcases step.slot_cases (worldInv_of_run run) (tidy_of_run run) with
    ⟨delivered, same⟩ | ⟨r, move, slot', moved⟩
  · rw [ranksMeasure, ranksMeasure, same]
    exact Nat.add_lt_add_left (fewer delivered) _
  · obtain ⟨rfl, below, more, own, slots, heard⟩ := moved
    have ranks : 0 < size := Nat.zero_lt_of_lt below
    let i : Fin search.numThreads.toNat := ⟨(w.ranks r).counter, more⟩
    have slots : w'.slot size = Function.update (w.slot size) i slot' := slots
    obtain ⟨later, s', path, count, -, related'⟩ := related.step (i := i) (r := r) own ranks
      fun stopped => ⟨(heard stopped).1, sending_of_run run r (.inr (heard stopped).2)⟩
    have behind := (Search.decreasing_totalWeight prepare).length_add_le run' path
    rw [related.totalWeight, related'.totalWeight, count] at behind
    have flying : w'.flying size ≤ w.flying size + if move = .send then 1 else 0 := by
      split
      · exact most
      · refine quiet fun r' same => ?_
        cases move <;> cases same
        contradiction
    have rest := sum_slotRest_update size (w.slot size) i slot'
    obtain ⟨unseen, bounded⟩ := slotRest_step (related.forms i) ranks own
    rw [ranksMeasure, ranksMeasure, slots]
    cases sees : move.seen (w.slot size i).sent with
    | false =>
        have less := unseen sees
        rw [sees, Bool.toNat_false, Nat.zero_add] at behind
        have scaled := Nat.mul_le_mul_left (2 * size + 1) behind
        omega
    | true =>
        rw [sees, Bool.toNat_true] at behind
        have scaled := Nat.mul_le_mul_left (2 * size + 1) behind
        rw [Nat.mul_add, Nat.mul_one] at scaled
        omega

theorem ranksMeasure_of_started (started : Started (rankCallable prepared) w) :
    ranksMeasure search size w ≤
      search.numThreads.toNat * ((2 * size + 1) * search.fullWeight + 2) := by
  obtain ⟨s, entered, related⟩ := slotsRelated_of_started size prepare started
  have full := Search.totalWeight_le entered
  rw [related.totalWeight] at full
  have rest : ∑ i : Fin search.numThreads.toNat, slotRest size (w.slot size i) ≤
      search.numThreads.toNat * 2 := by
    refine sum_le_mul _ fun i => ?_
    obtain ⟨ranks, -⟩ := started
    have reached := Nat.not_lt.mpr (Nat.mod_le i.val size)
    simp [World.slot, ranks, slotRest, reached]
  have none : w.flying size = 0 := Finset.sum_eq_zero fun t _ => by
    rw [started.2.2.2.1]
    rfl
  rw [ranksMeasure, none, Nat.add_zero, Nat.mul_add]
  refine Nat.add_le_add ((Nat.mul_le_mul_left _ full).trans (le_of_eq ?_)) rest
  exact Nat.mul_left_comm _ _ _

/-- **The runs of the ranks have a bounded length.** -/
theorem length_le_of_ranks
    (run : Run (World.Step size search.numThreads.toNat (rankCallable prepared))
      (Started (rankCallable prepared)) past w) :
    past.length ≤ search.numThreads.toNat * ((2 * size + 1) * search.fullWeight + 2) := by
  obtain ⟨first, started, bound⟩ := run.length_add_le (decreasing_ranks prepare)
  exact (Nat.le_of_add_right_le bound).trans (ranksMeasure_of_started prepare started)

/-- **A rank with a callable left can go on**, whatever the others do. -/
theorem exists_step_of_more
    (run : Run (World.Step size search.numThreads.toNat (rankCallable prepared))
      (Started (rankCallable prepared)) past w) {r : Nat} (below : r < size)
    (more : (w.ranks r).counter < search.numThreads.toNat) :
    ∃ event w', World.Step size search.numThreads.toNat (rankCallable prepared) w event w' := by
  obtain ⟨past', s, run', related⟩ := (mpiSimulation prepare).exists_run run
  let i : Fin search.numThreads.toNat := ⟨(w.ranks r).counter, more⟩
  have congruent := ((worldInv_of_run run).ranks r below).counter
  have tidy := tidy_of_run run
  have form := related.forms i
  have own : search.WorkerInv s.notified i (searchSlot (w.slot size i)) :=
    related.worker i ▸ (Search.systemInv_of_run search prepare run').workers i
  obtain ⟨handler, handled⟩ := own.handled
  rw [fields_searchSlot, slot_object] at handled
  have notifies : (w.objects i).state.point = .notify →
      (rankCallable prepared i).Notifies (w.objects i) := fun notify =>
    show (searchCallable prepared i).Notifies (w.objects i) from
      notifies_of_notify notify handled
  cases entered : (w.ranks r).entered with
  | false =>
      rw [slot_waiting congruent rfl entered] at form
      have enters : (rankCallable prepared i).step (w.objects i) .run
          ⟨⟨(w.objects i).state.fields, .test⟩, (w.objects i).seq⟩ := by
        refine ⟨?_, rfl⟩
        rw [(slotForm_waiting.mp form).1]
        exact .run _ rfl
      exact ⟨_, _, .run r below more entered enters⟩
  | true =>
      rw [slot_inside congruent rfl entered] at form own
      cases checking : (w.ranks r).checking with
      | some deliveredBefore =>
          rw [checking] at form
          obtain ⟨args, poll⟩ := (slotForm_inside.mp form).1 rfl
          obtain ⟨object, moved⟩ : ∃ object, (searchCallable prepared i).step (w.objects i)
              (.checkNextSyncCall (w.current r).checkNextSyncCall) object :=
            check_of_poll poll handled _
          exact ⟨_, _, .test r below checking moved⟩
      | none =>
          have inside : (w.ranks r).Inside := ⟨entered, checking⟩
          rcases Nat.eq_zero_or_pos (w.ranks r).sent with unsent | some
          · rw [unsent] at own
            have running : (w.ranks r).Running := ⟨inside, unsent⟩
            rcases exists_act search prepare i.isLt own with
              idle | ⟨object, works⟩ | checks | told
            · exact ⟨_, _, .returns r below running ⟨idle, rfl⟩⟩
            · exact ⟨_, _, .work r below running works⟩
            · cases posted : (w.current r).responding with
              | true => exact ⟨_, _, .checkAgain r below running ⟨true, checks true⟩ posted⟩
              | false => exact ⟨_, _, .checkFirst r below running ⟨true, checks true⟩ posted⟩
            · exact ⟨_, _, .send r below inside told (unsent ▸ Nat.zero_lt_of_lt below)⟩
          · have notify := (slotForm_inside.mp form).2.1 some
            rcases Nat.lt_or_eq_of_le (tidy.sent r below) with next | all
            · exact ⟨_, _, .send r below inside (notifies notify) next⟩
            · obtain ⟨object, moved⟩ := notifies notify
              exact ⟨_, _, .handleSuccess r below inside all moved⟩

end Runs

end Ranks

end ParallelLabs.Mpi
