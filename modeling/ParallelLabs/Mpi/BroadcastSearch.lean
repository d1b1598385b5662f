import ParallelLabs.Mpi.BroadcastSlots
import ParallelLabs.Mpi.Progress

/-!
# The search on the ranks with the broadcast interrupter

A success on a rank other than 0 waits for a success on rank 0, the first for the first,
the second for the second, and so on. Nobody is ever told to stop. So every callable whose
`run` returns has the first accepted key of its stretch, and rank 0 gets through all of its
own. Another rank gets through if and only if it has no more callables with a key than
rank 0; otherwise it waits in `handle_success` for good, and the key that it has found
there is never reported (`broadcast_search`).
-/

set_option autoImplicit false

namespace ParallelLabs.Mpi.Broadcast

open Library Callables Decryptor

/-- The world of a search. -/
abbrev SearchWorld := World (Decryptor.Worker Unit)

/-! ## The search behind the ranks -/

section Simulates

variable {search : Search} {size n : Nat} {prepared : Prepared DecryptorSequence}
  {w w' : SearchWorld} {event : Event}

/-- The ranks and the search behind them, in which no worker is told to stop. -/
structure Related (past : List Event) (slots : Nat → SearchSlot)
    (past' : List (Fin n × SearchEvent)) (s : System Unit n) : Prop where
  slots : SlotsRelated (past.filterMap Event.own) slots past' s
  unstopped : ∀ i, ¬ Search.Stopped past' i

/-- **A step of the ranks is a step of the search or none.** -/
theorem Related.step {past : List Event} {past' : List (Fin n × SearchEvent)}
    {s : System Unit n} (related : Related past (w.slot size) past' s) (inv : WorldInv w)
    (tidy : w.Tidy size n)
    (step : World.Step size n (rankCallable prepared) w event w') :
    ∃ later t', Path (System.Step prepared.expected) s later t' ∧
      Related (past ++ [event]) (w'.slot size) (past' ++ later) t' := by
  rcases step.slot_cases inv tidy with ⟨⟨r, message, rfl⟩, same⟩ | ⟨r, move, slot', moved⟩
  · refine ⟨[], s, .done s, ?_, by rw [List.append_nil]; exact related.unstopped⟩
    rw [List.filterMap_append, same, List.append_nil]
    exact (List.append_nil (past.filterMap Event.own)).symm ▸ related.slots
  · obtain ⟨label, below, more, own, slots, goesOn⟩ := moved
    obtain ⟨later, t', path, -, calm, related'⟩ :=
      related.slots.step (i := ⟨(w.ranks r).counter, more⟩) (r := r) own Nat.one_pos
        fun stopped => absurd stopped goesOn
    refine ⟨later, t', path, ?_, fun i stop => ?_⟩
    · rw [List.filterMap_append, List.filterMap_cons_some label, List.filterMap_nil]
      exact slots ▸ related'
    · rcases Search.stopped_append.mp stop with earlier | now
      · exact related.unstopped i earlier
      · exact goesOn (calm i now)

/-- The callables of the ranks wait when the loops begin. -/
theorem related_of_started (size : Nat)
    (prepare : prepareMappedFunctions 0 search.rangeEnd search.numThreads search.message
      search.encrypted = .ok prepared) (started : Started (rankCallable prepared) w) :
    ∃ s : System Unit search.numThreads.toNat, Entered prepared s ∧
      Related [] (w.slot size) [] s := by
  obtain ⟨ranks, objects, interrupters, -⟩ := started
  have waiting : ∀ id, w.slot size id = ⟨.waiting, w.objects id, 0, false, 0⟩ := by
    intro id
    have reached := Nat.not_lt.mpr (Nat.mod_le id size)
    simp [World.slot, ranks, interrupters, reached, Interrupter.make]
  obtain ⟨s, entered, slots⟩ := slotsRelated_of_waiting prepare waiting objects
  exact ⟨s, entered, slots, Search.not_stopped_nil⟩

/-- **A run of the ranks is a run of the search.** -/
theorem broadcastSimulation
    (prepare : prepareMappedFunctions 0 search.rangeEnd search.numThreads search.message
      search.encrypted = .ok prepared) :
    Simulation (World.Step size search.numThreads.toNat (rankCallable prepared))
      (Started (rankCallable prepared)) (System.Step prepared.expected) (Entered prepared)
      fun past (w : SearchWorld) past' (s : System Unit search.numThreads.toNat) =>
        Related past (w.slot size) past' s where
  initially _ started := related_of_started size prepare started
  preserved _ _ _ _ _ _ run related step := related.step (.of_run run) (tidy_of_run run) step

end Simulates

/-! ## The calls of `broadcast` -/

/-- The callable has called `broadcast`. -/
def told (slot : SearchSlot) : Bool :=
  slot.object.state.fields.hasResultFlag &&
    (decide (0 < slot.sent) || decide (slot.object.state.point = .idle))

/-- How many callables of a rank have called `broadcast`. -/
def toldBy (n size r : Nat) (slots : Nat → SearchSlot) : Nat :=
  ∑ i : Fin n, if i.val % size = r ∧ told (slots i) = true then 1 else 0

section Told

variable {search : Search} {prepared : Prepared DecryptorSequence} {i n size r : Nat}
  {slot slot' : SearchSlot} {move : Move} {notified : Bool}

theorem told_of_unset (unset : slot.object.state.fields.hasResultFlag = false) :
    told slot = false := by
  rw [told, unset, Bool.false_and]

/-- A callable inside `run` that has not called yet. -/
theorem told_of_busy {o : Decryptor.Worker Unit} {turn : Turn} {k : Nat} {checking : Bool}
    (busy : o.state.point ≠ .idle) : told ⟨turn, o, k, checking, 0⟩ = false := by
  simp [told, busy]

/-- Work does not end with a success. -/
theorem told_of_work {o o' : Decryptor.Worker Unit} {own : SearchEvent} {k : Nat}
    (inv : search.WorkerInv notified i o) (unasked : ∀ answer, own ≠ .checkNextSyncCall answer)
    (moved : MapCallable.Step o.state own o'.state)
    (answers : Answers prepared.expected false o.state.point o.seq own o'.seq false) :
    told ⟨.inside, o', k, false, 0⟩ = false := by
  obtain ⟨⟨f', point'⟩, seq'⟩ := o'
  obtain ⟨⟨f, point⟩, seq⟩ := o
  obtain ⟨notifies, -, j, -, inv⟩ := inv
  cases moved with
  | run f set => cases answers
  | exhausted f => exact told_of_unset inv.1
  | accepted f value stored =>
      refine told_of_busy ?_
      have should : f.should_call_sighandler = true := notifies
      show (if f.should_call_sighandler = true then Point.notify else Point.test) ≠ .idle
      rw [if_pos should]
      intro same
      cases same
  | more | next | call | rejected => exact told_of_busy (by simp)
  | goOn f args handler set => exact absurd rfl (unasked true)
  | stop f args handler set => exact absurd rfl (unasked false)
  | handleSuccess f handler set => exact absurd rfl (answers_of_work unasked answers true).2.1
  | throws f point running => exact absurd rfl (answers_of_work unasked answers true).2.2

/-- **A callable calls `broadcast` once, when it has a key.** -/
theorem told_step (form : SlotForm slot) (inv : search.WorkerInv notified i (searchSlot slot))
    (step : Slot.Step 1 (rankCallable prepared i) slot move slot') (goesOn : move ≠ .test false) :
    (told slot').toNat = (told slot).toNat + if move = .send then 1 else 0 := by
  cases step with
  | @run o o' k own =>
      have fresh := (slotForm_waiting.mp form).1
      have entered : o'.state = ⟨o.state.fields, .test⟩ := run_cases own.1
      have unset : o.state.fields.hasResultFlag = false := by
        rw [fresh]
        rfl
      have before : told ⟨.waiting, o, k, false, 0⟩ = false := told_of_unset unset
      rw [before, told_of_busy (by rw [entered]; simp)]
      rfl
  | @work o o' k own =>
      obtain ⟨own, unasked, moved, answers⟩ := own
      have busy := (busy_of_work unasked moved answers).2.1
      rw [told_of_work inv unasked moved answers, told_of_busy busy]
      rfl
  | check own => rfl
  | @test o o' k sent answer own =>
      obtain rfl := sent_of_checking form
      obtain ⟨args, poll⟩ := poll_of_check own.1
      have going : o'.state.point ≠ .idle := by
        obtain ⟨moved, -⟩ := own
        generalize o.state = s at moved
        generalize o'.state = s' at moved
        cases moved with
        | goOn => simp
        | stop => exact absurd rfl goesOn
      rw [told_of_busy going, told_of_busy (by rw [poll]; simp)]
      rfl
  | @send o k sent own next =>
      obtain rfl : sent = 0 := Nat.lt_one_iff.mp next
      obtain ⟨o', moved, -⟩ := own
      have notify := (notify_of_handleSuccess moved).1
      obtain ⟨-, -, j, -, point⟩ := inv
      have flag : o.state.fields.hasResultFlag = true := by
        have point : search.PointInv notified i j o.state.fields o.state.point := point
        rw [notify] at point
        exact point.2.1
      rw [told_of_busy (by rw [notify]; simp)]
      simp [told, flag]
  | @handleSuccess o o' k own =>
      have left := (notify_of_handleSuccess own.1).2
      simp [told, left]
  | @returns o o' k own =>
      obtain ⟨idle, rfl⟩ := own
      rfl

/-- The calls of the ranks after a step of one callable. -/
theorem toldBy_update (slots : Nat → SearchSlot) (i : Fin n)
    (step : (told slot').toNat = (told (slots i)).toNat + if move = .send then 1 else 0) :
    toldBy n size r (Function.update slots i slot') =
      toldBy n size r slots + if i.val % size = r ∧ move = .send then 1 else 0 := by
  have changed := sum_add_of_ne
    (fun j : Fin n => if j.val % size = r ∧ told (slots j) = true then 1 else 0)
    (fun j : Fin n =>
      if j.val % size = r ∧ told (Function.update slots i slot' j) = true then 1 else 0) i
    fun j other => by rw [Function.update_of_ne fun same => other (Fin.ext same)]
  rw [Function.update_self] at changed
  rw [toldBy, toldBy]
  by_cases own : i.val % size = r
  · by_cases sends : move = .send
    · rw [if_pos sends] at step
      cases before : told (slots i) <;> cases after : told slot' <;> rw [before, after] at step <;>
        simp [own, sends, before, after] at step changed ⊢
      omega
    · rw [if_neg sends] at step
      have same : told slot' = told (slots i) := by
        cases before : told (slots i) <;> cases after : told slot' <;>
          simp [before, after] at step ⊢
      simp [own, sends, same] at changed ⊢
      omega
  · simp only [own, false_and, if_false, Nat.add_zero] at changed ⊢
    exact changed

end Told

/-! ## The strings of rank 0 -/

section Strings

variable {Object : Type} {size count : Nat} {callables : Nat → AbstractCallable Object}
  {w w' : World Object} {event : Event}

/-- **The strings of rank 0 and the calls of the others.** Every call of rank 0 sends a
string to each of them, and a call of theirs takes its own string. -/
structure World.Passed (size : Nat) (w : World Object) : Prop where
  delivered : ∀ r < size, r ≠ 0 →
    (w.ranks r).arrived.length + w.inFlight.countP (fun entry => entry.1 = r) = (w.ranks 0).calls
  taken : ∀ r, r ≠ 0 →
    (w.ranks r).calls ≤ (w.ranks r).arrived.length + (w.ranks r).broadcasting.toNat

/-- Only a call of `broadcast` counts. -/
theorem calls_of_step (step : World.Step size count callables w event w') (t : Nat) :
    (w'.ranks t).calls = (w.ranks t).calls + if event = .broadcast t then 1 else 0 := by
  have kept : ∀ {r : Nat} {rank : Rank}, rank.calls = (w.ranks r).calls →
      (Function.update w.ranks r rank t).calls = (w.ranks t).calls := by
    intro r rank same
    by_cases here : t = r
    · subst here
      rw [Function.update_self, same]
    · rw [Function.update_of_ne here]
  cases step with
  | run r | checkAgain r | checkFirst r | test r | handleSuccess r | returns r | deliver r =>
      exact kept rfl
  | work r => rfl
  | broadcast r below running own =>
      show (Function.update w.ranks r _ t).calls = _
      by_cases here : t = r
      · subst here
        rw [Function.update_self, if_pos rfl]
      · rw [Function.update_of_ne here, if_neg fun same => here (Event.broadcast.inj same).symm,
          Nat.add_zero]

/-- Rank 0 sends one string to each of the others. -/
theorem countP_sent {t : Nat} (other : t ≠ 0) (under : t < size) (text : String) :
    ((List.range' 1 (size - 1)).map fun other => (other, text)).countP
      (fun entry => entry.1 = t) = 1 := by
  have member : t ∈ List.range' 1 (size - 1) := by
    rw [List.mem_range'_1]
    omega
  have once : (List.range' 1 (size - 1)).count t = 1 :=
    List.count_eq_one_of_mem List.nodup_range' member
  rw [List.countP_map]
  refine Eq.trans (List.countP_congr fun other _ => ?_) once
  simp

/-- **A step keeps the account of the strings.** -/
theorem World.Passed.step (passed : w.Passed size)
    (step : World.Step size count callables w event w') : w'.Passed size := by
  -- A rank changes, and nothing is sent or delivered.
  have change : ∀ {r : Nat} {rank : Rank}, w'.ranks = Function.update w.ranks r rank →
      w'.inFlight = w.inFlight → rank.arrived = (w.ranks r).arrived →
      (∀ t, event ≠ .broadcast t) →
      (r ≠ 0 → rank.calls ≤ rank.arrived.length + rank.broadcasting.toNat) →
      w'.Passed size := by
    intro r rank ranks inFlight arrived quiet own
    have calls : ∀ t, (w'.ranks t).calls = (w.ranks t).calls := by
      intro t
      rw [calls_of_step step t, if_neg (quiet t), Nat.add_zero]
    have same : ∀ t, (w'.ranks t).arrived = (w.ranks t).arrived := by
      intro t
      rw [ranks]
      by_cases here : t = r
      · subst here
        rw [Function.update_self, arrived]
      · rw [Function.update_of_ne here]
    refine ⟨fun t below other => ?_, fun t other => ?_⟩
    · rw [same, inFlight, calls]
      exact passed.delivered t below other
    · by_cases here : t = r
      · subst here
        rw [ranks, Function.update_self]
        exact own other
      · rw [ranks, Function.update_of_ne here]
        exact passed.taken t other
  cases step with
  | run r below more outside own => exact change rfl rfl rfl (by simp) (passed.taken r)
  | work r below running own => exact ⟨passed.delivered, passed.taken⟩
  | checkAgain r below running own posted => exact change rfl rfl rfl (by simp) (passed.taken r)
  | checkFirst r below running own unposted => exact change rfl rfl rfl (by simp) (passed.taken r)
  | test r below called own => exact change rfl rfl rfl (by simp) (passed.taken r)
  | returns r below running own => exact change rfl rfl rfl (by simp) (passed.taken r)
  | @handleSuccess r buffer object below inside complete own =>
      refine change rfl rfl rfl (by simp) fun other => ?_
      rw [World.broadcastResult, if_neg other] at complete
      have there : (w.ranks r).calls - 1 < (w.ranks r).arrived.length :=
        (List.getElem?_eq_some_iff.mp complete).1
      show (w.ranks r).calls ≤ (w.ranks r).arrived.length + 0
      omega
  | broadcast r below running own =>
      have step : World.Step size count callables w (.broadcast r) (w.broadcast r size) :=
        .broadcast r below running own
      have arrived : ∀ t, ((w.broadcast r size).ranks t).arrived = (w.ranks t).arrived := by
        intro t
        show (Function.update w.ranks r _ t).arrived = _
        by_cases here : t = r
        · subst here
          rw [Function.update_self]
        · rw [Function.update_of_ne here]
      refine ⟨fun t under other => ?_, fun t other => ?_⟩
      · have before := passed.delivered t under other
        rw [arrived, calls_of_step step 0]
        by_cases root : r = 0
        · subst root
          have sent : (w.broadcast 0 size).inFlight =
              w.inFlight ++ (List.range' 1 (size - 1)).map fun other => (other, finished) := rfl
          rw [sent, if_pos rfl, List.countP_append, countP_sent other under]
          omega
        · have sent : (w.broadcast r size).inFlight = w.inFlight := if_neg root
          rw [sent, if_neg fun same => root (Event.broadcast.inj same), Nat.add_zero]
          exact before
      · have before := passed.taken t other
        show (Function.update w.ranks r _ t).calls ≤
          (Function.update w.ranks r _ t).arrived.length +
            (Function.update w.ranks r _ t).broadcasting.toNat
        by_cases here : t = r
        · subst here
          rw [running.2.2] at before
          rw [Function.update_self]
          exact Nat.succ_le_succ before
        · rw [Function.update_of_ne here]
          exact before
  | @deliver r message sent =>
      have rank : ∀ t, ((w.deliver r message).ranks t).calls = (w.ranks t).calls ∧
          ((w.deliver r message).ranks t).broadcasting = (w.ranks t).broadcasting := by
        intro t
        obtain ⟨arrived, same⟩ := deliver_ranks w r message t
        rw [same]
        exact ⟨rfl, rfl⟩
      have arrived : ∀ t, ((w.deliver r message).ranks t).arrived.length =
          (w.ranks t).arrived.length + if t = r then 1 else 0 := by
        intro t
        show (Function.update w.ranks r _ t).arrived.length = _
        by_cases here : t = r
        · subst here
          rw [Function.update_self, if_pos rfl]
          exact List.length_append
        · rw [Function.update_of_ne here, if_neg here, Nat.add_zero]
      refine ⟨fun t under other => ?_, fun t other => ?_⟩
      · have before := passed.delivered t under other
        rw [arrived, (rank 0).1, ← before]
        show _ + (w.inFlight.erase (r, message)).countP _ = _
        rw [List.countP_erase]
        by_cases here : t = r
        · subst here
          have some : 0 < w.inFlight.countP (fun entry => entry.1 = t) :=
            List.countP_pos_iff.mpr ⟨_, sent, by simp⟩
          simp [sent]
          omega
        · have apart : r ≠ t := fun same => here same.symm
          simp [here, apart]
      · have before := passed.taken t other
        rw [arrived, (rank t).1, (rank t).2]
        omega

theorem passed_of_run {events : List Event}
    (run : Run (World.Step size count callables) (Started callables) events w) :
    w.Passed size := by
  refine run.invariant (fun _ w => w.Passed size) (fun w started => ?_)
    fun _ _ _ _ passed step => passed.step step
  obtain ⟨ranks, -, -, inFlight, -⟩ := started
  refine ⟨fun r _ _ => ?_, fun r _ => ?_⟩
  · rw [ranks, ranks, inFlight]
    rfl
  · rw [ranks]
    exact Nat.le_refl 0

end Strings

/-! ## The runs of the ranks -/

/-- How many callables of a rank have a key. -/
def hits (search : Search) (size r : Nat) : Nat :=
  ∑ i : Fin search.numThreads.toNat,
    if i.val % size = r ∧ (search.firstHit i).isSome = true then 1 else 0

section Runs

variable {search : Search} {size : Nat} {prepared : Prepared DecryptorSequence}
  {past : List Event} {w w' : SearchWorld} {event : Event}

/-- What is known of a callable in a run. -/
structure Known (search : Search) (slot : SearchSlot) (i : Nat) : Prop where
  form : SlotForm slot
  inv : ∃ notified, search.WorkerInv notified i (searchSlot slot)
  first : search.FirstInv False i (searchSlot slot)

theorem Known.searched {slot : SearchSlot} {i : Nat} (known : Known search slot i)
    (hit : told slot = true) : (searchSlot slot).state.point = .idle ∧
      (searchSlot slot).state.fields.hasResultFlag = true := by
  rw [told, Bool.and_eq_true, Bool.or_eq_true, decide_eq_true_eq, decide_eq_true_eq] at hit
  obtain ⟨flag, done⟩ := hit
  refine ⟨?_, by rw [fields_searchSlot]; exact flag⟩
  obtain ⟨turn, o, k, checking, sent⟩ := slot
  cases turn with
  | waiting =>
      have fresh := (slotForm_waiting.mp known.form).1
      change o.state.fields.hasResultFlag = true at flag
      rw [fresh] at flag
      cases flag
  | inside | returned =>
      rw [searchSlot, if_neg (by simp)]
      split
      · rfl
      · exact done.resolve_left ‹_›

/-- A callable that has called `broadcast` has a key. -/
theorem Known.firstHit_of_told {slot : SearchSlot} {i : Nat} (known : Known search slot i)
    (hit : told slot = true) : (search.firstHit i).isSome = true := by
  obtain ⟨idle, flag⟩ := known.searched hit
  obtain ⟨notified, inv⟩ := known.inv
  obtain ⟨finished, -, value, stored, -⟩ := inv.found idle flag
  have result := (Search.getResult_of_inv inv known.first idle).resolve_right fun stop => stop.1
  rw [← result, Fields.getResult, finished, flag]
  show (searchSlot slot).state.fields.result.isSome = true
  rw [stored]
  rfl

/-- A callable that has returned has the first accepted key of its stretch. -/
theorem Known.getResult_of_returned {slot : SearchSlot} {i : Nat} (known : Known search slot i)
    (returned : slot.turn = .returned) :
    slot.object.state.fields.getResult = search.firstHit i := by
  obtain ⟨notified, inv⟩ := known.inv
  obtain ⟨turn, o, k, checking, sent⟩ := slot
  obtain rfl : turn = .returned := returned
  obtain ⟨idle, unsent⟩ : o.state.point = .idle ∧ sent = 0 := known.form
  have seen : searchSlot ⟨.returned, o, k, checking, sent⟩ = o := by
    rw [unsent]
    rfl
  have first := known.first
  rw [seen] at inv first
  exact (Search.getResult_of_inv inv first idle).resolve_right fun stop => stop.1

/-- A callable that has returned has called `broadcast` if it has a key. -/
theorem Known.told_of_returned {slot : SearchSlot} {i : Nat} (known : Known search slot i)
    (returned : slot.turn = .returned) : told slot = (search.firstHit i).isSome := by
  cases hit : told slot with
  | true => exact (known.firstHit_of_told hit).symm
  | false =>
      have result := known.getResult_of_returned returned
      have form := known.form
      rw [SlotForm, returned] at form
      have unset : slot.object.state.fields.hasResultFlag = false := by
        simpa [told, form.1] using hit
      rw [← result, Fields.getResult, unset, Bool.and_false]
      rfl

section Prepared

variable (prepare : prepareMappedFunctions 0 search.rangeEnd search.numThreads search.message
    search.encrypted = .ok prepared)

include prepare

theorem known_of_related {past' : List (Fin search.numThreads.toNat × SearchEvent)}
    {s : System Unit search.numThreads.toNat}
    (run : Run (System.Step prepared.expected) (Entered prepared) past' s)
    (related : Related past (w.slot size) past' s) (i : Fin search.numThreads.toNat) :
    Known search (w.slot size i) i := by
  have inv := (Search.systemInv_of_run search prepare run).workers i
  have first := Search.firstInv_of_run search prepare run i
  rw [related.slots.worker i] at inv first
  exact ⟨related.slots.forms i, ⟨_, inv⟩, first.mono fun stop => related.unstopped i stop⟩

theorem known_of_run
    (run : Run (World.Step size search.numThreads.toNat (rankCallable prepared))
      (Started (rankCallable prepared)) past w) (i : Fin search.numThreads.toNat) :
    Known search (w.slot size i) i := by
  obtain ⟨past', s, run', related⟩ := (broadcastSimulation prepare).exists_run run
  exact known_of_related prepare run' related i

/-- **The calls of a rank are those of its callables.** -/
theorem calls_of_run
    (run : Run (World.Step size search.numThreads.toNat (rankCallable prepared))
      (Started (rankCallable prepared)) past w) (t : Nat) :
    (w.ranks t).calls = toldBy search.numThreads.toNat size t (w.slot size) := by
  induction run with
  | @start w started =>
      obtain ⟨s, -, related⟩ := related_of_started size prepare started
      rw [started.1]
      refine (Finset.sum_eq_zero fun i _ => if_neg fun hit => ?_).symm
      have form := related.slots.forms i
      have unset : told (w.slot size i) = false := by
        refine told_of_unset ?_
        have waiting : (w.slot size i).turn = .waiting := by
          have reached := Nat.not_lt.mpr (Nat.mod_le i.val size)
          simp [World.slot, started.1, reached]
        rw [SlotForm, waiting] at form
        rw [form.1]
        rfl
      cases unset.symm.trans hit.2
  | @snoc past w w' event run step ih =>
      rw [calls_of_step step t, ih]
      have tidy := tidy_of_run run
      rcases step.slot_cases (.of_run run) tidy with
        ⟨⟨r, message, rfl⟩, same⟩ | ⟨r, move, slot', moved⟩
      · rw [same, if_neg (by simp), Nat.add_zero]
      · obtain ⟨label, below, more, own, slots, goesOn⟩ := moved
        let i : Fin search.numThreads.toNat := ⟨(w.ranks r).counter, more⟩
        have known := known_of_run prepare run i
        obtain ⟨notified, inv⟩ := known.inv
        have slots : w'.slot size = Function.update (w.slot size) i slot' := slots
        rw [slots, toldBy_update _ i (told_step known.form inv own goesOn)]
        have sends : event = .broadcast t ↔ i.val % size = t ∧ move = .send := by
          have congruent : i.val % size = r := tidy.counter r below
          rw [congruent]
          cases event <;> cases move <;> simp [Event.own, Move.event] at label ⊢
          exact ⟨fun same => label.symm.trans same, fun same => label.trans same⟩
        simp only [sends]

/-! ## The ranks come to an end -/

omit prepare in
/-- A call of rank 0 puts a string on its way for each other rank, and a delivery takes
one away. -/
theorem inFlight_of_step
    (step : World.Step size search.numThreads.toNat (rankCallable prepared) w event w') :
    ((∀ r, event ≠ .broadcast r) → w'.inFlight.length ≤ w.inFlight.length) ∧
      w'.inFlight.length ≤ w.inFlight.length + (size - 1) ∧
      ((∃ r message, event = .deliver r message) → w'.inFlight.length < w.inFlight.length) := by
  cases step with
  | run | work | checkAgain | checkFirst | test | handleSuccess | returns =>
      exact ⟨fun _ => Nat.le_refl _, Nat.le_add_right _ _, fun ⟨_, _, same⟩ => by cases same⟩
  | broadcast r below running own =>
      refine ⟨fun quiet => absurd rfl (quiet r), ?_, fun ⟨_, _, same⟩ => by cases same⟩
      by_cases root : r = 0
      · have sent : (w.broadcast r size).inFlight =
            w.inFlight ++ (List.range' 1 (size - 1)).map fun other => (other, finished) :=
          if_pos root
        rw [sent, List.length_append, List.length_map, List.length_range']
      · have sent : (w.broadcast r size).inFlight = w.inFlight := if_neg root
        rw [sent]
        exact Nat.le_add_right _ _
  | @deliver r message sent =>
      have less : (w.deliver r message).inFlight.length < w.inFlight.length := by
        show (w.inFlight.erase (r, message)).length < _
        rw [List.length_erase_of_mem sent]
        have some := List.length_pos_of_mem sent
        omega
      exact ⟨fun _ => less.le, less.le.trans (Nat.le_add_right _ _), fun _ => less⟩

/-- The measure of the ranks: the steps of the search, those of the loops, and the strings
on their way. -/
def broadcastMeasure (search : Search) (size : Nat) (w : SearchWorld) : Nat :=
  (size + 3) * (∑ i : Fin search.numThreads.toNat, search.weight (searchSlot (w.slot size i))) +
    (∑ i : Fin search.numThreads.toNat, slotRest 1 (w.slot size i)) + w.inFlight.length

/-- **Every step of the ranks decreases their measure.** -/
theorem decreasing_broadcast :
    Decreasing (World.Step size search.numThreads.toNat (rankCallable prepared))
      (Started (rankCallable prepared)) (broadcastMeasure search size) := by
  intro past w event w' run step
  obtain ⟨past', s, run', related⟩ := (broadcastSimulation prepare).exists_run run
  obtain ⟨quiet, most, fewer⟩ := inFlight_of_step step
  rcases step.slot_cases (.of_run run) (tidy_of_run run) with
    ⟨delivered, same⟩ | ⟨r, move, slot', moved⟩
  · rw [broadcastMeasure, broadcastMeasure, same]
    exact Nat.add_lt_add_left (fewer delivered) _
  · obtain ⟨label, below, more, own, slots, goesOn⟩ := moved
    let i : Fin search.numThreads.toNat := ⟨(w.ranks r).counter, more⟩
    have slots : w'.slot size = Function.update (w.slot size) i slot' := slots
    obtain ⟨later, s', path, count, -, related'⟩ :=
      related.slots.step (i := i) (r := r) own Nat.one_pos fun stopped => absurd stopped goesOn
    have behind := (Search.decreasing_totalWeight prepare).length_add_le run' path
    rw [related.slots.totalWeight, related'.totalWeight, count] at behind
    have rest := sum_slotRest_update 1 (w.slot size) i slot'
    obtain ⟨unseen, bounded⟩ := slotRest_step (related.slots.forms i) Nat.one_pos own
    rw [broadcastMeasure, broadcastMeasure, slots]
    cases sees : move.seen (w.slot size i).sent with
    | false =>
        have less := unseen sees
        have still : w'.inFlight.length ≤ w.inFlight.length := by
          refine quiet fun t same => ?_
          subst same
          have sends : move = .send := by
            cases move <;> simp [Event.own, Move.event] at label ⊢
          subst sends
          have here : (w.slot size i).sent < 1 := by
            change Slot.Step 1 _ (w.slot size i) _ _ at own
            generalize w.slot size i = slot at own
            cases own with
            | send own next => exact next
          rw [Nat.lt_one_iff.mp here] at sees
          cases sees
        rw [sees, Bool.toNat_false, Nat.zero_add] at behind
        have scaled := Nat.mul_le_mul_left (size + 3) behind
        omega
    | true =>
        rw [sees, Bool.toNat_true] at behind
        have scaled := Nat.mul_le_mul_left (size + 3) behind
        rw [Nat.mul_add, Nat.mul_one] at scaled
        omega

/-- **The runs of the ranks have a bounded length.** -/
theorem length_le_of_broadcast
    (run : Run (World.Step size search.numThreads.toNat (rankCallable prepared))
      (Started (rankCallable prepared)) past w) :
    past.length ≤ search.numThreads.toNat * ((size + 3) * search.fullWeight + 2) := by
  obtain ⟨first, started, bound⟩ := run.length_add_le (decreasing_broadcast prepare)
  obtain ⟨s, entered, related⟩ := related_of_started size prepare started
  have full := Search.totalWeight_le entered
  rw [related.slots.totalWeight] at full
  obtain ⟨ranks, -, -, inFlight, -⟩ := started
  have rest : ∑ i : Fin search.numThreads.toNat, slotRest 1 (first.slot size i) ≤
      search.numThreads.toNat * 2 := by
    refine sum_le_mul _ fun i => ?_
    have reached := Nat.not_lt.mpr (Nat.mod_le i.val size)
    simp [World.slot, ranks, slotRest, reached]
  refine (Nat.le_of_add_right_le bound).trans ?_
  rw [broadcastMeasure, inFlight, List.length_nil, Nat.add_zero, Nat.mul_add]
  refine Nat.add_le_add ((Nat.mul_le_mul_left _ full).trans (le_of_eq ?_)) rest
  exact Nat.mul_left_comm _ _ _

/-- **A rank with a callable left can go on**, or it waits for a string of rank 0. -/
theorem exists_step_or_waits
    (run : Run (World.Step size search.numThreads.toNat (rankCallable prepared))
      (Started (rankCallable prepared)) past w) {r : Nat} (below : r < size)
    (more : (w.ranks r).counter < search.numThreads.toNat) :
    (∃ event w', World.Step size search.numThreads.toNat (rankCallable prepared) w event w') ∨
      (w.ranks r).broadcasting = true ∧ w.broadcastResult r = none := by
  let i : Fin search.numThreads.toNat := ⟨(w.ranks r).counter, more⟩
  have tidy := tidy_of_run run
  have congruent := tidy.counter r below
  obtain ⟨form, ⟨notified, own⟩, -⟩ := known_of_run prepare run i
  obtain ⟨handler, handled⟩ := own.handled
  rw [fields_searchSlot, slot_object] at handled
  cases entered : (w.ranks r).entered with
  | false =>
      rw [slot_waiting congruent rfl entered] at form
      have enters : (rankCallable prepared i).step (w.objects i) .run
          ⟨⟨(w.objects i).state.fields, .test⟩, (w.objects i).seq⟩ := by
        refine ⟨?_, rfl⟩
        rw [(slotForm_waiting.mp form).1]
        exact .run _ rfl
      exact .inl ⟨_, _, .run r below more entered enters⟩
  | true =>
      rw [slot_inside congruent rfl entered] at form own
      cases broadcasting : (w.ranks r).broadcasting with
      | true =>
          rw [broadcasting] at form
          have notify := (slotForm_inside.mp form).2.1 Nat.one_pos
          cases complete : w.broadcastResult r with
          | none => exact .inr ⟨rfl, rfl⟩
          | some buffer =>
              obtain ⟨object, moved⟩ : (searchCallable prepared i).Notifies (w.objects i) :=
                notifies_of_notify notify handled
              exact .inl ⟨_, _, .handleSuccess r below broadcasting complete moved⟩
      | false =>
          left
          cases checking : (w.ranks r).checking with
          | some before =>
              rw [checking] at form
              obtain ⟨args, poll⟩ := (slotForm_inside.mp form).1 rfl
              obtain ⟨object, moved⟩ : ∃ object, (searchCallable prepared i).step (w.objects i)
                  (.checkNextSyncCall (checkNextSyncCall (w.current r))) object :=
                check_of_poll poll handled _
              exact ⟨_, _, .test r below checking moved⟩
          | none =>
              rw [broadcasting] at own
              have running : (w.ranks r).Running := ⟨entered, checking, broadcasting⟩
              rcases exists_act search prepare i.isLt own with
                idle | ⟨object, works⟩ | checks | told
              · exact ⟨_, _, .returns r below running ⟨idle, rfl⟩⟩
              · exact ⟨_, _, .work r below running works⟩
              · cases posted : (w.current r).responding with
                | true => exact ⟨_, _, .checkAgain r below running ⟨true, checks true⟩ posted⟩
                | false => exact ⟨_, _, .checkFirst r below running ⟨true, checks true⟩ posted⟩
              · exact ⟨_, _, .broadcast r below running told⟩

/-- A rank has no more calls than callables with a key, and as many when it is done. -/
theorem calls_le_hits
    (run : Run (World.Step size search.numThreads.toNat (rankCallable prepared))
      (Started (rankCallable prepared)) past w) (r : Nat) :
    (w.ranks r).calls ≤ hits search size r ∧
      (search.numThreads.toNat ≤ (w.ranks r).counter → (w.ranks r).calls = hits search size r) := by
  rw [calls_of_run prepare run r, toldBy, hits]
  refine ⟨Finset.sum_le_sum fun i _ => ?_, fun done => Finset.sum_congr rfl fun i _ => ?_⟩
  · have known := known_of_run prepare run i
    split
    case isTrue hit => rw [if_pos ⟨hit.1, known.firstHit_of_told hit.2⟩]
    case isFalse => exact Nat.zero_le _
  · by_cases own : i.val % size = r
    · have passed : i.val < (w.ranks r).counter := Nat.lt_of_lt_of_le i.isLt done
      have returned : (w.slot size i).turn = .returned := by rw [slot_returned own passed]
      rw [(known_of_run prepare run i).told_of_returned returned]
    · rw [if_neg fun hit => own hit.1, if_neg fun hit => own hit.1]

/-- When nothing can go on, all strings have arrived. -/
theorem arrived_of_stuck
    (run : Run (World.Step size search.numThreads.toNat (rankCallable prepared))
      (Started (rankCallable prepared)) past w)
    (stuck : ∀ event w',
      ¬ World.Step size search.numThreads.toNat (rankCallable prepared) w event w')
    {r : Nat} (below : r < size) (other : r ≠ 0) :
    (w.ranks r).arrived.length = hits search size 0 := by
  have empty : w.inFlight = [] := by
    cases left : w.inFlight with
    | nil => rfl
    | cons entry rest =>
        have sent : (entry.1, entry.2) ∈ w.inFlight := left ▸ List.mem_cons_self
        exact absurd (.deliver entry.1 sent) (stuck _ _)
  -- Rank 0 waits for nobody.
  have root : search.numThreads.toNat ≤ (w.ranks 0).counter := by
    by_contra more
    rcases exists_step_or_waits prepare run (Nat.zero_lt_of_lt below) (Nat.lt_of_not_le more) with
      ⟨event, w', step⟩ | ⟨-, waits⟩
    · exact stuck event w' step
    · cases waits
  have all := (passed_of_run run).delivered r below other
  rw [empty, List.countP_nil, Nat.add_zero, (calls_le_hits prepare run 0).2 root] at all
  exact all

end Prepared

end Runs

/-- **Who gets through a search with broadcasts.** Every run of the ranks has a bounded
number of steps, and every callable whose `run` has returned has the first accepted key of
its stretch. When nothing can go on any more, a rank has run all its callables if and only
if it has no more of them with a key than rank 0. Otherwise it waits for good in the call
of `broadcast` that follows those of rank 0. -/
theorem broadcast_search (search : Search) {size : Nat} {prepared : Prepared DecryptorSequence}
    (prepare : prepareMappedFunctions 0 search.rangeEnd search.numThreads search.message
      search.encrypted = .ok prepared) {events : List Event} {w : SearchWorld}
    (run : Run (World.Step size search.numThreads.toNat (rankCallable prepared))
      (Started (rankCallable prepared)) events w) :
    events.length ≤ search.numThreads.toNat * ((size + 3) * search.fullWeight + 2) ∧
      (∀ i : Fin search.numThreads.toNat, i.val < (w.ranks (i.val % size)).counter →
        (w.objects i).state.fields.getResult = search.firstHit i) ∧
      ((∀ event w',
          ¬ World.Step size search.numThreads.toNat (rankCallable prepared) w event w') →
        ∀ r < size,
          (search.numThreads.toNat ≤ (w.ranks r).counter ↔
            hits search size r ≤ hits search size 0) ∧
          (hits search size 0 < hits search size r →
            (w.ranks r).broadcasting = true ∧ (w.ranks r).calls = hits search size 0 + 1)) := by
  refine ⟨length_le_of_broadcast prepare run, fun i passed => ?_, fun stuck r below => ?_⟩
  · rw [← slot_object size w i]
    exact (known_of_run prepare run i).getResult_of_returned (by rw [slot_returned rfl passed])
  obtain ⟨most, done⟩ := calls_le_hits prepare run r
  have tidy := tidy_of_run run
  -- A rank that is done has had a string for each of its calls.
  have enough : search.numThreads.toNat ≤ (w.ranks r).counter →
      hits search size r ≤ hits search size 0 := by
    intro all
    rcases eq_or_ne r 0 with rfl | other
    · exact Nat.le_refl _
    have left : (w.ranks r).entered = false := by
      by_contra entered
      exact absurd (tidy.more r below (Bool.eq_true_of_not_eq_false entered)) (Nat.not_lt.mpr all)
    have taken := (passed_of_run run).taken r other
    rw [(tidy.outside r below left).2, arrived_of_stuck prepare run stuck below other,
      done all] at taken
    exact taken
  -- A rank that is not done waits for one string more.
  have waits : ¬ search.numThreads.toNat ≤ (w.ranks r).counter →
      (w.ranks r).broadcasting = true ∧ (w.ranks r).calls = hits search size 0 + 1 := by
    intro more
    rcases exists_step_or_waits prepare run below (Nat.lt_of_not_le more) with
      ⟨event, w', step⟩ | ⟨calling, nothing⟩
    · exact absurd step (stuck event w')
    · have other : r ≠ 0 := by
        rintro rfl
        cases nothing
      rw [World.broadcastResult, if_neg other, List.getElem?_eq_none_iff,
        arrived_of_stuck prepare run stuck below other] at nothing
      have called := (WorldInv.of_run run).called r calling
      have taken := (passed_of_run run).taken r other
      rw [calling, arrived_of_stuck prepare run stuck below other] at taken
      exact ⟨calling, Nat.le_antisymm taken (by omega)⟩
  refine ⟨⟨enough, fun few => ?_⟩, fun many => waits fun all => ?_⟩
  · by_contra more
    have calls := (waits more).2
    omega
  · have few := enough all
    omega

/-- The search of `main` on three ranks with broadcasts, run until nothing goes on. -/
theorem broadcast_search_main :
    ∃ (prepared : Prepared DecryptorSequence) (events : List Event) (w : SearchWorld),
      Run (World.Step 3 5 (rankCallable prepared)) (Started (rankCallable prepared)) events w ∧
      (∀ event w', ¬ World.Step 3 5 (rankCallable prepared) w event w') ∧
      ∀ r < 3, 5 ≤ (w.ranks r).counter ↔ hits mainSearch 3 r ≤ hits mainSearch 3 0 := by
  obtain ⟨prepared, s, prepare, _, workers⟩ := Search.exists_entered mainSearch ()
  let fresh : State Unit ArgType DecryptionResult :=
    ⟨(Fields.make true).setSigHandler (some ()), .idle⟩
  let first : SearchWorld :=
    ⟨fun r => ⟨r, false, none, false, 0, "", .empty, []⟩,
      fun id => ⟨fresh, (prepared.workers[id]?).getD (.make 0 0 0 [])⟩, fun _ => .make, [], [], []⟩
  have started : Started (rankCallable prepared) first := by
    refine ⟨fun _ => rfl, fun id => ⟨rfl, fun seq own => ?_⟩, fun _ => rfl, rfl, rfl, rfl⟩
    show (prepared.workers[id]?).getD _ = seq
    rw [own]
    rfl
  have decreasing : Decreasing
      (World.Step 3 mainSearch.numThreads.toNat (rankCallable prepared))
      (Started (rankCallable prepared)) (broadcastMeasure mainSearch 3) :=
    decreasing_broadcast prepare
  obtain ⟨later, w, -, run, stuck⟩ := (Run.start started).exists_stuck decreasing
  exact ⟨prepared, _, w, run, stuck, fun r below =>
    ((broadcast_search mainSearch prepare run).2.2 stuck r below).1⟩

end ParallelLabs.Mpi.Broadcast
