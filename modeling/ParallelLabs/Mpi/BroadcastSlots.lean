import ParallelLabs.Mpi.Broadcast
import ParallelLabs.Mpi.Slots

/-!
# The callables of the ranks with the broadcast interrupter

The same view as that of the point-to-point interrupter: a callable waits, is inside
`run`, or has returned. A broadcast takes the place of the sends, of which there is one
for each success, and all checks return true. So a step of a rank is a step of its current
callable (`World.Step.slot_cases`).
-/

set_option autoImplicit false

namespace ParallelLabs.Mpi.Broadcast

open Library Callables

variable {Object : Type} {size count : Nat} {callables : Nat → AbstractCallable Object}
  {w w' : World Object} {event : Event}

/-- The callable of a number. -/
def World.slot (size : Nat) (w : World Object) (id : Nat) : Slot Object :=
  let rank := w.ranks (id % size)
  if id < rank.counter then ⟨.returned, w.objects id, (w.interrupters id).calls, false, 0⟩
  else if id = rank.counter ∧ rank.entered = true then
    ⟨.inside, w.objects id, (w.interrupters id).calls, rank.checking.isSome,
      rank.broadcasting.toNat⟩
  else ⟨.waiting, w.objects id, (w.interrupters id).calls, false, 0⟩

/-- The step of a callable for an event. -/
def Event.own : Event → Option Mpi.Event
  | .run r => some (.run r)
  | .work r => some (.work r)
  | .checkNextSyncCall r => some (.checkNextSyncCall r)
  | .test r => some (.test r)
  | .broadcast r => some (.send r)
  | .handleSuccess r => some (.handleSuccess r)
  | .returns r => some (.returns r)
  | .deliver _ _ => none

/-- A rank runs its own callables, and is in a call of its interrupter only inside `run`
of one of them. -/
structure World.Tidy (size count : Nat) (w : World Object) : Prop where
  counter : ∀ r < size, (w.ranks r).counter % size = r
  outside : ∀ r < size, (w.ranks r).entered = false →
    (w.ranks r).checking = none ∧ (w.ranks r).broadcasting = false
  more : ∀ r < size, (w.ranks r).entered = true → (w.ranks r).counter < count
  single : ∀ r < size, (w.ranks r).broadcasting = true → (w.ranks r).checking = none

namespace World.Tidy

theorem update (tidy : w.Tidy size count) {r : Nat} {rank : Rank}
    (ranks : w'.ranks = Function.update w.ranks r rank)
    (counter : r < size → rank.counter % size = r)
    (outside : rank.entered = false → rank.checking = none ∧ rank.broadcasting = false)
    (more : rank.entered = true → rank.counter < count)
    (single : rank.broadcasting = true → rank.checking = none) : w'.Tidy size count := by
  have split : ∀ (P : Nat → Rank → Prop), (r < size → P r rank) →
      (∀ r' < size, P r' (w.ranks r')) → ∀ r' < size, P r' (w'.ranks r') := by
    intro P own others r' below
    rw [ranks]
    exact (Function.forall_update_iff w.ranks fun r' rank => r' < size → P r' rank).mpr
      ⟨own, fun r' _ => others r'⟩ r' below
  exact ⟨split (fun r rank => rank.counter % size = r) counter tidy.counter,
    split (fun _ rank => rank.entered = false → rank.checking = none ∧ rank.broadcasting = false)
      (fun _ => outside) tidy.outside,
    split (fun _ rank => rank.entered = true → rank.counter < count) (fun _ => more) tidy.more,
    split (fun _ rank => rank.broadcasting = true → rank.checking = none) (fun _ => single)
      tidy.single⟩

/-- **A step keeps the ranks tidy.** -/
theorem step (tidy : w.Tidy size count) (step : World.Step size count callables w event w') :
    w'.Tidy size count := by
  cases step with
  | run r below more outside own =>
      exact tidy.update rfl (tidy.counter r) (by simp) (fun _ => more) (tidy.single r below)
  | work r below running own => exact ⟨tidy.counter, tidy.outside, tidy.more, tidy.single⟩
  | checkAgain r below running own posted | checkFirst r below running own unposted =>
      refine tidy.update rfl (tidy.counter r) (fun absent => ?_) (tidy.more r below)
        fun calling => ?_
      · exact absurd (absent.symm.trans running.1) Bool.false_ne_true
      · exact absurd (running.2.2.symm.trans calling) Bool.false_ne_true
  | test r below called own =>
      exact tidy.update rfl (tidy.counter r)
        (fun outside => ⟨rfl, (tidy.outside r below outside).2⟩) (tidy.more r below) fun _ => rfl
  | broadcast r below running own =>
      refine tidy.update rfl (tidy.counter r) (fun absent => ?_) (tidy.more r below)
        fun _ => running.2.1
      exact absurd (absent.symm.trans running.1) Bool.false_ne_true
  | handleSuccess r below inside complete own =>
      exact tidy.update rfl (tidy.counter r) (fun _ => ⟨tidy.single r below inside, rfl⟩)
        (tidy.more r below) (by simp)
  | returns r below running own =>
      refine tidy.update rfl (fun _ => ?_) (fun _ => running.2) (by simp)
        fun calling => absurd (running.2.2.symm.trans calling) Bool.false_ne_true
      show ((w.ranks r).counter + size) % size = r
      rw [Nat.add_mod_right, tidy.counter r below]
  | @deliver r message sent =>
      have kept : ∀ other, ∃ arrived,
          (w.deliver r message).ranks other = (w.ranks other).setArrived arrived :=
        deliver_ranks w r message
      refine ⟨fun t below => ?_, fun t below => ?_, fun t below => ?_, fun t below => ?_⟩ <;>
        obtain ⟨arrived, same⟩ := kept t <;> rw [same]
      · exact tidy.counter t below
      · exact tidy.outside t below
      · exact tidy.more t below
      · exact tidy.single t below

end World.Tidy

theorem tidy_of_run {events : List Event}
    (run : Run (World.Step size count callables) (Started callables) events w) :
    w.Tidy size count := by
  refine run.invariant (fun _ w => w.Tidy size count) (fun w started => ?_)
    fun _ _ _ _ tidy step => tidy.step step
  refine ⟨fun r below => ?_, fun r _ _ => ?_, fun r _ entered => ?_, fun r _ _ => ?_⟩
  · rw [started.1]
    exact Nat.mod_eq_of_lt below
  · rw [started.1]
    exact ⟨rfl, rfl⟩
  · rw [started.1] at entered
    cases entered
  · rw [started.1]

/-! ## One callable steps -/

/-- The current callable of a rank. -/
theorem slot_inside {r id : Nat} (own : id % size = r) (here : id = (w.ranks r).counter)
    (entered : (w.ranks r).entered = true) :
    w.slot size id = ⟨.inside, w.objects id, (w.interrupters id).calls,
      (w.ranks r).checking.isSome, (w.ranks r).broadcasting.toNat⟩ := by
  rw [World.slot, own]
  simp [here, entered]

theorem slot_waiting {r id : Nat} (own : id % size = r) (here : id = (w.ranks r).counter)
    (outside : (w.ranks r).entered = false) :
    w.slot size id = ⟨.waiting, w.objects id, (w.interrupters id).calls, false, 0⟩ := by
  rw [World.slot, own]
  simp [here, outside]

theorem slot_returned {r id : Nat} (own : id % size = r) (passed : id < (w.ranks r).counter) :
    w.slot size id = ⟨.returned, w.objects id, (w.interrupters id).calls, false, 0⟩ := by
  rw [World.slot, own]
  simp [passed]

theorem slot_object (size : Nat) (w : World Object) (id : Nat) :
    (w.slot size id).object = w.objects id := by
  rw [World.slot]
  split
  · rfl
  · split <;> rfl

/-- **The other callables stay as they are** when a rank does something with its own, and
its loop stays or moves on. -/
theorem slot_eq_of_ne {r : Nat} {rank : Rank} (congruent : (w.ranks r).counter % size = r)
    (ranks : w'.ranks = Function.update w.ranks r rank)
    (objects : ∀ id, id ≠ (w.ranks r).counter → w'.objects id = w.objects id)
    (calls : ∀ id, id ≠ (w.ranks r).counter →
      (w'.interrupters id).calls = (w.interrupters id).calls)
    (loop : rank.counter = (w.ranks r).counter ∨
      rank.counter = (w.ranks r).counter + size ∧ rank.entered = false)
    {id : Nat} (other : id ≠ (w.ranks r).counter) : w'.slot size id = w.slot size id := by
  by_cases own : id % size = r
  · subst own
    rcases loop with stays | ⟨moves, left⟩
    · simp only [World.slot, ranks, Function.update_self, stays, objects id other, calls id other,
        other, false_and, if_false]
    · have next : (w.ranks (id % size)).counter < id →
          (w.ranks (id % size)).counter + size ≤ id := by
        intro after
        have apart := Nat.dvd_of_mod_eq_zero (Nat.sub_mod_eq_zero_of_mod_eq congruent.symm)
        have enough := Nat.le_of_dvd (Nat.sub_pos_of_lt after) apart
        omega
      simp only [World.slot, ranks, Function.update_self, moves, left, objects id other,
        calls id other, other, false_and, if_false, Bool.false_eq_true, and_false]
      by_cases before : id < (w.ranks (id % size)).counter
      · rw [if_pos before, if_pos (by omega)]
      · rw [if_neg before, if_neg (by have := next (by omega); omega)]
  · have rank : w'.ranks (id % size) = w.ranks (id % size) := by
      rw [ranks, Function.update_of_ne own]
    simp only [World.slot, rank, objects id other, calls id other]

/-- Rank `r` makes a move with its current callable, and the others stay as they are. No
check says stop. -/
structure Moved (size count : Nat) (callables : Nat → AbstractCallable Object)
    (w : World Object) (event : Event) (w' : World Object) (r : Nat) (move : Move)
    (slot' : Slot Object) : Prop where
  label : event.own = some (move.event r)
  below : r < size
  more : (w.ranks r).counter < count
  own : Slot.Step 1 (callables (w.ranks r).counter) (w.slot size (w.ranks r).counter) move slot'
  slots : w'.slot size = Function.update (w.slot size) (w.ranks r).counter slot'
  goesOn : move ≠ .test false

/-- **What a step does to the callables**: a rank makes a move with its current one, or a
string is delivered. -/
theorem World.Step.slot_cases (step : World.Step size count callables w event w')
    (inv : WorldInv w) (tidy : w.Tidy size count) :
    ((∃ r message, event = .deliver r message) ∧ w'.slot size = w.slot size) ∨
      ∃ r move slot', Moved size count callables w event w' r move slot' := by
  -- A step of rank `r` with its callable.
  have moves : ∀ {r : Nat} {rank : Rank} (move : Move) {before after : Slot Object},
      event.own = some (move.event r) → r < size → (w.ranks r).counter < count →
      w'.ranks = Function.update w.ranks r rank →
      (∀ id, id ≠ (w.ranks r).counter → w'.objects id = w.objects id ∧
        (w'.interrupters id).calls = (w.interrupters id).calls) →
      rank.counter = (w.ranks r).counter ∨
        rank.counter = (w.ranks r).counter + size ∧ rank.entered = false →
      w.slot size (w.ranks r).counter = before → w'.slot size (w.ranks r).counter = after →
      Slot.Step 1 (callables (w.ranks r).counter) before move after → move ≠ .test false →
      ((∃ r message, event = .deliver r message) ∧ w'.slot size = w.slot size) ∨
        ∃ r move slot', Moved size count callables w event w' r move slot' := by
    rintro r rank move before after label below more ranks kept loop rfl rfl own goesOn
    refine .inr ⟨r, move, _, label, below, more, own, funext fun id => ?_, goesOn⟩
    by_cases same : id = (w.ranks r).counter
    · subst same
      rw [Function.update_self]
    · rw [Function.update_of_ne same]
      exact slot_eq_of_ne (tidy.counter r below) ranks (fun id other => (kept id other).1)
        (fun id other => (kept id other).2) loop same
  have objects : ∀ {id c : Nat} {object : Object}, id ≠ c →
      Function.update w.objects c object id = w.objects id :=
    fun other => Function.update_of_ne other _ _
  have calls : ∀ {id c : Nat} {i : Interrupter}, id ≠ c →
      (Function.update w.interrupters c i id).calls = (w.interrupters id).calls :=
    fun other => congrArg Interrupter.calls (Function.update_of_ne other _ _)
  cases step with
  | run r below more outside own =>
      have congruent := tidy.counter r below
      obtain ⟨free, calm⟩ := tidy.outside r below outside
      refine moves .run rfl below more rfl (fun id other => ⟨objects other, rfl⟩) (.inl rfl)
        (slot_waiting congruent rfl outside) ?_ (.run own) (by simp)
      simp [World.slot, World.setRank, World.setObject, congruent, free, calm]
  | work r below running own =>
      obtain ⟨entered, free, calm⟩ := running
      have congruent := tidy.counter r below
      have before := slot_inside congruent rfl entered
      rw [free, calm] at before
      refine moves .work rfl below (tidy.more r below entered) (Function.update_eq_self r _).symm
        (fun id other => ⟨objects other, rfl⟩) (.inl rfl) before ?_ (.work own) (by simp)
      simp [World.slot, World.setObject, congruent, entered, free, calm]
  | checkAgain r below running own posted =>
      obtain ⟨entered, free, calm⟩ := running
      have congruent := tidy.counter r below
      have before := slot_inside congruent rfl entered
      rw [free, calm] at before
      refine moves .check rfl below (tidy.more r below entered) rfl
        (fun id other => ⟨rfl, calls other⟩) (.inl rfl) before ?_ (.check own) (by simp)
      simp [World.slot, World.checkAgain, World.current, Interrupter.again, congruent, entered,
        calm]
  | checkFirst r below running own unposted =>
      obtain ⟨entered, free, calm⟩ := running
      have congruent := tidy.counter r below
      have before := slot_inside congruent rfl entered
      rw [free, calm] at before
      refine moves .check rfl below (tidy.more r below entered) rfl
        (fun id other => ⟨rfl, calls other⟩) (.inl rfl) before ?_ (.check own) (by simp)
      simp [World.slot, World.checkFirst, World.current, Interrupter.irecv, congruent, entered,
        calm]
  | test r below called own =>
      have congruent := tidy.counter r below
      have entered : (w.ranks r).entered = true := by
        cases outside : (w.ranks r).entered with
        | true => rfl
        | false => cases called.symm.trans (tidy.outside r below outside).1
      have before := slot_inside congruent rfl entered
      rw [called, Option.isSome_some] at before
      refine moves (.test (checkNextSyncCall (w.current r))) rfl below
        (tidy.more r below entered) rfl (fun id other => ⟨objects other, rfl⟩) (.inl rfl) before
        ?_ (.test own) fun stopped => ?_
      · simp [World.slot, World.test, congruent, entered]
      · cases (inv.check_eq r).symm.trans (Move.test.inj stopped)
  | broadcast r below running own =>
      obtain ⟨entered, free, calm⟩ := running
      have congruent := tidy.counter r below
      have before := slot_inside congruent rfl entered
      rw [free, calm] at before
      refine moves .send rfl below (tidy.more r below entered) rfl (fun id other => ⟨rfl, rfl⟩)
        (.inl rfl) before ?_ (.send own Nat.one_pos) (by simp)
      simp [World.slot, World.broadcast, congruent, entered, free]
  | handleSuccess r below inside complete own =>
      have congruent := tidy.counter r below
      have free := tidy.single r below inside
      have entered : (w.ranks r).entered = true := by
        cases outside : (w.ranks r).entered with
        | true => rfl
        | false => cases inside.symm.trans (tidy.outside r below outside).2
      have before := slot_inside congruent rfl entered
      rw [free, inside] at before
      refine moves .handleSuccess rfl below (tidy.more r below entered) rfl
        (fun id other => ⟨objects other, rfl⟩) (.inl rfl) before ?_ (.handleSuccess own) (by simp)
      simp [World.slot, World.handleSuccess, congruent, entered, free]
  | returns r below running own =>
      obtain ⟨entered, free, calm⟩ := running
      have congruent := tidy.counter r below
      have positive : 0 < size := Nat.zero_lt_of_lt below
      have before := slot_inside congruent rfl entered
      rw [free, calm] at before
      refine moves .returns rfl below (tidy.more r below entered) rfl
        (fun id other => ⟨objects other, rfl⟩) (.inr ⟨rfl, rfl⟩) before ?_ (.returns own) (by simp)
      simp [World.slot, World.setRank, World.setObject, congruent, positive]
  | @deliver r message sent =>
      refine .inl ⟨⟨r, message, rfl⟩, funext fun id => ?_⟩
      obtain ⟨arrived, rank⟩ := deliver_ranks w r message (id % size)
      simp only [World.slot, rank]
      rfl

end ParallelLabs.Mpi.Broadcast
