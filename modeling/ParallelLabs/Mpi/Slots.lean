import ParallelLabs.Mpi.Stops

/-!
# The callables of the ranks

What a step of the ranks does, seen from the callables. A callable waits until the loop
of its rank has come to its number, is inside `run`, and has returned when the loop has
passed it (`World.slot`). A step of a rank is a step of its current callable, and leaves
all others as they are (`World.Step.slot_cases`); a delivery changes none of them.
-/

set_option autoImplicit false

namespace ParallelLabs.Mpi

open Library Callables

/-- Where the loop stands to a callable. -/
inductive Turn where
  | waiting
  | inside
  | returned
  deriving DecidableEq, Repr

/-- A callable, the checks of its interrupter, and how far the call of a method has come. -/
structure Slot (Object : Type) where
  turn : Turn
  object : Object
  calls : Nat
  checking : Bool
  sent : Nat

/-- The callable of a number. -/
def World.slot {Object : Type} (size : Nat) (w : World Object) (id : Nat) : Slot Object :=
  let rank := w.ranks (id % size)
  if id < rank.counter then ⟨.returned, w.objects id, (w.interrupters id).calls, false, 0⟩
  else if id = rank.counter ∧ rank.entered = true then
    ⟨.inside, w.objects id, (w.interrupters id).calls, rank.checking.isSome, rank.sent⟩
  else ⟨.waiting, w.objects id, (w.interrupters id).calls, false, 0⟩

/-- What a rank does with its callable. -/
inductive Move where
  | run
  | work
  | check
  | test (answer : Bool)
  | send
  | handleSuccess
  | returns
  deriving DecidableEq, Repr

/-- The step of a rank for a move of its callable. -/
def Move.event (r : Nat) : Move → Event
  | .run => .run r
  | .work => .work r
  | .check => .checkNextSyncCall r
  | .test _ => .test r
  | .send => .send r
  | .handleSuccess => .handleSuccess r
  | .returns => .returns r

/-- The steps of a callable on its rank. -/
inductive Slot.Step {Object : Type} (size : Nat) (callable : AbstractCallable Object) :
    Slot Object → Move → Slot Object → Prop where
  | run {o o' : Object} {k : Nat} (own : callable.step o .run o') :
      Step size callable ⟨.waiting, o, k, false, 0⟩ .run ⟨.inside, o', k, false, 0⟩
  | work {o o' : Object} {k : Nat} (own : callable.step o .work o') :
      Step size callable ⟨.inside, o, k, false, 0⟩ .work ⟨.inside, o', k, false, 0⟩
  | check {o : Object} {k : Nat} (own : callable.Checks o) :
      Step size callable ⟨.inside, o, k, false, 0⟩ .check ⟨.inside, o, k + 1, true, 0⟩
  | test {o o' : Object} {k sent : Nat} {answer : Bool}
      (own : callable.step o (.checkNextSyncCall answer) o') :
      Step size callable ⟨.inside, o, k, true, sent⟩ (.test answer) ⟨.inside, o', k, false, sent⟩
  | send {o : Object} {k sent : Nat} (own : callable.Notifies o) (next : sent < size) :
      Step size callable ⟨.inside, o, k, false, sent⟩ .send ⟨.inside, o, k, false, sent + 1⟩
  | handleSuccess {o o' : Object} {k : Nat} (own : callable.step o .handleSuccess o') :
      Step size callable ⟨.inside, o, k, false, size⟩ .handleSuccess ⟨.inside, o', k, false, 0⟩
  | returns {o o' : Object} {k : Nat} (own : callable.step o .returns o') :
      Step size callable ⟨.inside, o, k, false, 0⟩ .returns ⟨.returned, o', k, false, 0⟩

section Slots

variable {Object : Type} {size count : Nat} {callables : Nat → AbstractCallable Object}
  {w w' : World Object} {event : Event}

/-- Outside `run` a rank is in no call of its interrupter; inside, it has a callable. -/
structure World.Tidy (size count : Nat) (w : World Object) : Prop where
  outside : ∀ r < size, (w.ranks r).entered = false →
    (w.ranks r).checking = none ∧ (w.ranks r).sent = 0
  more : ∀ r < size, (w.ranks r).entered = true → (w.ranks r).counter < count
  sent : ∀ r < size, (w.ranks r).sent ≤ size

theorem World.Tidy.update (tidy : w.Tidy size count) {r : Nat} {rank : Rank}
    (ranks : w'.ranks = Function.update w.ranks r rank)
    (outside : rank.entered = false → rank.checking = none ∧ rank.sent = 0)
    (more : rank.entered = true → rank.counter < count) (sent : rank.sent ≤ size) :
    w'.Tidy size count := by
  have split : ∀ (P : Rank → Prop), P rank → (∀ r' < size, P (w.ranks r')) →
      ∀ r' < size, P (w'.ranks r') := by
    intro P own others r' below
    rw [ranks]
    exact (Function.forall_update_iff w.ranks fun r' rank => r' < size → P rank).mpr
      ⟨fun _ => own, fun r' _ => others r'⟩ r' below
  exact ⟨split (fun rank => rank.entered = false → rank.checking = none ∧ rank.sent = 0) outside
      tidy.outside,
    split (fun rank => rank.entered = true → rank.counter < count) more tidy.more,
    split (fun rank => rank.sent ≤ size) sent tidy.sent⟩

/-- **A step keeps the ranks tidy.** -/
theorem World.Tidy.step (tidy : w.Tidy size count)
    (step : World.Step size count callables w event w') : w'.Tidy size count := by
  cases step with
  | run r below more outside own =>
      exact tidy.update rfl (fun absent => by cases absent) (fun _ => more) (tidy.sent r below)
  | work r below running own => exact ⟨tidy.outside, tidy.more, tidy.sent⟩
  | checkAgain r below running own posted | checkFirst r below running own posted =>
      refine tidy.update rfl (fun absent => ?_) (fun _ => tidy.more r below running.1.1)
        (tidy.sent r below)
      exact absurd (absent.symm.trans running.1.1) Bool.false_ne_true
  | test r below called own =>
      exact tidy.update rfl (fun outside => ⟨rfl, (tidy.outside r below outside).2⟩)
        (tidy.more r below) (tidy.sent r below)
  | send r below inside own next =>
      refine tidy.update rfl (fun absent => ?_) (fun _ => tidy.more r below inside.1) next
      exact absurd (absent.symm.trans inside.1) Bool.false_ne_true
  | handleSuccess r below inside all own =>
      exact tidy.update rfl (fun _ => ⟨inside.2, rfl⟩) (tidy.more r below) (Nat.zero_le size)
  | returns r below running own =>
      exact tidy.update rfl (fun _ => ⟨running.1.2, running.2⟩) (fun absent => by cases absent)
        (tidy.sent r below)
  | deliver r below sent =>
      exact tidy.update rfl (tidy.outside r below) (tidy.more r below) (tidy.sent r below)

theorem tidy_of_run {events : List Event}
    (run : Run (World.Step size count callables) (Started callables) events w) :
    w.Tidy size count := by
  refine run.invariant (fun _ w => w.Tidy size count) (fun w started => ?_)
    fun _ _ _ _ tidy step => tidy.step step
  refine ⟨fun r _ _ => ?_, fun r _ entered => ?_, fun r _ => ?_⟩
  · rw [started.1]
    exact ⟨rfl, rfl⟩
  · rw [started.1] at entered
    cases entered
  · rw [started.1]
    exact Nat.zero_le size

/-! ## One callable steps -/

/-- A callable whose number the loop has not reached, or has passed. -/
theorem slot_eq_of_ne {id : Nat}
    (counter : (w'.ranks (id % size)).counter = (w.ranks (id % size)).counter)
    (other : id ≠ (w.ranks (id % size)).counter) (object : w'.objects id = w.objects id)
    (calls : (w'.interrupters id).calls = (w.interrupters id).calls) :
    w'.slot size id = w.slot size id := by
  simp only [World.slot, counter, object, calls, other, false_and, if_false]

/-- The loop moves on to the next callable of its rank. -/
theorem slot_eq_of_returns {id : Nat} {object : Object} {r : Nat} (own : id % size = r)
    (congruent : (w.ranks r).counter % size = r) (other : id ≠ (w.ranks r).counter) :
    ((w.setObject r object).setRank r
      { w.ranks r with counter := (w.ranks r).counter + size, entered := false }).slot size id =
      w.slot size id := by
  have kept : Function.update w.objects (w.ranks r).counter object id = w.objects id :=
    Function.update_of_ne other _ _
  have next : (w.ranks r).counter < id → (w.ranks r).counter + size ≤ id := by
    intro after
    obtain ⟨k, rfl⟩ := Nat.exists_eq_add_of_lt after
    have apart := Nat.sub_mod_eq_zero_of_mod_eq (own.trans congruent.symm)
    rw [Nat.add_assoc, Nat.add_sub_cancel_left] at apart
    have far := Nat.le_of_dvd (Nat.succ_pos k) (Nat.dvd_of_mod_eq_zero apart)
    omega
  simp only [World.slot, own, World.setRank, World.setObject, Function.update_self, kept, other,
    false_and, if_false, Bool.false_eq_true, and_false]
  by_cases before : id < (w.ranks r).counter
  · rw [if_pos before, if_pos (by omega)]
  · rw [if_neg before, if_neg (by have := next (by omega); omega)]

/-- **The other callables stay as they are.** -/
theorem World.Step.slot_of_ne (step : World.Step size count callables w event w')
    (inv : WorldInv size w) {id : Nat} (other : id ≠ (w.ranks event.rank).counter) :
    w'.slot size id = w.slot size id := by
  by_cases own : id % size = event.rank
  · cases step with
    | run r below more outside moved | handleSuccess r below inside all moved
    | test r below called moved =>
        obtain rfl : id % size = r := own
        refine slot_eq_of_ne ?_ other (Function.update_of_ne other _ _) rfl
        simp [World.setRank, World.test]
    | work r below running moved =>
        obtain rfl : id % size = r := own
        exact slot_eq_of_ne rfl other (Function.update_of_ne other _ _) rfl
    | checkAgain r below running moved posted | checkFirst r below running moved posted =>
        obtain rfl : id % size = r := own
        refine slot_eq_of_ne ?_ other rfl ?_
        · simp [World.checkAgain, World.checkFirst]
        · exact congrArg Interrupter.calls (Function.update_of_ne other _ _)
    | send r below inside moved next =>
        obtain rfl : id % size = r := own
        exact slot_eq_of_ne (by simp [World.send]) other rfl rfl
    | returns r below running moved =>
        exact slot_eq_of_returns own (inv.ranks r below).counter other
    | @deliver r message below sent =>
        obtain rfl : id % size = r := own
        exact slot_eq_of_ne (by simp [World.deliver]) other rfl (calls_deliver _ message id)
  · obtain ⟨rank, owned⟩ := step.elsewhere inv own
    obtain ⟨object, interrupter⟩ := owned id rfl
    simp only [World.slot, rank, object, interrupter]

/-- The current callable of a rank. -/
theorem slot_inside {r id : Nat} (own : id % size = r) (here : id = (w.ranks r).counter)
    (entered : (w.ranks r).entered = true) :
    w.slot size id = ⟨.inside, w.objects id, (w.interrupters id).calls,
      (w.ranks r).checking.isSome, (w.ranks r).sent⟩ := by
  rw [World.slot, own]
  simp [here, entered]

theorem slot_waiting {r id : Nat} (own : id % size = r) (here : id = (w.ranks r).counter)
    (outside : (w.ranks r).entered = false) :
    w.slot size id = ⟨.waiting, w.objects id, (w.interrupters id).calls, false, 0⟩ := by
  rw [World.slot, own]
  simp [here, outside]

theorem slot_returned {r id : Nat} (own : id % size = r) (passed : id < (w.ranks r).counter) :
    w.slot size id = ⟨.returned, w.objects id, (w.interrupters id).calls, false, 0⟩ := by
  rw [World.slot, own]
  simp [passed]

theorem slot_object (size : Nat) (w : World Object) (id : Nat) :
    (w.slot size id).object = w.objects id := by
  rw [World.slot]
  split
  · rfl
  · split <;> rfl

/-- Rank `r` makes a move with its current callable, and the others stay as they are. A
check that says stop is the first of its callable, and the rank has got a message. -/
structure Moved (size count : Nat) (callables : Nat → AbstractCallable Object)
    (w : World Object) (event : Event) (w' : World Object) (r : Nat) (move : Move)
    (slot' : Slot Object) : Prop where
  label : event = move.event r
  below : r < size
  more : (w.ranks r).counter < count
  own : Slot.Step size (callables (w.ranks r).counter) (w.slot size (w.ranks r).counter) move
    slot'
  slots : w'.slot size = Function.update (w.slot size) (w.ranks r).counter slot'
  heard : move = .test false →
    (w.slot size (w.ranks r).counter).calls = 1 ∧ (w.ranks r).messages ≠ []

/-- **What a step does to the callables**: a rank makes a move with its current one, or a
stop is delivered. -/
theorem World.Step.slot_cases (step : World.Step size count callables w event w')
    (inv : WorldInv size w) (tidy : w.Tidy size count) :
    ((∃ r message, event = .deliver r message) ∧ w'.slot size = w.slot size) ∨
      ∃ r move slot', Moved size count callables w event w' r move slot' := by
  have moves : ∀ {move : Move} {before after : Slot Object},
      w.slot size (w.ranks event.rank).counter = before →
      w'.slot size (w.ranks event.rank).counter = after → event = move.event event.rank →
      event.rank < size → (w.ranks event.rank).counter < count →
      Slot.Step size (callables (w.ranks event.rank).counter) before move after →
      (move = .test false → before.calls = 1 ∧ (w.ranks event.rank).messages ≠ []) →
      ((∃ r message, event = .deliver r message) ∧ w'.slot size = w.slot size) ∨
        ∃ r move slot', Moved size count callables w event w' r move slot' := by
    rintro move before after rfl rfl label below more own heard
    refine .inr ⟨event.rank, move, _, label, below, more, own, funext fun id => ?_, heard⟩
    by_cases same : id = (w.ranks event.rank).counter
    · subst same
      rw [Function.update_self]
    · rw [Function.update_of_ne same]
      exact step.slot_of_ne inv same
  cases step with
  | run r below more outside own =>
      have congruent := (inv.ranks r below).counter
      obtain ⟨free, unsent⟩ := tidy.outside r below outside
      have before := slot_waiting congruent rfl outside
      refine moves before ?_ rfl below more (.run own) (by simp)
      simp [World.slot, World.setRank, World.setObject, Event.rank, congruent, free, unsent]
  | work r below running own =>
      have congruent := (inv.ranks r below).counter
      have before := slot_inside congruent rfl running.1.1
      rw [running.1.2, running.2] at before
      refine moves before ?_ rfl below (tidy.more r below running.1.1) (.work own) (by simp)
      simp [World.slot, World.setObject, Event.rank, congruent, running.1.1, running.1.2,
        running.2]
  | checkAgain r below running own posted =>
      have congruent := (inv.ranks r below).counter
      have before := slot_inside congruent rfl running.1.1
      rw [running.1.2, running.2] at before
      refine moves before ?_ rfl below (tidy.more r below running.1.1) (.check own) (by simp)
      simp [World.slot, World.checkAgain, World.current, Interrupter.again, Event.rank,
        congruent, running.1.1, running.2]
  | checkFirst r below running own unposted =>
      have congruent := (inv.ranks r below).counter
      have before := slot_inside congruent rfl running.1.1
      rw [running.1.2, running.2] at before
      refine moves before ?_ rfl below (tidy.more r below running.1.1) (.check own) (by simp)
      simp [World.slot, World.checkFirst, World.current, Interrupter.irecv, Event.rank,
        congruent, running.1.1, running.2]
  | test r below called own =>
      have congruent := (inv.ranks r below).counter
      have busy : (w.ranks r).checking ≠ none := by
        rw [called]
        exact Option.some_ne_none _
      have entered : (w.ranks r).entered = true := by
        cases outside : (w.ranks r).entered with
        | true => rfl
        | false => exact absurd (tidy.outside r below outside).1 busy
      have before := slot_inside congruent rfl entered
      rw [called, Option.isSome_some] at before
      refine moves before ?_ rfl below (tidy.more r below entered) (.test own) ?_
      · simp [World.slot, World.test, Event.rank, congruent, entered]
      · intro stopped
        have answer : (w.current r).checkNextSyncCall = false := Move.test.inj stopped
        obtain ⟨first, enough⟩ :=
          ((inv.ranks r below).answer (inv.interrupters _) busy).mp answer
        refine ⟨first, fun nothing => ?_⟩
        have nothing : (w.ranks r).messages = [] := nothing
        have last := ((inv.ranks r below).checking busy).2 first
        rw [nothing, List.length_nil, Nat.le_zero, List.length_eq_zero_iff] at enough
        rw [enough] at last
        cases last
  | send r below inside own next =>
      have congruent := (inv.ranks r below).counter
      have before := slot_inside congruent rfl inside.1
      rw [inside.2] at before
      refine moves before ?_ rfl below (tidy.more r below inside.1) (.send own next) (by simp)
      simp [World.slot, World.send, Event.rank, congruent, inside.1, inside.2]
  | handleSuccess r below inside full own =>
      have congruent := (inv.ranks r below).counter
      have before := slot_inside congruent rfl inside.1
      rw [inside.2, full] at before
      refine moves before ?_ rfl below (tidy.more r below inside.1) (.handleSuccess own) (by simp)
      simp [World.slot, World.setRank, World.setObject, Event.rank, congruent, inside.1,
        inside.2]
  | returns r below running own =>
      have congruent := (inv.ranks r below).counter
      have before := slot_inside congruent rfl running.1.1
      rw [running.1.2, running.2] at before
      have positive : 0 < size := Nat.zero_lt_of_lt below
      refine moves before ?_ rfl below (tidy.more r below running.1.1) (.returns own) (by simp)
      simp [World.slot, World.setRank, World.setObject, Event.rank, congruent, positive]
  | @deliver r message below sent =>
      refine .inl ⟨⟨r, message, rfl⟩, funext fun id => ?_⟩
      have rank : ∀ t, ((w.deliver r message).ranks t).counter = (w.ranks t).counter ∧
          ((w.deliver r message).ranks t).entered = (w.ranks t).entered ∧
          ((w.deliver r message).ranks t).checking = (w.ranks t).checking ∧
          ((w.deliver r message).ranks t).sent = (w.ranks t).sent := by
        intro t
        by_cases same : t = r
        · subst same
          simp [World.deliver]
        · simp [World.deliver, Function.update_of_ne same]
      obtain ⟨counter, entered, checking, sent⟩ := rank (id % size)
      have objects : (w.deliver r message).objects = w.objects := rfl
      simp only [World.slot, counter, entered, checking, sent, calls_deliver, objects]

end Slots

end ParallelLabs.Mpi
