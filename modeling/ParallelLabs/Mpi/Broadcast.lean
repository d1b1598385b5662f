import ParallelLabs.Mpi.PointToPoint

/-!
# `MPIParallelRunner.h`: the broadcast interrupter

`handle_success` of this interrupter takes part in a collective broadcast with rank 0
as its root. The call of rank 0 sends its string to all other ranks and may return at
once. The call of another rank waits for the string of rank 0. The check is that of
the point-to-point interrupter, with another string: it polls a receive, and a
broadcast never matches a receive.

So no check ever sees the success (`WorldInv.answers`). As long as rank 0 has not
called `broadcast`, nothing is sent, and no call of another rank returns
(`WorldInv.unsent`). A success on another rank than 0 waits forever, and nothing is
promised about the checks after it. After a success on rank 0 the other ranks go on
(`stopLearned_iff`).
-/

set_option autoImplicit false

namespace ParallelLabs.Mpi.Broadcast

open Library Callables

/-- The string of `handle_success`. -/
def finished : String := "finished"

/-- What `check_next_sync_call` returns. The members are those of the point-to-point
interrupter. -/
def checkNextSyncCall (i : Interrupter) : Bool := !(i.received.isSome && i.msg == finished)

/-- What held when a check was called: the ranks on which `handle_success` had
returned, and the number of messages in flight. -/
structure Before where
  returned : List Nat
  inFlight : Nat
  deriving DecidableEq, Repr

/-- A completed check. -/
structure Check where
  rank : Nat
  before : Before
  /-- The number of the call on its interrupter. -/
  call : Nat
  answer : Bool
  deriving DecidableEq, Repr

/-- A rank in the loop of `MPIParallelRunner::run`. -/
structure Rank where
  /-- The number of the current callable. -/
  counter : Nat
  entered : Bool
  /-- Inside a check. -/
  checking : Option Before
  /-- Inside a call of `handle_success`. -/
  broadcasting : Bool
  /-- The calls of `broadcast` so far. -/
  calls : Nat
  /-- The static string `finished`. -/
  finished : String
  box : Mailbox Nat String
  /-- The strings of rank 0 that were delivered. -/
  arrived : List String

/-- The rank is inside `run` of its callable, and not inside a check or a call of
`handle_success`. -/
def Rank.Running (rank : Rank) : Prop :=
  rank.entered = true ∧ rank.checking = none ∧ rank.broadcasting = false

def Rank.setArrived (rank : Rank) (arrived : List String) : Rank := { rank with arrived := arrived }

/-- The ranks, the callables and their interrupters, the strings of rank 0 on their way,
each with its destination, the ranks on which `handle_success` has returned, and the
checks completed. -/
structure World (Object : Type) where
  ranks : Nat → Rank
  objects : Nat → Object
  interrupters : Nat → Interrupter
  inFlight : List (Nat × String)
  returned : List Nat
  checks : List Check

inductive Event where
  | run (rank : Nat)
  | work (rank : Nat)
  | checkNextSyncCall (rank : Nat)
  | test (rank : Nat)
  | broadcast (rank : Nat)
  | handleSuccess (rank : Nat)
  | returns (rank : Nat)
  | deliver (rank : Nat) (message : String)
  deriving DecidableEq, Repr

namespace World

variable {Object : Type} (w : World Object) (r : Nat)

/-- The interrupter of the current callable of a rank. -/
def current : Interrupter := w.interrupters (w.ranks r).counter

def before : Before := ⟨w.returned, w.inFlight.length⟩

/-- The string that a call of `broadcast` leaves in the buffer, if it may return: that
of the rank itself for the root, and what has arrived for this call elsewhere. -/
def broadcastResult : Option String :=
  if r = 0 then some (w.ranks r).finished else (w.ranks r).arrived[(w.ranks r).calls - 1]?

def setRank (rank : Rank) : World Object := { w with ranks := Function.update w.ranks r rank }

def setObject (object : Object) : World Object :=
  { w with objects := Function.update w.objects (w.ranks r).counter object }

/-- A check is called and a receive of its interrupter is posted already. -/
def checkAgain : World Object :=
  { w with
    ranks := Function.update w.ranks r { w.ranks r with checking := some w.before }
    interrupters := Function.update w.interrupters (w.ranks r).counter (w.current r).again }

/-- A check is called and posts the receive. -/
def checkFirst : World Object :=
  { w with
    ranks := Function.update w.ranks r
      { w.ranks r with
        checking := some w.before
        box := ((w.ranks r).box.post (w.ranks r).counter).2 }
    interrupters :=
      Function.update w.interrupters (w.ranks r).counter
        ((w.current r).irecv ((w.ranks r).box.post (w.ranks r).counter).1) }

/-- A check tests the receive and returns. -/
def test (before : Before) (object : Object) : World Object :=
  { w with
    ranks := Function.update w.ranks r { w.ranks r with checking := none }
    objects := Function.update w.objects (w.ranks r).counter object
    checks := w.checks ++ [⟨r, before, (w.current r).calls, checkNextSyncCall (w.current r)⟩] }

/-- `handle_success` sets the string and calls `broadcast`. On rank 0 the string is sent
to all other ranks. -/
def broadcast (size : Nat) : World Object :=
  { w with
    ranks := Function.update w.ranks r
      { w.ranks r with
        broadcasting := true, calls := (w.ranks r).calls + 1, finished := Broadcast.finished }
    inFlight :=
      if r = 0 then
        w.inFlight ++ (List.range' 1 (size - 1)).map fun other => (other, Broadcast.finished)
      else w.inFlight }

/-- `broadcast` and `handle_success` return. -/
def handleSuccess (buffer : String) (object : Object) : World Object :=
  { w with
    ranks := Function.update w.ranks r
      { w.ranks r with broadcasting := false, finished := buffer }
    objects := Function.update w.objects (w.ranks r).counter object
    returned := w.returned ++ [r] }

/-- A string of rank 0 arrives. No receive matches it. -/
def deliver (message : String) : World Object :=
  { w with
    ranks := Function.update w.ranks r ((w.ranks r).setArrived ((w.ranks r).arrived ++ [message]))
    inFlight := w.inFlight.erase (r, message) }

end World

section Steps

variable {Object : Type} (size count : Nat) (callables : Nat → AbstractCallable Object)

/-- The steps of the ranks and of the network, for `count` callables on `size` ranks. -/
inductive World.Step (w : World Object) : Event → World Object → Prop where
  /-- The loop enters `run` of the current callable. -/
  | run (r : Nat) {object : Object} (rank : r < size) (more : (w.ranks r).counter < count)
      (outside : (w.ranks r).entered = false)
      (own : (callables (w.ranks r).counter).step (w.objects (w.ranks r).counter) .run object) :
      World.Step w (.run r) ((w.setObject r object).setRank r { w.ranks r with entered := true })
  | work (r : Nat) {object : Object} (rank : r < size) (running : (w.ranks r).Running)
      (own : (callables (w.ranks r).counter).step (w.objects (w.ranks r).counter) .work object) :
      World.Step w (.work r) (w.setObject r object)
  | checkAgain (r : Nat) (rank : r < size) (running : (w.ranks r).Running)
      (own : (callables (w.ranks r).counter).Checks (w.objects (w.ranks r).counter))
      (posted : (w.current r).responding = true) :
      World.Step w (.checkNextSyncCall r) (w.checkAgain r)
  | checkFirst (r : Nat) (rank : r < size) (running : (w.ranks r).Running)
      (own : (callables (w.ranks r).counter).Checks (w.objects (w.ranks r).counter))
      (unposted : (w.current r).responding = false) :
      World.Step w (.checkNextSyncCall r) (w.checkFirst r)
  | test (r : Nat) {before : Before} {object : Object} (rank : r < size)
      (called : (w.ranks r).checking = some before)
      (own : (callables (w.ranks r).counter).step (w.objects (w.ranks r).counter)
        (.checkNextSyncCall (checkNextSyncCall (w.current r))) object) :
      World.Step w (.test r) (w.test r before object)
  | broadcast (r : Nat) (rank : r < size) (running : (w.ranks r).Running)
      (own : (callables (w.ranks r).counter).Notifies (w.objects (w.ranks r).counter)) :
      World.Step w (.broadcast r) (w.broadcast r size)
  | handleSuccess (r : Nat) {buffer : String} {object : Object} (rank : r < size)
      (inside : (w.ranks r).broadcasting = true) (complete : w.broadcastResult r = some buffer)
      (own : (callables (w.ranks r).counter).step (w.objects (w.ranks r).counter) .handleSuccess
        object) :
      World.Step w (.handleSuccess r) (w.handleSuccess r buffer object)
  /-- `run` returns, and the loop goes on to `counter + size`. -/
  | returns (r : Nat) {object : Object} (rank : r < size) (running : (w.ranks r).Running)
      (own : (callables (w.ranks r).counter).step (w.objects (w.ranks r).counter) .returns object) :
      World.Step w (.returns r) ((w.setObject r object).setRank r
        { w.ranks r with counter := (w.ranks r).counter + size, entered := false })
  | deliver (r : Nat) {message : String} (sent : (r, message) ∈ w.inFlight) :
      World.Step w (.deliver r message) (w.deliver r message)

/-- Every rank is about to enter its loop. -/
def Started (w : World Object) : Prop :=
  (∀ r, w.ranks r = ⟨r, false, none, false, 0, "", .empty, []⟩) ∧
    (∀ id, (callables id).initial (w.objects id)) ∧
    (∀ id, w.interrupters id = .make) ∧ w.inFlight = [] ∧ w.returned = [] ∧ w.checks = []

end Steps

/-! ## Invariants -/

/-- Nothing has been sent, and no call of `handle_success` has returned. -/
structure Unsent {Object : Type} (w : World Object) : Prop where
  inFlight : w.inFlight = []
  arrived : ∀ r, (w.ranks r).arrived = []
  returned : w.returned = []
  checking : ∀ (r : Nat) (before : Before), (w.ranks r).checking = some before →
    before.returned = []
  checks : ∀ check ∈ w.checks, check.before.returned = []

/-- **The invariant of the world.** No receive gets a message, and nothing is sent
before rank 0 calls `broadcast`. -/
structure WorldInv {Object : Type} (w : World Object) : Prop where
  queued : ∀ r, (w.ranks r).box.queued = []
  received : ∀ id, (w.interrupters id).received = none
  answers : ∀ check ∈ w.checks, check.answer = true
  called : ∀ r, (w.ranks r).broadcasting = true → 0 < (w.ranks r).calls
  unsent : (w.ranks 0).calls = 0 → Unsent w

namespace WorldInv

variable {Object : Type} {w w' : World Object} (inv : WorldInv w)

include inv

/-- One rank changes. It keeps its calls or makes more, and while rank 0 has made none,
what is sent, returned and checked stays as it is. -/
theorem update {r : Nat} {rank : Rank} (ranks : w'.ranks = Function.update w.ranks r rank)
    (queued : rank.box.queued = []) (received : ∀ id, (w'.interrupters id).received = none)
    (answers : ∀ check ∈ w'.checks, check.answer = true)
    (called : rank.broadcasting = true → 0 < rank.calls) (more : (w.ranks r).calls ≤ rank.calls)
    (unsent : Unsent w → (w.ranks 0).calls = 0 → (r = 0 → rank.calls = 0) →
      w'.inFlight = [] ∧ rank.arrived = [] ∧ w'.returned = [] ∧
        (∀ before : Before, rank.checking = some before → before.returned = []) ∧
        ∀ check ∈ w'.checks, check.before.returned = []) :
    WorldInv w' := by
  refine ⟨?_, received, answers, ?_, fun uncalled => ?_⟩
  · rw [ranks]
    exact (Function.forall_update_iff w.ranks fun _ rank => rank.box.queued = []).mpr
      ⟨queued, fun r _ => inv.queued r⟩
  · rw [ranks]
    exact (Function.forall_update_iff w.ranks fun _ rank =>
      rank.broadcasting = true → 0 < rank.calls).mpr ⟨called, fun r _ => inv.called r⟩
  · have root : (w.ranks 0).calls = 0 ∧ (r = 0 → rank.calls = 0) := by
      rw [ranks] at uncalled
      rcases eq_or_ne r 0 with rfl | other
      · rw [Function.update_self] at uncalled
        exact ⟨Nat.le_zero.mp (uncalled ▸ more), fun _ => uncalled⟩
      · rw [Function.update_of_ne other.symm] at uncalled
        exact ⟨uncalled, fun zero => absurd zero other⟩
    have earlier := inv.unsent root.1
    obtain ⟨inFlight, arrived, returned, checking, checks⟩ := unsent earlier root.1 root.2
    refine ⟨inFlight, ?_, returned, ?_, checks⟩
    · rw [ranks]
      exact (Function.forall_update_iff w.ranks fun _ rank => rank.arrived = []).mpr
        ⟨arrived, fun r _ => earlier.arrived r⟩
    · rw [ranks]
      exact (Function.forall_update_iff w.ranks fun _ rank =>
        ∀ before : Before, rank.checking = some before → before.returned = []).mpr
          ⟨checking, fun r _ => earlier.checking r⟩

theorem interrupters_update (id : Nat) {i : Interrupter} (changed : i.received = none)
    (id' : Nat) : (Function.update w.interrupters id i id').received = none :=
  (Function.forall_update_iff w.interrupters fun _ i => i.received = none).mpr
    ⟨changed, fun other _ => inv.received other⟩ id'

/-- The loop moves on. -/
theorem moves (r : Nat) (object : Object) (counter : Nat) (entered : Bool) :
    WorldInv ((w.setObject r object).setRank r
      { w.ranks r with counter := counter, entered := entered }) := by
  refine inv.update rfl (inv.queued r) inv.received inv.answers (inv.called r) (Nat.le_refl _) ?_
  exact fun unsent _ _ => ⟨unsent.inFlight, unsent.arrived r, unsent.returned, unsent.checking r,
    unsent.checks⟩

theorem checkAgain (r : Nat) : WorldInv (w.checkAgain r) := by
  refine inv.update rfl (inv.queued r) (inv.interrupters_update _ (inv.received _)) inv.answers
    (inv.called r) (Nat.le_refl _) ?_
  refine fun unsent _ _ => ⟨unsent.inFlight, unsent.arrived r, unsent.returned, ?_, unsent.checks⟩
  intro before checked
  obtain rfl : w.before = before := Option.some.inj checked
  exact unsent.returned

theorem checkFirst (r : Nat) : WorldInv (w.checkFirst r) := by
  have post : (w.ranks r).box.post (w.ranks r).counter =
      (none, ⟨(w.ranks r).box.pending ++ [(w.ranks r).counter], []⟩) := by
    rw [Mailbox.post, inv.queued r]
  refine inv.update rfl ?_ (inv.interrupters_update _ ?_) inv.answers (inv.called r)
    (Nat.le_refl _) ?_
  · rw [post]
  · rw [post]
    rfl
  · refine fun unsent _ _ => ⟨unsent.inFlight, unsent.arrived r, unsent.returned, ?_,
      unsent.checks⟩
    intro before checked
    obtain rfl : w.before = before := Option.some.inj checked
    exact unsent.returned

/-- Every check answers true. -/
theorem check_eq (r : Nat) : checkNextSyncCall (w.current r) = true := by
  rw [checkNextSyncCall, World.current, inv.received]
  rfl

theorem test {r : Nat} {before : Before} (object : Object)
    (called : (w.ranks r).checking = some before) : WorldInv (w.test r before object) := by
  refine inv.update rfl (inv.queued r) inv.received ?_ (inv.called r) (Nat.le_refl _) ?_
  · intro check member
    rcases List.mem_append.mp member with earlier | last
    · exact inv.answers check earlier
    · rw [List.mem_singleton.mp last]
      exact inv.check_eq r
  · refine fun unsent _ _ => ⟨unsent.inFlight, unsent.arrived r, unsent.returned,
      (fun _ checked => by cases checked), fun check member => ?_⟩
    rcases List.mem_append.mp member with earlier | last
    · exact unsent.checks check earlier
    · rw [List.mem_singleton.mp last]
      exact unsent.checking r before called

theorem broadcast (r size : Nat) : WorldInv (w.broadcast r size) := by
  refine inv.update rfl (inv.queued r) inv.received inv.answers (fun _ => Nat.succ_pos _)
    (Nat.le_succ _) ?_
  intro unsent _ root
  have other : r ≠ 0 := fun zero => absurd (root zero) (Nat.succ_ne_zero _)
  refine ⟨?_, unsent.arrived r, unsent.returned, unsent.checking r, unsent.checks⟩
  rw [World.broadcast, if_neg other]
  exact unsent.inFlight

theorem handleSuccess {r : Nat} {buffer : String} (object : Object)
    (inside : (w.ranks r).broadcasting = true) (complete : w.broadcastResult r = some buffer) :
    WorldInv (w.handleSuccess r buffer object) := by
  refine inv.update rfl (inv.queued r) inv.received inv.answers (fun left => by cases left)
    (Nat.le_refl _) ?_
  -- The root has called, and elsewhere the call waits.
  intro unsent uncalled _
  exfalso
  rcases eq_or_ne r 0 with rfl | other
  · exact absurd uncalled (Nat.ne_of_gt (inv.called 0 inside))
  · rw [World.broadcastResult, if_neg other, unsent.arrived r] at complete
    cases complete

theorem deliver {r : Nat} {message : String} (sent : (r, message) ∈ w.inFlight) :
    WorldInv (w.deliver r message) := by
  refine inv.update rfl (inv.queued r) inv.received inv.answers (inv.called r) (Nat.le_refl _) ?_
  intro unsent _ _
  rw [unsent.inFlight] at sent
  cases sent

/-- **A step keeps the invariant.** -/
theorem step {size count : Nat} {callables : Nat → AbstractCallable Object} {event : Event}
    (next : World.Step size count callables w event w') : WorldInv w' := by
  cases next with
  | run r rank more outside own => exact inv.moves r _ (w.ranks r).counter true
  | work r rank running own =>
      exact ⟨inv.queued, inv.received, inv.answers, inv.called, fun uncalled =>
        let unsent := inv.unsent uncalled
        ⟨unsent.inFlight, unsent.arrived, unsent.returned, unsent.checking, unsent.checks⟩⟩
  | checkAgain r rank running own posted => exact inv.checkAgain r
  | checkFirst r rank running own unposted => exact inv.checkFirst r
  | test r rank called own => exact inv.test _ called
  | broadcast r rank running own => exact inv.broadcast r size
  | handleSuccess r rank inside complete own => exact inv.handleSuccess _ inside complete
  | returns r rank running own => exact inv.moves r _ _ false
  | deliver r sent => exact inv.deliver sent

omit inv

theorem of_started {callables : Nat → AbstractCallable Object} (started : Started callables w) :
    WorldInv w := by
  obtain ⟨ranks, -, interrupters, inFlight, returned, checks⟩ := started
  refine ⟨fun r => ?_, fun id => ?_, fun check member => ?_, fun r inside => ?_, fun _ => ?_⟩
  · rw [ranks]
    rfl
  · rw [interrupters]
    rfl
  · rw [checks] at member
    cases member
  · rw [ranks] at inside
    cases inside
  · refine ⟨inFlight, fun r => ?_, returned, fun r before checked => ?_, fun check member => ?_⟩
    · rw [ranks]
    · rw [ranks] at checked
      cases checked
    · rw [checks] at member
      cases member

/-- The invariant holds in every run. -/
theorem of_run {size count : Nat} {callables : Nat → AbstractCallable Object}
    {events : List Event}
    (run : Run (World.Step size count callables) (Started callables) events w) : WorldInv w :=
  run.invariant (fun _ w => WorldInv w) (fun _ started => .of_started started)
    fun _ _ _ _ inv next => inv.step next

end WorldInv

/-! ## The stop -/

section Stop

variable {Object : Type}

/-- No other rank has called `handle_success`. -/
def World.OnlyBy (r : Nat) (w : World Object) : Prop :=
  ∀ other, other ≠ r → (w.ranks other).calls = 0

/-- **The stop is learned**: a check on another rank, called for the first time after
`handle_success` had returned and all messages had been delivered, returned false. -/
def World.StopLearned (r : Nat) (w : World Object) : Prop :=
  ∀ check ∈ w.checks, check.rank ≠ r → check.call = 1 → r ∈ check.before.returned →
    check.before.inFlight = 0 → check.answer = false

/-- A success on another rank than 0 waits for rank 0. -/
theorem stopLearned_of_ne {size count r : Nat} {callables : Nat → AbstractCallable Object}
    {events : List Event} {w : World Object} (other : r ≠ 0)
    (run : Run (World.Step size count callables) (Started callables) events w)
    (only : w.OnlyBy r) : w.StopLearned r := by
  have unsent := (WorldInv.of_run run).unsent (only 0 other.symm)
  intro check member _ _ returned _
  rw [unsent.checks check member] at returned
  cases returned

/-- The world after the messages in flight have been delivered. -/
structure Delivered (w w' : World Object) : Prop where
  ranks : ∀ r, ∃ arrived, w'.ranks r = (w.ranks r).setArrived arrived
  objects : w'.objects = w.objects
  interrupters : w'.interrupters = w.interrupters
  inFlight : w'.inFlight = []
  returned : w'.returned = w.returned

theorem deliver_ranks (w : World Object) (r : Nat) (message : String) (other : Nat) :
    ∃ arrived, (w.deliver r message).ranks other = (w.ranks other).setArrived arrived := by
  rcases eq_or_ne other r with rfl | apart
  · exact ⟨_, Function.update_self ..⟩
  · exact ⟨(w.ranks other).arrived, Function.update_of_ne apart ..⟩

/-- All messages can be delivered. -/
theorem exists_delivered {size count : Nat} {callables : Nat → AbstractCallable Object}
    {events : List Event} {w : World Object}
    (run : Run (World.Step size count callables) (Started callables) events w) :
    ∃ events' w', Run (World.Step size count callables) (Started callables) events' w' ∧
      Delivered w w' := by
  induction left : w.inFlight generalizing events w with
  | nil => exact ⟨events, w, run, fun r => ⟨_, rfl⟩, rfl, rfl, left, rfl⟩
  | cons message rest ih =>
      obtain ⟨r, text⟩ := message
      have sent : (r, text) ∈ w.inFlight := left ▸ List.mem_cons_self ..
      have erased : (w.deliver r text).inFlight = rest := by
        rw [World.deliver, left, List.erase_cons_head]
      obtain ⟨events', w', run', delivered⟩ := ih (run.snoc (.deliver r sent)) erased
      refine ⟨events', w', run', fun other => ?_, delivered.objects, delivered.interrupters,
        delivered.inFlight, delivered.returned⟩
      obtain ⟨arrived, same⟩ := delivered.ranks other
      obtain ⟨_, here⟩ := deliver_ranks w r text other
      exact ⟨arrived, same.trans (here ▸ rfl)⟩

/-- A rank that is about to make the first check of an interrupter makes it, and goes on. -/
theorem exists_check {size count r : Nat} {callables : Nat → AbstractCallable Object}
    {events : List Event} {w : World Object} {object : Object}
    (run : Run (World.Step size count callables) (Started callables) events w) (rank : r < size)
    (running : (w.ranks r).Running) (unposted : (w.current r).responding = false)
    (own : (callables (w.ranks r).counter).step (w.objects (w.ranks r).counter)
      (.checkNextSyncCall true) object) :
    ∃ events' w', Run (World.Step size count callables) (Started callables) events' w' ∧
      (∀ other, (w'.ranks other).calls = (w.ranks other).calls) ∧
      ⟨r, w.before, (w.current r).calls + 1, true⟩ ∈ w'.checks := by
  have called := run.snoc (.checkFirst r rank running ⟨true, object, own⟩ unposted)
  have here : (w.checkFirst r).ranks r = { w.ranks r with
      checking := some w.before
      box := ((w.ranks r).box.post (w.ranks r).counter).2 } := Function.update_self ..
  have answer := (WorldInv.of_run called).check_eq r
  have interrupter : ((w.checkFirst r).current r).calls = (w.current r).calls + 1 := by
    rw [World.current, here]
    show (Function.update w.interrupters (w.ranks r).counter _ (w.ranks r).counter).calls = _
    rw [Function.update_self]
    rfl
  have checking : ((w.checkFirst r).ranks r).checking = some w.before := by rw [here]
  have answered : (callables ((w.checkFirst r).ranks r).counter).step
      ((w.checkFirst r).objects ((w.checkFirst r).ranks r).counter)
      (.checkNextSyncCall (checkNextSyncCall ((w.checkFirst r).current r))) object := by
    rw [here, answer]
    exact own
  have tested := called.snoc (.test r rank checking answered)
  refine ⟨_, _, tested, fun other => ?_, ?_⟩
  · rcases eq_or_ne other r with rfl | apart
    · refine (congrArg Rank.calls (Function.update_self ..)).trans ?_
      rw [here]
    · refine (congrArg Rank.calls (Function.update_of_ne apart ..)).trans ?_
      exact congrArg Rank.calls (Function.update_of_ne apart ..)
  · refine List.mem_append_right _ ?_
    rw [interrupter, answer]
    exact List.mem_singleton_self _

end Stop

/-- Objects that have just been added to the runner. -/
def added : World (State Unit Unit Bool) where
  ranks r := ⟨r, false, none, false, 0, "", .empty, []⟩
  objects _ := ⟨(Fields.make true).setSigHandler (some ()), .idle⟩
  interrupters _ := .make
  inFlight := []
  returned := []
  checks := []

theorem run_added (size count : Nat) (kinds : Nat → Class Unit) :
    Run (World.Step size count fun id => .ofClass (kinds id))
      (Started fun id => .ofClass (kinds id)) [] added :=
  .start ⟨fun _ => rfl, fun _ => ⟨true, rfl⟩, fun _ => rfl, rfl, rfl, rfl⟩

/-- **A success on rank 0 is not learned**, on any number of ranks from two on: rank 1 is
about to make its first check when the `Callable` of rank 0 succeeds, and goes on after
all messages have been delivered. -/
theorem not_learned {size : Nat} (two : 2 ≤ size) :
    ∃ (events : List Event) (w : World (State Unit Unit Bool)),
      Run (World.Step size 2 fun id => .ofClass (callableFirst id))
        (Started fun id => .ofClass (callableFirst id)) events w ∧
      w.OnlyBy 0 ∧ ¬ w.StopLearned 0 := by
  have zero : 0 < size := Nat.lt_of_lt_of_le Nat.two_pos two
  have one : 1 < size := two
  have succeeded := run_added size 2 callableFirst
    |>.snoc (.run 1 one Nat.one_lt_two rfl (.inr (.run _ rfl)))
    |>.snoc (.work 1 one ⟨rfl, rfl, rfl⟩ ⟨_, .hasNext true, .inr (.more _)⟩)
    |>.snoc (.work 1 one ⟨rfl, rfl, rfl⟩ ⟨_, .next (), .inr (.next _ ())⟩)
    |>.snoc (.run 0 zero Nat.two_pos rfl (.inr (.run _ rfl)))
    |>.snoc (.work 0 zero ⟨rfl, rfl, rfl⟩ ⟨_, .call _ () true, .inr (.call _ true)⟩)
    |>.snoc (.work 0 zero ⟨rfl, rfl, rfl⟩
      ⟨_, .resultChecker _ true true, .inr (.accepted _ true rfl)⟩)
    |>.snoc (.broadcast 0 zero ⟨rfl, rfl, rfl⟩ ⟨_, .inr (.handleSuccess _ () rfl)⟩)
    |>.snoc (.handleSuccess 0 zero rfl rfl (.inr (.handleSuccess _ () rfl)))
  obtain ⟨events, w, run, delivered⟩ := exists_delivered succeeded
  have calls : ∀ other ≠ 0, (w.ranks other).calls = 0 := by
    intro other apart
    obtain ⟨arrived, rank⟩ := delivered.ranks other
    rw [rank]
    rcases eq_or_ne other 1 with rfl | apart'
    · rfl
    · simp [Rank.setArrived, World.handleSuccess, World.broadcast, World.setRank, World.setObject,
        added, Function.update_of_ne apart, Function.update_of_ne apart']
  obtain ⟨arrived, rank⟩ := delivered.ranks 1
  have counter : (w.ranks 1).counter = 1 := by
    rw [rank]
    rfl
  have unposted : w.current 1 = .make := by
    rw [World.current, counter, delivered.interrupters]
    rfl
  obtain ⟨events', w', run', same, member⟩ := exists_check run one
    (by rw [rank]; exact ⟨rfl, rfl, rfl⟩) (by rw [unposted]; rfl)
    (by rw [counter, delivered.objects]; exact .inr (.goOn _ () () rfl))
  refine ⟨events', w', run', fun other apart => (same other).trans (calls other apart), ?_⟩
  intro learned
  have returned : 0 ∈ w.before.returned := by
    rw [World.before, delivered.returned]
    exact List.mem_singleton_self 0
  have quiet : w.before.inFlight = 0 := by
    rw [World.before, delivered.inFlight]
    rfl
  have stopped := learned _ member Nat.one_ne_zero (by rw [unposted]; rfl) returned quiet
  cases stopped

/-- **When the stop is learned**: for every number of ranks from two on, a success on rank
`r` alone is learned in every run if and only if `r` is not 0. -/
theorem stopLearned_iff {size r : Nat} (two : 2 ≤ size) (rank : r < size) :
    (∀ (Object : Type) (count : Nat) (callables : Nat → AbstractCallable Object)
      (events : List Event) (w : World Object),
      Run (World.Step size count callables) (Started callables) events w →
        w.OnlyBy r → w.StopLearned r) ↔ r ≠ 0 := by
  constructor
  · rintro learned rfl
    obtain ⟨events, w, run, only, missed⟩ := not_learned two
    exact missed (learned _ _ _ events w run only)
  · exact fun other Object count callables events w run only => stopLearned_of_ne other run only

/-- Three ranks, and a success on the last one. -/
theorem stopLearned_iff_three :
    (∀ (Object : Type) (count : Nat) (callables : Nat → AbstractCallable Object)
      (events : List Event) (w : World Object),
      Run (World.Step 3 count callables) (Started callables) events w →
        w.OnlyBy 2 → w.StopLearned 2) ↔ (2 : Nat) ≠ 0 :=
  stopLearned_iff (by decide) (by decide)

/-- Two ranks, and a success on rank 0. -/
theorem not_learned_two :
    ∃ (events : List Event) (w : World (State Unit Unit Bool)),
      Run (World.Step 2 2 fun id => .ofClass (callableFirst id))
        (Started fun id => .ofClass (callableFirst id)) events w ∧
      w.OnlyBy 0 ∧ ¬ w.StopLearned 0 :=
  not_learned (Nat.le_refl 2)

end ParallelLabs.Mpi.Broadcast
