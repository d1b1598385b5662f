import ParallelLabs.Callables.Abstract
import ParallelLabs.Library.Mailbox
import Mathlib.Data.List.Nodup
import Mathlib.Logic.Function.Basic

/-!
# `MPIParallelRunner.h`: the point-to-point interrupter

The callables are spread over the ranks: rank `r` runs the callables `r`,
`r + size`, `r + 2 * size`, and so on, one after the other, each with an
interrupter of its own. The first check of an interrupter posts a receive, into
a string of that call, and every check tests that receive. `handle_success` sends
one `stop` to every rank. Messages are delivered in any order, and a rank matches
its receives with its messages in order.

A receive stays posted when its callable returns, and takes a later message. So a
check sees the stop in one case only: it is the first of its interrupter, and the
rank has been delivered as many messages as it has posted receives
(`stopSeen_iff`).
-/

set_option autoImplicit false

namespace ParallelLabs.Mpi

open Library Callables

/-- The message of `handle_success`. -/
def stop : String := "stop"

/-- `MpiPointToPointSystemInterrupter`. The calls of its check are numbered from
`1`, and each has a string `msg` of its own. -/
structure Interrupter where
  responding : Bool
  /-- The calls of `check_next_sync_call` so far. -/
  calls : Nat
  /-- The call whose `msg` the receive writes to. -/
  target : Nat
  /-- What the receive has got. -/
  received : Option String
  deriving DecidableEq, Repr

namespace Interrupter

def make : Interrupter := ⟨false, 0, 0, none⟩

/-- A call finds a receive posted. -/
def again (i : Interrupter) : Interrupter := { i with calls := i.calls + 1 }

/-- A call posts the receive, which may get a message at once. -/
def irecv (i : Interrupter) (arrived : Option String) : Interrupter :=
  { responding := true, calls := i.calls + 1, target := i.calls + 1, received := arrived }

def receive (i : Interrupter) (message : String) : Interrupter :=
  { i with received := some message }

/-- The string `msg` of the current call. -/
def msg (i : Interrupter) : String := if i.target = i.calls then i.received.getD "" else ""

/-- What `check_next_sync_call` returns. -/
def checkNextSyncCall (i : Interrupter) : Bool := !(i.received.isSome && i.msg == stop)

end Interrupter

/-- A completed check: the rank and the messages delivered there when the check
was called, and what held when it tested the receive. -/
structure Check where
  rank : Nat
  deliveredBefore : Nat
  delivered : Nat
  /-- The receives posted at the rank. -/
  receives : Nat
  /-- The number of the call on its interrupter. -/
  call : Nat
  answer : Bool
  deriving DecidableEq, Repr

/-- A rank in the loop of `MPIParallelRunner::run`. It also records the receives
posted, by the number of their callable, and the messages delivered. -/
structure Rank where
  /-- The number of the current callable. -/
  counter : Nat
  entered : Bool
  /-- Inside a check, the messages delivered before it was called. -/
  checking : Option Nat
  /-- The sends of the current `handle_success`. -/
  sent : Nat
  box : Mailbox Nat String
  receives : List Nat
  messages : List String

/-- The rank is inside `run` of its callable, and not inside a check. -/
def Rank.Inside (rank : Rank) : Prop := rank.entered = true ∧ rank.checking = none

/-- Nor is it inside a call of `handle_success`. -/
def Rank.Running (rank : Rank) : Prop := rank.Inside ∧ rank.sent = 0

/-- The ranks, the callables and their interrupters, the messages on their way to
each rank, and the checks completed. -/
structure World (Object : Type) where
  ranks : Nat → Rank
  objects : Nat → Object
  interrupters : Nat → Interrupter
  inFlight : Nat → List String
  checks : List Check

inductive Event where
  | run (rank : Nat)
  | work (rank : Nat)
  | checkNextSyncCall (rank : Nat)
  | test (rank : Nat)
  | send (rank : Nat)
  | handleSuccess (rank : Nat)
  | returns (rank : Nat)
  | deliver (rank : Nat) (message : String)
  deriving DecidableEq, Repr

namespace World

variable {Object : Type} (w : World Object) (r : Nat)

/-- The interrupter of the current callable of a rank. -/
def current : Interrupter := w.interrupters (w.ranks r).counter

def setRank (rank : Rank) : World Object := { w with ranks := Function.update w.ranks r rank }

def setObject (object : Object) : World Object :=
  { w with objects := Function.update w.objects (w.ranks r).counter object }

/-- A check is called and a receive of its interrupter is posted already. -/
def checkAgain : World Object :=
  { w with
    ranks := Function.update w.ranks r
      { w.ranks r with checking := some (w.ranks r).messages.length }
    interrupters :=
      Function.update w.interrupters (w.ranks r).counter (w.current r).again }

/-- A check is called and posts the receive. -/
def checkFirst : World Object :=
  { w with
    ranks := Function.update w.ranks r
      { w.ranks r with
        checking := some (w.ranks r).messages.length
        box := ((w.ranks r).box.post (w.ranks r).counter).2
        receives := (w.ranks r).receives ++ [(w.ranks r).counter] }
    interrupters :=
      Function.update w.interrupters (w.ranks r).counter
        ((w.current r).irecv ((w.ranks r).box.post (w.ranks r).counter).1) }

/-- A check tests the receive and returns. -/
def test (deliveredBefore : Nat) (object : Object) : World Object :=
  { w with
    ranks := Function.update w.ranks r { w.ranks r with checking := none }
    objects := Function.update w.objects (w.ranks r).counter object
    checks := w.checks ++ [⟨r, deliveredBefore, (w.ranks r).messages.length,
      (w.ranks r).receives.length, (w.current r).calls, (w.current r).checkNextSyncCall⟩] }

/-- `handle_success` sends to the next rank. -/
def send : World Object :=
  { w with
    ranks := Function.update w.ranks r { w.ranks r with sent := (w.ranks r).sent + 1 }
    inFlight := Function.update w.inFlight (w.ranks r).sent
      (w.inFlight (w.ranks r).sent ++ [stop]) }

/-- A message is delivered, and the receive that it matches gets it. -/
def deliver (message : String) : World Object :=
  { w with
    ranks := Function.update w.ranks r
      { w.ranks r with
        box := ((w.ranks r).box.deliver message).2
        messages := (w.ranks r).messages ++ [message] }
    interrupters :=
      match ((w.ranks r).box.deliver message).1 with
      | some id => Function.update w.interrupters id ((w.interrupters id).receive message)
      | none => w.interrupters
    inFlight := Function.update w.inFlight r ((w.inFlight r).erase message) }

end World

section Steps

variable {Object : Type} (size count : Nat) (callables : Nat → AbstractCallable Object)

/-- The steps of the ranks and of the network, for `count` callables on `size` ranks. -/
inductive World.Step (w : World Object) : Event → World Object → Prop where
  /-- The loop enters `run` of the current callable. -/
  | run (r : Nat) {object : Object} (rank : r < size) (more : (w.ranks r).counter < count)
      (outside : (w.ranks r).entered = false)
      (own : (callables (w.ranks r).counter).step (w.objects (w.ranks r).counter) .run object) :
      World.Step w (.run r) ((w.setObject r object).setRank r { w.ranks r with entered := true })
  | work (r : Nat) {object : Object} (rank : r < size) (running : (w.ranks r).Running)
      (own : (callables (w.ranks r).counter).step (w.objects (w.ranks r).counter) .work object) :
      World.Step w (.work r) (w.setObject r object)
  | checkAgain (r : Nat) (rank : r < size) (running : (w.ranks r).Running)
      (own : (callables (w.ranks r).counter).Checks (w.objects (w.ranks r).counter))
      (posted : (w.current r).responding = true) :
      World.Step w (.checkNextSyncCall r) (w.checkAgain r)
  | checkFirst (r : Nat) (rank : r < size) (running : (w.ranks r).Running)
      (own : (callables (w.ranks r).counter).Checks (w.objects (w.ranks r).counter))
      (unposted : (w.current r).responding = false) :
      World.Step w (.checkNextSyncCall r) (w.checkFirst r)
  | test (r : Nat) {deliveredBefore : Nat} {object : Object} (rank : r < size)
      (called : (w.ranks r).checking = some deliveredBefore)
      (own : (callables (w.ranks r).counter).step (w.objects (w.ranks r).counter)
        (.checkNextSyncCall (w.current r).checkNextSyncCall) object) :
      World.Step w (.test r) (w.test r deliveredBefore object)
  | send (r : Nat) (rank : r < size) (inside : (w.ranks r).Inside)
      (own : (callables (w.ranks r).counter).Notifies (w.objects (w.ranks r).counter))
      (next : (w.ranks r).sent < size) :
      World.Step w (.send r) (w.send r)
  /-- All sends are made. -/
  | handleSuccess (r : Nat) {object : Object} (rank : r < size)
      (inside : (w.ranks r).Inside) (all : (w.ranks r).sent = size)
      (own : (callables (w.ranks r).counter).step (w.objects (w.ranks r).counter) .handleSuccess
        object) :
      World.Step w (.handleSuccess r)
        ((w.setObject r object).setRank r { w.ranks r with sent := 0 })
  /-- `run` returns, and the loop goes on to `counter + size`. -/
  | returns (r : Nat) {object : Object} (rank : r < size) (running : (w.ranks r).Running)
      (own : (callables (w.ranks r).counter).step (w.objects (w.ranks r).counter) .returns object) :
      World.Step w (.returns r) ((w.setObject r object).setRank r
        { w.ranks r with counter := (w.ranks r).counter + size, entered := false })
  | deliver (r : Nat) {message : String} (rank : r < size) (sent : message ∈ w.inFlight r) :
      World.Step w (.deliver r message) (w.deliver r message)

/-- Every rank is about to enter its loop. -/
def Started (w : World Object) : Prop :=
  (∀ r, w.ranks r = ⟨r, false, none, 0, .empty, [], []⟩) ∧
    (∀ id, (callables id).initial (w.objects id)) ∧
    (∀ id, w.interrupters id = .make) ∧ (∀ r, w.inFlight r = []) ∧ w.checks = []

end Steps

/-! ## Invariants -/

/-- A receive is posted by the first call and stays posted. -/
def Interrupter.Inv (i : Interrupter) : Prop :=
  (i.responding = true ↔ 0 < i.calls) ∧ (0 < i.calls → i.target = 1)

/-- **The invariant of a rank.** The receives posted are those of its callables
that have checked, and the receive at a position has got the message there. -/
structure RankInv (size r : Nat) (rank : Rank) (interrupters : Nat → Interrupter) : Prop where
  inOrder : rank.box.InOrder rank.receives rank.messages
  stops : ∀ message ∈ rank.messages, message = stop
  nodup : rank.receives.Nodup
  counter : rank.counter % size = r
  owned : ∀ id ∈ rank.receives, id % size = r
  posted : ∀ id, id % size = r → (id ∈ rank.receives ↔ 0 < (interrupters id).calls)
  got : ∀ (t id : Nat), rank.receives[t]? = some id →
    (interrupters id).received = rank.messages[t]?
  checking : rank.checking ≠ none → 0 < (interrupters rank.counter).calls ∧
    ((interrupters rank.counter).calls = 1 → rank.receives.getLast? = some rank.counter)

/-- A check sees the stop exactly when it is the first of its interrupter and as
many messages have been delivered as receives posted. -/
def Check.InTime (check : Check) : Prop := check.call = 1 ∧ check.receives ≤ check.delivered

/-- **The invariant of the world.** -/
structure WorldInv {Object : Type} (size : Nat) (w : World Object) : Prop where
  interrupters : ∀ id, (w.interrupters id).Inv
  ranks : ∀ r < size, RankInv size r (w.ranks r) w.interrupters
  inFlight : ∀ r, ∀ message ∈ w.inFlight r, message = stop
  checks : ∀ check ∈ w.checks, check.answer = false ↔ check.InTime

namespace RankInv

variable {size r : Nat} {rank : Rank} {interrupters interrupters' : Nat → Interrupter}
  (inv : RankInv size r rank interrupters)

include inv

/-- The interrupters of other ranks do not matter. -/
theorem frame (same : ∀ id, id % size = r → interrupters' id = interrupters id) :
    RankInv size r rank interrupters' where
  inOrder := inv.inOrder
  stops := inv.stops
  nodup := inv.nodup
  counter := inv.counter
  owned := inv.owned
  posted id own := by
    rw [same id own]
    exact inv.posted id own
  got t id at' := by
    rw [same id (inv.owned id (List.mem_of_getElem? at'))]
    exact inv.got t id at'
  checking called := by
    rw [same rank.counter inv.counter]
    exact inv.checking called

theorem again (responds : (interrupters rank.counter).Inv)
    (posted : (interrupters rank.counter).responding = true) (deliveredBefore : Nat) :
    RankInv size r { rank with checking := some deliveredBefore }
      (Function.update interrupters rank.counter (interrupters rank.counter).again) := by
  have called : 0 < (interrupters rank.counter).calls := responds.1.mp posted
  refine ⟨inv.inOrder, inv.stops, inv.nodup, inv.counter, inv.owned, ?_, fun t => ?_, fun _ => ?_⟩
  · refine (Function.forall_update_iff interrupters fun id i =>
      id % size = r → (id ∈ rank.receives ↔ 0 < i.calls)).mpr ⟨?_, fun id _ => inv.posted id⟩
    intro own
    exact (inv.posted _ own).trans ⟨fun _ => Nat.succ_pos _, fun _ => called⟩
  · exact (Function.forall_update_iff interrupters fun id i =>
      rank.receives[t]? = some id → i.received = rank.messages[t]?).mpr
        ⟨inv.got t _, fun id _ => inv.got t id⟩
  · dsimp only
    rw [Function.update_self]
    refine ⟨Nat.succ_pos _, fun first => ?_⟩
    exact absurd (Nat.succ.inj first) (Nat.ne_of_gt called)

theorem first (responds : (interrupters rank.counter).Inv)
    (unposted : (interrupters rank.counter).responding = false) (deliveredBefore : Nat) :
    RankInv size r
      { rank with
        checking := some deliveredBefore
        box := (rank.box.post rank.counter).2
        receives := rank.receives ++ [rank.counter] }
      (Function.update interrupters rank.counter
        ((interrupters rank.counter).irecv (rank.box.post rank.counter).1)) := by
  have uncalled : ¬ 0 < (interrupters rank.counter).calls := fun called => by
    rw [responds.1.mpr called] at unposted
    cases unposted
  have new : rank.counter ∉ rank.receives := fun member =>
    uncalled ((inv.posted _ inv.counter).mp member)
  obtain ⟨arrived, inOrder⟩ := inv.inOrder.post rank.counter
  refine ⟨inOrder, inv.stops, ?_, inv.counter, ?_, ?_, ?_, ?_⟩
  · exact List.Nodup.append inv.nodup (List.nodup_singleton _) (List.disjoint_singleton.mpr new)
  · intro id member
    rcases List.mem_append.mp member with earlier | last
    · exact inv.owned id earlier
    · rw [List.mem_singleton.mp last]
      exact inv.counter
  · refine (Function.forall_update_iff interrupters fun id i =>
      id % size = r → (id ∈ rank.receives ++ [rank.counter] ↔ 0 < i.calls)).mpr ⟨?_, ?_⟩
    · intro own
      exact ⟨fun _ => Nat.succ_pos _, fun _ => List.mem_append_right _ (.head _)⟩
    · intro id other own
      rw [List.mem_append, List.mem_singleton, or_iff_left other]
      exact inv.posted id own
  · intro t id at'
    dsimp only at at' ⊢
    rcases Nat.lt_or_ge t rank.receives.length with earlier | last
    · rw [List.getElem?_append_left earlier] at at'
      have other : id ≠ rank.counter := fun same =>
        new (same ▸ List.mem_of_getElem? at')
      rw [Function.update_of_ne other]
      exact inv.got t id at'
    · rw [List.getElem?_append_right last, List.getElem?_singleton] at at'
      split at at'
      · obtain rfl := Option.some.inj at'
        obtain rfl : t = rank.receives.length := by omega
        rw [Function.update_self]
        exact arrived
      · cases at'
  · intro _
    dsimp only
    rw [Function.update_self]
    exact ⟨Nat.succ_pos _, fun _ => List.getLast?_concat ..⟩

/-- The receive that a message matches. -/
theorem deliver {message : String} (stopped : message = stop) :
    RankInv size r
      { rank with
        box := (rank.box.deliver message).2
        messages := rank.messages ++ [message] }
      (match (rank.box.deliver message).1 with
        | some id => Function.update interrupters id ((interrupters id).receive message)
        | none => interrupters) := by
  obtain ⟨matched, inOrder⟩ := inv.inOrder.deliver message
  have stops : ∀ m ∈ rank.messages ++ [message], m = stop := by
    intro m member
    rcases List.mem_append.mp member with earlier | last
    · exact inv.stops m earlier
    · exact (List.mem_singleton.mp last).trans stopped
  cases taken : (rank.box.deliver message).1 with
  | none =>
      refine ⟨inOrder, stops, inv.nodup, inv.counter, inv.owned, inv.posted, ?_, inv.checking⟩
      intro t id at'
      have few := List.getElem?_eq_none_iff.mp (matched.symm.trans taken)
      have inside := (List.getElem?_eq_some_iff.mp at').1
      dsimp only
      rw [List.getElem?_append_left (Nat.lt_of_lt_of_le inside few)]
      exact inv.got t id at'
  | some id₀ =>
      have at₀ := matched.symm.trans taken
      have calls : ∀ id, (Function.update interrupters id₀
          ((interrupters id₀).receive message) id).calls = (interrupters id).calls :=
        (Function.forall_update_iff interrupters fun id i => i.calls = (interrupters id).calls).mpr
          ⟨rfl, fun _ _ => rfl⟩
      refine ⟨inOrder, stops, inv.nodup, inv.counter, inv.owned, ?_, ?_, ?_⟩
      · intro id own
        dsimp only
        rw [calls]
        exact inv.posted id own
      · intro t id at'
        dsimp only
        rcases eq_or_ne id id₀ with rfl | other
        · have inside := (List.getElem?_eq_some_iff.mp at').1
          obtain rfl : t = rank.messages.length :=
            (List.getElem?_inj inside inv.nodup).mp (at'.trans at₀.symm)
          rw [Function.update_self, List.getElem?_concat_length]
          rfl
        · rw [Function.update_of_ne other]
          have apart : t ≠ rank.messages.length := by
            rintro rfl
            exact other (Option.some.inj (at'.symm.trans at₀))
          rw [inv.got t id at']
          rcases Nat.lt_or_gt_of_ne apart with earlier | later
          · rw [List.getElem?_append_left earlier]
          · rw [List.getElem?_eq_none (Nat.le_of_lt later), List.getElem?_eq_none]
            rw [List.length_append, List.length_singleton]
            exact later
      · intro called
        dsimp only
        rw [calls]
        exact inv.checking called

/-- **What a check answers.** -/
theorem answer (responds : (interrupters rank.counter).Inv) (called : rank.checking ≠ none) :
    (interrupters rank.counter).checkNextSyncCall = false ↔
      (interrupters rank.counter).calls = 1 ∧ rank.receives.length ≤ rank.messages.length := by
  obtain ⟨positive, last⟩ := inv.checking called
  have target := responds.2 positive
  rw [Interrupter.checkNextSyncCall, Interrupter.msg, target]
  rcases eq_or_ne (interrupters rank.counter).calls 1 with single | several
  · have newest := last single
    rw [List.getLast?_eq_getElem?] at newest
    have inside := (List.getElem?_eq_some_iff.mp newest).1
    rw [single, if_pos rfl, inv.got _ _ newest]
    rcases Nat.lt_or_ge (rank.receives.length - 1) rank.messages.length with arrived | waits
    · have message := inv.stops _ (List.getElem_mem arrived)
      rw [List.getElem?_eq_getElem arrived, message]
      exact ⟨fun _ => ⟨rfl, by omega⟩, fun _ => by decide⟩
    · rw [List.getElem?_eq_none waits]
      exact ⟨fun absent => absurd absent (by decide), fun ⟨_, enough⟩ => by omega⟩
  · rw [if_neg several.symm]
    refine ⟨fun seen => ?_, fun ⟨single, _⟩ => absurd single several⟩
    rw [show ("" == stop) = false from by decide, Bool.and_false] at seen
    cases seen

end RankInv

namespace Interrupter.Inv

variable {i : Interrupter} (inv : i.Inv)

include inv

theorem again (posted : i.responding = true) : i.again.Inv :=
  ⟨⟨fun _ => Nat.succ_pos _, fun _ => posted⟩, fun _ => inv.2 (inv.1.mp posted)⟩

theorem irecv (unposted : i.responding = false) (arrived : Option String) :
    (i.irecv arrived).Inv := by
  have uncalled : i.calls = 0 := by
    rcases Nat.eq_zero_or_pos i.calls with none | called
    · exact none
    · rw [inv.1.mpr called] at unposted
      cases unposted
  refine ⟨⟨fun _ => Nat.succ_pos _, fun _ => rfl⟩, fun _ => ?_⟩
  rw [Interrupter.irecv, uncalled]

theorem receive (message : String) : (i.receive message).Inv := inv

end Interrupter.Inv

/-- A change of one interrupter leaves those of the other ranks. -/
theorem interrupters_of_others {size r id : Nat} (interrupters : Nat → Interrupter)
    (own : id % size = r) (i : Interrupter) :
    ∀ id', id' % size ≠ r → Function.update interrupters id i id' = interrupters id' := by
  intro id' apart
  refine Function.update_of_ne ?_ i interrupters
  rintro rfl
  exact apart own

namespace WorldInv

variable {Object : Type} {size : Nat} {w : World Object} (inv : WorldInv size w)

include inv

theorem interrupters_update (id : Nat) {i : Interrupter} (changed : i.Inv) (id' : Nat) :
    (Function.update w.interrupters id i id').Inv :=
  (Function.forall_update_iff w.interrupters fun _ i => i.Inv).mpr
    ⟨changed, fun other _ => inv.interrupters other⟩ id'

/-- A rank changes, and with it interrupters of its own only. -/
theorem ranks_update {r : Nat} {rank : Rank} {interrupters : Nat → Interrupter}
    (changed : RankInv size r rank interrupters)
    (others : ∀ id, id % size ≠ r → interrupters id = w.interrupters id) :
    ∀ r' < size, RankInv size r' (Function.update w.ranks r rank r') interrupters := by
  refine (Function.forall_update_iff w.ranks fun r' rank =>
    r' < size → RankInv size r' rank interrupters).mpr ⟨fun _ => changed, ?_⟩
  intro r' other below
  refine (inv.ranks r' below).frame fun id own => others id ?_
  rw [own]
  exact other

theorem checkAgain {r : Nat} (below : r < size) (posted : (w.current r).responding = true) :
    WorldInv size (w.checkAgain r) where
  interrupters := inv.interrupters_update _ ((inv.interrupters _).again posted)
  ranks := inv.ranks_update ((inv.ranks r below).again (inv.interrupters _) posted _)
    (interrupters_of_others w.interrupters (inv.ranks r below).counter _)
  inFlight := inv.inFlight
  checks := inv.checks

theorem checkFirst {r : Nat} (below : r < size) (unposted : (w.current r).responding = false) :
    WorldInv size (w.checkFirst r) where
  interrupters := inv.interrupters_update _ ((inv.interrupters _).irecv unposted _)
  ranks := inv.ranks_update ((inv.ranks r below).first (inv.interrupters _) unposted _)
    (interrupters_of_others w.interrupters (inv.ranks r below).counter _)
  inFlight := inv.inFlight
  checks := inv.checks

theorem test {r deliveredBefore : Nat} {object : Object} (below : r < size)
    (called : (w.ranks r).checking = some deliveredBefore) :
    WorldInv size (w.test r deliveredBefore object) := by
  have at' := inv.ranks r below
  refine ⟨inv.interrupters, inv.ranks_update ?_ fun _ _ => rfl, inv.inFlight, ?_⟩
  · exact ⟨at'.inOrder, at'.stops, at'.nodup, at'.counter, at'.owned, at'.posted, at'.got,
      fun absent => absurd rfl absent⟩
  · intro check member
    rcases List.mem_append.mp member with earlier | last
    · exact inv.checks check earlier
    · rw [List.mem_singleton.mp last]
      refine at'.answer (inv.interrupters _) ?_
      rw [called]
      exact Option.some_ne_none deliveredBefore

theorem send (r : Nat) (below : r < size) : WorldInv size (w.send r) := by
  have at' := inv.ranks r below
  refine ⟨inv.interrupters, inv.ranks_update ?_ fun _ _ => rfl, ?_, inv.checks⟩
  · exact ⟨at'.inOrder, at'.stops, at'.nodup, at'.counter, at'.owned, at'.posted, at'.got,
      at'.checking⟩
  · refine (Function.forall_update_iff w.inFlight fun _ flight =>
      ∀ message ∈ flight, message = stop).mpr ⟨?_, fun r' _ => inv.inFlight r'⟩
    intro message member
    rcases List.mem_append.mp member with earlier | last
    · exact inv.inFlight _ message earlier
    · exact List.mem_singleton.mp last

theorem deliver {r : Nat} {message : String} (below : r < size) (sent : message ∈ w.inFlight r) :
    WorldInv size (w.deliver r message) := by
  have at' := inv.ranks r below
  refine ⟨?_, inv.ranks_update (at'.deliver (inv.inFlight r message sent)) ?_, ?_, inv.checks⟩
  · intro id
    rw [World.deliver]
    dsimp only
    cases ((w.ranks r).box.deliver message).1 with
    | none => exact inv.interrupters id
    | some taker => exact inv.interrupters_update _ ((inv.interrupters _).receive message) id
  · have matched := (at'.inOrder.deliver message).1
    rw [World.deliver]
    dsimp only
    cases taken : ((w.ranks r).box.deliver message).1 with
    | none => exact fun _ _ => rfl
    | some taker =>
        have own := at'.owned taker (List.mem_of_getElem? (matched.symm.trans taken))
        exact interrupters_of_others w.interrupters own _
  · refine (Function.forall_update_iff w.inFlight fun _ flight =>
      ∀ message ∈ flight, message = stop).mpr ⟨?_, fun r' _ => inv.inFlight r'⟩
    exact fun message' member => inv.inFlight r message' (List.mem_of_mem_erase member)

/-- The loop moves on at its callable. -/
theorem moves {r : Nat} (below : r < size) (object : Object) (entered : Bool) (sent : Nat) :
    WorldInv size ((w.setObject r object).setRank r
      { w.ranks r with entered := entered, sent := sent }) := by
  have at' := inv.ranks r below
  refine ⟨inv.interrupters, inv.ranks_update ?_ fun _ _ => rfl, inv.inFlight, inv.checks⟩
  exact ⟨at'.inOrder, at'.stops, at'.nodup, at'.counter, at'.owned, at'.posted, at'.got,
    at'.checking⟩

/-- The loop moves on to the next callable. -/
theorem returns {r : Nat} (below : r < size) (object : Object)
    (free : (w.ranks r).checking = none) :
    WorldInv size ((w.setObject r object).setRank r
      { w.ranks r with counter := (w.ranks r).counter + size, entered := false }) := by
  have at' := inv.ranks r below
  refine ⟨inv.interrupters, inv.ranks_update ?_ fun _ _ => rfl, inv.inFlight, inv.checks⟩
  exact ⟨at'.inOrder, at'.stops, at'.nodup, (Nat.add_mod_right ..).trans at'.counter, at'.owned,
    at'.posted, at'.got, fun called => absurd free called⟩

/-- **A step keeps the invariant.** -/
theorem step {count : Nat} {callables : Nat → AbstractCallable Object} {event : Event}
    {w' : World Object} (next : World.Step size count callables w event w') :
    WorldInv size w' := by
  cases next with
  | run r rank more outside own => exact inv.moves rank _ true (w.ranks r).sent
  | work r rank running own =>
      exact ⟨inv.interrupters, inv.ranks, inv.inFlight, inv.checks⟩
  | checkAgain r rank running own posted => exact inv.checkAgain rank posted
  | checkFirst r rank running own unposted => exact inv.checkFirst rank unposted
  | test r rank called own => exact inv.test rank called
  | send r rank inside own next => exact inv.send r rank
  | handleSuccess r rank inside all own => exact inv.moves rank _ (w.ranks r).entered 0
  | returns r rank running own => exact inv.returns rank _ running.1.2
  | deliver r rank sent => exact inv.deliver rank sent

omit inv

theorem of_started {callables : Nat → AbstractCallable Object} (started : Started callables w) :
    WorldInv size w := by
  obtain ⟨ranks, -, interrupters, inFlight, checks⟩ := started
  refine ⟨fun id => ?_, fun r below => ?_, fun r message member => ?_, fun check member => ?_⟩
  · rw [interrupters]
    exact ⟨by decide, by decide⟩
  · rw [ranks]
    refine ⟨Mailbox.inOrder_empty, ?_, List.nodup_nil, Nat.mod_eq_of_lt below, ?_, ?_, ?_, ?_⟩
    · exact fun message member => by cases member
    · exact fun id member => by cases member
    · intro id own
      rw [interrupters]
      exact ⟨fun member => absurd member List.not_mem_nil, fun called => absurd called (by decide)⟩
    · exact fun t id at' => by cases at'
    · exact fun called => absurd rfl called
  · rw [inFlight] at member
    cases member
  · rw [checks] at member
    cases member

end WorldInv

/-! ## The stop -/

section StopSeen

variable {Object : Type}

/-- Every check called after a stop had been delivered at its rank returned false. -/
def World.StopSeen (w : World Object) : Prop :=
  ∀ check ∈ w.checks, 0 < check.deliveredBefore → check.answer = false

/-- Every such check was the first of its interrupter, and when it tested, as many
stops had been delivered at its rank as receives posted. -/
def World.StopInTime (w : World Object) : Prop :=
  ∀ check ∈ w.checks, 0 < check.deliveredBefore → check.InTime

/-- **When the stop is seen**, for any number of ranks and callables and in every
state that they reach. -/
theorem stopSeen_iff {size count : Nat} {callables : Nat → AbstractCallable Object}
    {events : List Event} {w : World Object}
    (run : Run (World.Step size count callables) (Started callables) events w) :
    w.StopSeen ↔ w.StopInTime := by
  have inv : WorldInv size w :=
    run.invariant (fun _ w => WorldInv size w) (fun _ started => .of_started started)
      (fun _ _ _ _ inv next => inv.step next)
  constructor
  · intro seen check member after
    exact (inv.checks check member).mp (seen check member after)
  · intro inTime check member after
    exact (inv.checks check member).mpr (inTime check member after)

end StopSeen

/-- Objects that have just been added to the runner. -/
def added : World (State Unit Unit Bool) where
  ranks r := ⟨r, false, none, 0, .empty, [], []⟩
  objects _ := ⟨(Fields.make true).setSigHandler (some ()), .idle⟩
  interrupters _ := .make
  inFlight _ := []
  checks := []

theorem run_added (size count : Nat) (kinds : Nat → Class Unit) :
    Run (World.Step size count fun id => .ofClass (kinds id))
      (Started fun id => .ofClass (kinds id)) [] added :=
  .start ⟨fun _ => rfl, fun _ => ⟨true, rfl⟩, fun _ => rfl, fun _ => rfl, rfl⟩

/-- A `Callable` and, after it, `MapCallable`s. -/
def callableFirst : Nat → Class Unit
  | 0 => .callable ()
  | _ => .mapCallable

/-- A `Callable` succeeds, and the `MapCallable` after it on the same rank sees the
stop in its first check. -/
theorem stopSeen_iff_first :
    ∃ (events : List Event) (w : World (State Unit Unit Bool)),
      Run (World.Step 1 2 fun id => .ofClass (callableFirst id))
        (Started fun id => .ofClass (callableFirst id)) events w ∧
      ⟨0, 1, 1, 1, 1, false⟩ ∈ w.checks ∧ (w.StopSeen ↔ w.StopInTime) := by
  have finished := run_added 1 2 callableFirst
    |>.snoc (.run 0 Nat.one_pos Nat.two_pos rfl (.inr (.run _ rfl)))
    |>.snoc (.work 0 Nat.one_pos ⟨⟨rfl, rfl⟩, rfl⟩ ⟨_, .call _ () true, .inr (.call _ true)⟩)
    |>.snoc (.work 0 Nat.one_pos ⟨⟨rfl, rfl⟩, rfl⟩
      ⟨_, .resultChecker _ true true, .inr (.accepted _ true rfl)⟩)
    |>.snoc (.send 0 Nat.one_pos ⟨rfl, rfl⟩ ⟨_, .inr (.handleSuccess _ () rfl)⟩ Nat.one_pos)
    |>.snoc (.handleSuccess 0 Nat.one_pos ⟨rfl, rfl⟩ rfl (.inr (.handleSuccess _ () rfl)))
    |>.snoc (.returns 0 Nat.one_pos ⟨⟨rfl, rfl⟩, rfl⟩ ⟨rfl, rfl⟩)
    |>.snoc (.deliver 0 Nat.one_pos (List.mem_singleton_self stop))
    |>.snoc (.run 0 Nat.one_pos Nat.one_lt_two rfl (.inr (.run _ rfl)))
    |>.snoc (.work 0 Nat.one_pos ⟨⟨rfl, rfl⟩, rfl⟩ ⟨_, .hasNext true, .inr (.more _)⟩)
    |>.snoc (.work 0 Nat.one_pos ⟨⟨rfl, rfl⟩, rfl⟩ ⟨_, .next (), .inr (.next _ ())⟩)
    |>.snoc (.checkFirst 0 Nat.one_pos ⟨⟨rfl, rfl⟩, rfl⟩ ⟨true, _, .inr (.goOn _ () () rfl)⟩ rfl)
    |>.snoc (.test 0 Nat.one_pos rfl (.inr (.stop _ () () rfl)))
  exact ⟨_, _, finished, List.mem_singleton_self _, stopSeen_iff finished⟩

/-- **Stops that are missed.** With a `Callable` on rank 0 and a `MapCallable` on
rank 1, the stop of the first arrives at rank 1 between two checks of the second,
which goes on. With two `MapCallable`s on one rank, the receive of the first takes
its stop, and the second goes on. -/
theorem stop_missed :
    (∃ (events : List Event) (w : World (State Unit Unit Bool)),
      Run (World.Step 2 2 fun id => .ofClass (callableFirst id))
        (Started fun id => .ofClass (callableFirst id)) events w ∧ ¬ w.StopSeen) ∧
    ∃ (events : List Event) (w : World (State Unit Unit Bool)),
      Run (World.Step 1 2 fun _ => .ofClass .mapCallable)
        (Started fun _ => .ofClass .mapCallable) events w ∧ ¬ w.StopSeen := by
  constructor
  · have finished := run_added 2 2 callableFirst
      |>.snoc (.run 1 Nat.one_lt_two Nat.one_lt_two rfl (.inr (.run _ rfl)))
      |>.snoc (.work 1 Nat.one_lt_two ⟨⟨rfl, rfl⟩, rfl⟩ ⟨_, .hasNext true, .inr (.more _)⟩)
      |>.snoc (.work 1 Nat.one_lt_two ⟨⟨rfl, rfl⟩, rfl⟩ ⟨_, .next (), .inr (.next _ ())⟩)
      |>.snoc (.checkFirst 1 Nat.one_lt_two ⟨⟨rfl, rfl⟩, rfl⟩ ⟨true, _, .inr (.goOn _ () () rfl)⟩
        rfl)
      |>.snoc (.test 1 Nat.one_lt_two rfl (.inr (.goOn _ () () rfl)))
      |>.snoc (.work 1 Nat.one_lt_two ⟨⟨rfl, rfl⟩, rfl⟩
        ⟨_, .call _ () false, .inr (.call _ () false)⟩)
      |>.snoc (.work 1 Nat.one_lt_two ⟨⟨rfl, rfl⟩, rfl⟩
        ⟨_, .resultChecker _ false false, .inr (.rejected _ false rfl)⟩)
      |>.snoc (.run 0 Nat.two_pos Nat.two_pos rfl (.inr (.run _ rfl)))
      |>.snoc (.work 0 Nat.two_pos ⟨⟨rfl, rfl⟩, rfl⟩ ⟨_, .call _ () true, .inr (.call _ true)⟩)
      |>.snoc (.work 0 Nat.two_pos ⟨⟨rfl, rfl⟩, rfl⟩
        ⟨_, .resultChecker _ true true, .inr (.accepted _ true rfl)⟩)
      |>.snoc (.send 0 Nat.two_pos ⟨rfl, rfl⟩ ⟨_, .inr (.handleSuccess _ () rfl)⟩ Nat.two_pos)
      |>.snoc (.send 0 Nat.two_pos ⟨rfl, rfl⟩ ⟨_, .inr (.handleSuccess _ () rfl)⟩ Nat.one_lt_two)
      |>.snoc (.deliver 1 Nat.one_lt_two (List.mem_singleton_self stop))
      |>.snoc (.work 1 Nat.one_lt_two ⟨⟨rfl, rfl⟩, rfl⟩ ⟨_, .hasNext true, .inr (.more _)⟩)
      |>.snoc (.work 1 Nat.one_lt_two ⟨⟨rfl, rfl⟩, rfl⟩ ⟨_, .next (), .inr (.next _ ())⟩)
      |>.snoc (.checkAgain 1 Nat.one_lt_two ⟨⟨rfl, rfl⟩, rfl⟩ ⟨true, _, .inr (.goOn _ () () rfl)⟩
        rfl)
      |>.snoc (.test 1 Nat.one_lt_two rfl (.inr (.goOn _ () () rfl)))
    refine ⟨_, _, finished, fun seen => ?_⟩
    exact absurd (seen ⟨1, 1, 1, 1, 2, true⟩ (.tail _ (.head _)) (by decide)) (by decide)
  · have finished := run_added 1 2 (fun _ => .mapCallable)
      |>.snoc (.run 0 Nat.one_pos Nat.two_pos rfl (.inr (.run _ rfl)))
      |>.snoc (.work 0 Nat.one_pos ⟨⟨rfl, rfl⟩, rfl⟩ ⟨_, .hasNext true, .inr (.more _)⟩)
      |>.snoc (.work 0 Nat.one_pos ⟨⟨rfl, rfl⟩, rfl⟩ ⟨_, .next (), .inr (.next _ ())⟩)
      |>.snoc (.checkFirst 0 Nat.one_pos ⟨⟨rfl, rfl⟩, rfl⟩ ⟨true, _, .inr (.goOn _ () () rfl)⟩
        rfl)
      |>.snoc (.test 0 Nat.one_pos rfl (.inr (.goOn _ () () rfl)))
      |>.snoc (.work 0 Nat.one_pos ⟨⟨rfl, rfl⟩, rfl⟩ ⟨_, .call _ () true, .inr (.call _ () true)⟩)
      |>.snoc (.work 0 Nat.one_pos ⟨⟨rfl, rfl⟩, rfl⟩
        ⟨_, .resultChecker _ true true, .inr (.accepted _ true rfl)⟩)
      |>.snoc (.send 0 Nat.one_pos ⟨rfl, rfl⟩ ⟨_, .inr (.handleSuccess _ () rfl)⟩ Nat.one_pos)
      |>.snoc (.handleSuccess 0 Nat.one_pos ⟨rfl, rfl⟩ rfl (.inr (.handleSuccess _ () rfl)))
      |>.snoc (.returns 0 Nat.one_pos ⟨⟨rfl, rfl⟩, rfl⟩ ⟨rfl, rfl⟩)
      |>.snoc (.deliver 0 Nat.one_pos (List.mem_singleton_self stop))
      |>.snoc (.run 0 Nat.one_pos Nat.one_lt_two rfl (.inr (.run _ rfl)))
      |>.snoc (.work 0 Nat.one_pos ⟨⟨rfl, rfl⟩, rfl⟩ ⟨_, .hasNext true, .inr (.more _)⟩)
      |>.snoc (.work 0 Nat.one_pos ⟨⟨rfl, rfl⟩, rfl⟩ ⟨_, .next (), .inr (.next _ ())⟩)
      |>.snoc (.checkFirst 0 Nat.one_pos ⟨⟨rfl, rfl⟩, rfl⟩ ⟨true, _, .inr (.goOn _ () () rfl)⟩
        rfl)
      |>.snoc (.test 0 Nat.one_pos rfl (.inr (.goOn _ () () rfl)))
    refine ⟨_, _, finished, fun seen => ?_⟩
    exact absurd (seen ⟨0, 1, 1, 2, 1, true⟩ (.tail _ (.head _)) (by decide)) (by decide)

end ParallelLabs.Mpi
