import Mathlib.Data.List.Basic

/-!
# Matching receives with messages

A mailbox matches an arriving message with the earliest receive that waits, and
keeps the message when none waits; a receive that is posted takes the earliest
message kept. Over any history the receives and the messages are thereby matched
in order: the receive at a position takes the message at the same position
(`InOrder.post`, `InOrder.deliver`).
-/

set_option autoImplicit false

namespace ParallelLabs.Library

variable {Receive Message : Type*}

/-- The receives that wait and the messages kept, each in order. -/
structure Mailbox (Receive Message : Type*) where
  pending : List Receive
  queued : List Message

namespace Mailbox

def empty : Mailbox Receive Message := ⟨[], []⟩

/-- Posting a receive: the message that it takes at once, if any. -/
def post (box : Mailbox Receive Message) (receive : Receive) :
    Option Message × Mailbox Receive Message :=
  match box.queued with
  | message :: rest => (some message, ⟨box.pending, rest⟩)
  | [] => (none, ⟨box.pending ++ [receive], []⟩)

/-- Delivering a message: the receive that takes it, if any. -/
def deliver (box : Mailbox Receive Message) (message : Message) :
    Option Receive × Mailbox Receive Message :=
  match box.pending with
  | receive :: rest => (some receive, ⟨rest, box.queued⟩)
  | [] => (none, ⟨[], box.queued ++ [message]⟩)

/-- The mailbox after the receives and the messages of a history. -/
structure InOrder (box : Mailbox Receive Message) (receives : List Receive)
    (messages : List Message) : Prop where
  pending : box.pending = receives.drop messages.length
  queued : box.queued = messages.drop receives.length

theorem inOrder_empty : InOrder (empty : Mailbox Receive Message) [] [] := ⟨rfl, rfl⟩

section History

variable {box : Mailbox Receive Message} {receives : List Receive} {messages : List Message}
  (inOrder : InOrder box receives messages)

include inOrder

/-- **A posted receive takes the message at its position.** -/
theorem InOrder.post (receive : Receive) :
    (box.post receive).1 = messages[receives.length]? ∧
      InOrder (box.post receive).2 (receives ++ [receive]) messages := by
  have head : messages[receives.length]? = box.queued.head? := by
    rw [inOrder.queued, List.head?_drop]
  rw [head, Mailbox.post]
  cases kept : box.queued with
  | nil =>
      have fewer : messages.length ≤ receives.length :=
        List.drop_eq_nil_iff.mp (inOrder.queued.symm.trans kept)
      refine ⟨rfl, ?_, ?_⟩
      · rw [List.drop_append_of_le_length fewer, inOrder.pending]
      · rw [List.drop_eq_nil_of_le]
        rw [List.length_append]
        omega
  | cons message rest =>
      have dropped := inOrder.queued.symm.trans kept
      have more : receives.length < messages.length := by
        rw [← List.drop_eq_nil_iff.not.trans Nat.not_le, dropped]
        exact List.cons_ne_nil message rest
      refine ⟨rfl, ?_, ?_⟩
      · rw [inOrder.pending, List.drop_eq_nil_of_le (Nat.le_of_lt more), List.drop_eq_nil_of_le]
        rw [List.length_append, List.length_singleton]
        exact more
      · rw [List.length_append, List.length_singleton, ← List.drop_drop, dropped]
        rfl

/-- **A delivered message is taken by the receive at its position.** -/
theorem InOrder.deliver (message : Message) :
    (box.deliver message).1 = receives[messages.length]? ∧
      InOrder (box.deliver message).2 receives (messages ++ [message]) := by
  have head : receives[messages.length]? = box.pending.head? := by
    rw [inOrder.pending, List.head?_drop]
  rw [head, Mailbox.deliver]
  cases waiting : box.pending with
  | nil =>
      have fewer : receives.length ≤ messages.length :=
        List.drop_eq_nil_iff.mp (inOrder.pending.symm.trans waiting)
      refine ⟨rfl, ?_, ?_⟩
      · rw [List.drop_eq_nil_of_le]
        rw [List.length_append]
        omega
      · rw [List.drop_append_of_le_length fewer, inOrder.queued]
  | cons receive rest =>
      have dropped := inOrder.pending.symm.trans waiting
      have more : messages.length < receives.length := by
        rw [← List.drop_eq_nil_iff.not.trans Nat.not_le, dropped]
        exact List.cons_ne_nil receive rest
      refine ⟨rfl, ?_, ?_⟩
      · rw [List.length_append, List.length_singleton, ← List.drop_drop, dropped]
        rfl
      · rw [inOrder.queued, List.drop_eq_nil_of_le (Nat.le_of_lt more), List.drop_eq_nil_of_le]
        rw [List.length_append, List.length_singleton]
        exact more

end History

end Mailbox

end ParallelLabs.Library
