import Mathlib.Control.Monad.Writer
import Mathlib.Logic.Function.Iterate

/-!
# Computations with a record of their operations

A computation that also lists the operations it has performed is one of the writer
monad. Its value is that of the computation without the record (`value_bind`,
`value_times`), and the record of two computations in sequence is that of the first
followed by that of the second (`mem_bind`).
-/

set_option autoImplicit false

namespace ParallelLabs.Library

/-- A computation that records operations. -/
abbrev Traced (Op : Type) : Type → Type := Writer (List Op)

namespace Traced

variable {Op α β : Type}

def value (x : Traced Op α) : α := (WriterT.run x).1

def operations (x : Traced Op α) : List Op := (WriterT.run x).2

/-- Performs an operation with the result `a`. -/
def perform (op : Op) (a : α) : Traced Op α := WriterT.mk (a, [op])

/-- The computation `f`, a number of times in sequence. -/
def times (f : α → Traced Op α) : Nat → α → Traced Op α
  | 0, a => pure a
  | n + 1, a => f a >>= times f n

theorem value_bind (x : Traced Op α) (f : α → Traced Op β) :
    (x >>= f).value = (f x.value).value := rfl

theorem value_times (f : α → Traced Op α) (n : Nat) (a : α) :
    (times f n a).value = (fun a => (f a).value)^[n] a := by
  induction n generalizing a with
  | zero => rfl
  | succ n ih => exact ih (f a).value

section Operations

variable {op : Op}

theorem mem_bind {x : Traced Op α} {f : α → Traced Op β} :
    op ∈ (x >>= f).operations ↔ op ∈ x.operations ∨ op ∈ (f x.value).operations :=
  List.mem_append

theorem mem_bind_left {x : Traced Op α} (performed : op ∈ x.operations) (f : α → Traced Op β) :
    op ∈ (x >>= f).operations :=
  mem_bind.mpr (.inl performed)

theorem mem_bind_right (x : Traced Op α) {f : α → Traced Op β}
    (performed : op ∈ (f x.value).operations) : op ∈ (x >>= f).operations :=
  mem_bind.mpr (.inr performed)

/-- The operations of the first of several times. -/
theorem mem_times {f : α → Traced Op α} {a : α} (performed : op ∈ (f a).operations) (n : Nat) :
    op ∈ (times f (n + 1) a).operations :=
  mem_bind_left performed _

end Operations

end Traced

end ParallelLabs.Library
