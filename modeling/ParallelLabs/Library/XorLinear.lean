import ParallelLabs.Library.Words
import Mathlib.Logic.Function.Iterate
import Mathlib.Tactic.ByContra

/-!
# Functions that carry exclusive or to exclusive or

A function between bit vectors is linear over the two-element field when it
carries `^^^` to `^^^`. Shifts, masks, changes of width and the selection of a
constant by one bit are linear, and so are sums and compositions of linear
functions. A linear function is determined by its values at the powers of two
(`XorLinear.ext`), so an equation between two of them is a finite check, one
case for each bit of the argument.
-/

set_option autoImplicit false

namespace ParallelLabs.Library

/-- `f` carries exclusive or to exclusive or. -/
def XorLinear {n m : Nat} (f : BitVec n → BitVec m) : Prop :=
  ∀ a b, f (a ^^^ b) = f a ^^^ f b

/-- Exclusive or of two sums, summand by summand. -/
theorem xor_xor_xor_comm {n : Nat} (a b c d : BitVec n) :
    (a ^^^ b) ^^^ (c ^^^ d) = (a ^^^ c) ^^^ (b ^^^ d) := by
  rw [BitVec.xor_assoc, BitVec.xor_assoc, ← BitVec.xor_assoc b, BitVec.xor_comm b c,
    BitVec.xor_assoc]

namespace XorLinear

variable {n m k : Nat} {f g : BitVec n → BitVec m}

theorem zero (linear : XorLinear f) : f 0 = 0 := by
  have doubled : f (0 ^^^ 0) = f 0 ^^^ f 0 := linear 0 0
  simpa using doubled

theorem id : XorLinear (fun a : BitVec n => a) := fun _ _ => rfl

theorem const_zero : XorLinear (fun _ : BitVec n => (0 : BitVec m)) := fun _ _ => by simp

theorem comp {f : BitVec m → BitVec k} {g : BitVec n → BitVec m} (outer : XorLinear f)
    (inner : XorLinear g) : XorLinear fun a => f (g a) := fun a b => by
  simp only [inner a b, outer (g a) (g b)]

theorem xor (first : XorLinear f) (second : XorLinear g) : XorLinear fun a => f a ^^^ g a :=
  fun a b => by simp only [first a b, second a b, xor_xor_xor_comm (f a)]

theorem iterate {f : BitVec n → BitVec n} (linear : XorLinear f) (count : Nat) :
    XorLinear f^[count] := by
  induction count with
  | zero => exact id
  | succ count ih => exact ih.comp linear

theorem shiftLeft (linear : XorLinear f) (count : Nat) : XorLinear fun a => f a <<< count :=
  fun a b => by simp only [linear a b, BitVec.shiftLeft_xor_distrib]

theorem ushiftRight (linear : XorLinear f) (count : Nat) : XorLinear fun a => f a >>> count :=
  fun a b => by simp only [linear a b, BitVec.ushiftRight_xor_distrib]

theorem setWidth (linear : XorLinear f) (width : Nat) :
    XorLinear fun a => (f a).setWidth width :=
  fun a b => by simp only [linear a b, BitVec.setWidth_xor]

theorem and_const (linear : XorLinear f) (mask : BitVec m) : XorLinear fun a => f a &&& mask :=
  fun a b => by
    ext i bound
    simp only [linear a b, BitVec.getElem_and, BitVec.getElem_xor]
    cases (f a)[i] <;> cases (f b)[i] <;> simp

/-- Selecting a constant by one bit. -/
theorem select (linear : XorLinear f) (bit : Nat) (c : BitVec k) :
    XorLinear fun a => if (f a).getLsbD bit then c else 0 := fun a b => by
  simp only [linear a b, BitVec.getLsbD_xor]
  cases (f a).getLsbD bit <;> cases (f b).getLsbD bit <;> simp

/-! ## A linear function is determined by its values at the powers of two -/

/-- Two linear functions with the same values at the powers of two agree on the
vectors whose bits from `count` on are clear. -/
theorem agree_below (linear : XorLinear f) (linear' : XorLinear g)
    (basis : ∀ i < n, f (BitVec.twoPow n i) = g (BitVec.twoPow n i)) :
    ∀ (count : Nat) (a : BitVec n), (∀ i, count ≤ i → a.getLsbD i = false) → f a = g a := by
  intro count
  induction count with
  | zero =>
      intro a clear
      have null : a = 0 := BitVec.eq_of_getLsbD_eq fun i _ => by simp [clear i (Nat.zero_le i)]
      rw [null, linear.zero, linear'.zero]
  | succ count ih =>
      intro a clear
      by_cases set : a.getLsbD count = true
      · -- Clear the top bit: the rest is covered, and the bit itself is a power of two.
        have within : count < n := by
          by_contra beyond
          rw [BitVec.getLsbD_of_ge a count (Nat.le_of_not_lt beyond)] at set
          exact absurd set (by decide)
        have rest : f (a ^^^ BitVec.twoPow n count) = g (a ^^^ BitVec.twoPow n count) := by
          apply ih
          intro i above
          rw [BitVec.getLsbD_xor, BitVec.getLsbD_twoPow]
          rcases Nat.eq_or_lt_of_le above with same | higher
          · subst same
            simp [set, within]
          · simp [clear i higher, Nat.ne_of_lt higher]
        rw [← xor_xor_cancel a (BitVec.twoPow n count), linear, linear', rest,
          basis count within]
      · apply ih
        intro i above
        rcases Nat.eq_or_lt_of_le above with same | higher
        · subst same
          simpa using set
        · exact clear i higher

/-- **A linear function is determined by its values at the powers of two.** -/
theorem ext (linear : XorLinear f) (linear' : XorLinear g)
    (basis : ∀ i < n, f (BitVec.twoPow n i) = g (BitVec.twoPow n i)) (a : BitVec n) : f a = g a :=
  agree_below linear linear' basis n a fun i above => BitVec.getLsbD_of_ge a i above

end XorLinear

end ParallelLabs.Library
