import ParallelLabs.Library.XorLinear

/-!
# Bytes as the field with 256 elements

A byte is a polynomial over the two-element field, of degree below eight, with
bit `i` as the coefficient of the `i`-th power. Addition is exclusive or. The
product is taken modulo a polynomial of degree eight, given by its nine bits
(`gfMul`), by Horner's rule on the bits of the second factor. Multiplication by
a fixed byte is linear in the other (`xorLinear_gfMul`), and so is a product of
a matrix of bytes with a vector (`xorLinear_byteSum`).
-/

set_option autoImplicit false

namespace ParallelLabs.Library

/-- Multiplication by the indeterminate modulo `modulus`. -/
def xtime (modulus : BitVec 9) (a : BitVec 8) : BitVec 8 :=
  ((a.setWidth 9 <<< 1) ^^^ (if a.getLsbD 7 then modulus else 0)).setWidth 8

/-- The product of two bytes modulo `modulus`. -/
def gfMul (modulus : BitVec 9) (a b : BitVec 8) : BitVec 8 :=
  Nat.fold 8 (fun i _ acc => xtime modulus acc ^^^ (if b.getLsbD (7 - i) then a else 0)) 0

/-- The sum of the bytes `f 0, …, f (n - 1)`. -/
def byteSum (n : Nat) (f : Nat → BitVec 8) : BitVec 8 :=
  Nat.fold n (fun i _ acc => acc ^^^ f i) 0

theorem xorLinear_xtime (modulus : BitVec 9) : XorLinear (xtime modulus) :=
  (((XorLinear.id.setWidth 9).shiftLeft 1).xor (XorLinear.id.select 7 modulus)).setWidth 8

/-- The product is linear in the second factor. -/
theorem xorLinear_gfMul (modulus : BitVec 9) (a : BitVec 8) : XorLinear (gfMul modulus a) := by
  have horner : ∀ n, XorLinear fun b : BitVec 8 =>
      Nat.fold n (fun i _ acc => xtime modulus acc ^^^ (if b.getLsbD (7 - i) then a else 0)) 0 := by
    intro n
    induction n with
    | zero => exact XorLinear.const_zero
    | succ n ih =>
        simp only [Nat.fold_succ]
        exact ((xorLinear_xtime modulus).comp ih).xor (XorLinear.id.select (7 - n) a)
  exact horner 8

theorem xorLinear_byteSum {k : Nat} (n : Nat) (f : Nat → BitVec k → BitVec 8)
    (linear : ∀ i < n, XorLinear (f i)) : XorLinear fun a => byteSum n fun i => f i a := by
  induction n with
  | zero => exact XorLinear.const_zero
  | succ n ih =>
      simp only [byteSum, Nat.fold_succ]
      exact (ih fun i below => linear i (Nat.lt_succ_of_lt below)).xor
        (linear n (Nat.lt_succ_self n))

/-- A word is put together linearly from its bytes. -/
theorem xorLinear_leWord {k : Nat} {f0 f1 f2 f3 : BitVec k → BitVec 8} (linear0 : XorLinear f0)
    (linear1 : XorLinear f1) (linear2 : XorLinear f2) (linear3 : XorLinear f3) :
    XorLinear fun a => leWord (f0 a) (f1 a) (f2 a) (f3 a) := fun a b => by
  simp only [linear0 a b, linear1 a b, linear2 a b, linear3 a b, leWord_xor]

end ParallelLabs.Library
