import Mathlib.Logic.Equiv.Basic
import Mathlib.Tactic.SplitIfs

/-!
# Words and their bytes

A 32-bit word and its four bytes, least significant byte first, the rotations
written with shifts, and rotation after a mask.

Reading four bytes as a word and taking the bytes of a word are inverse to each
other (`leWord_bytes`, `wordByte_zero_leWord` and its companions). The shift
idioms for rotations are the library rotations. Masking a word and rotating it
right by one is a permutation of the words, undone by rotating left by one and
masking again (`maskRotate`).
-/

set_option autoImplicit false

namespace ParallelLabs.Library

/-- The word with the given bytes, least significant first. -/
def leWord (b0 b1 b2 b3 : BitVec 8) : BitVec 32 :=
  b0.setWidth 32 ||| b1.setWidth 32 <<< 8 ||| b2.setWidth 32 <<< 16 ||| b3.setWidth 32 <<< 24

/-- Byte `n` of a word. -/
def wordByte (x : BitVec 32) (n : Nat) : BitVec 8 := (x >>> (8 * n)).setWidth 8

/-- The bits of a byte of a word. -/
theorem getLsbD_wordByte (x : BitVec 32) (n : Nat) {i : Nat} (bound : i < 8) :
    (wordByte x n).getLsbD i = x.getLsbD (8 * n + i) := by
  rw [wordByte, BitVec.getLsbD_setWidth, BitVec.getLsbD_ushiftRight, decide_eq_true bound,
    Bool.true_and]

/-- The bits of a word put together from bytes. -/
theorem getLsbD_leWord (b0 b1 b2 b3 : BitVec 8) {i : Nat} (bound : i < 32) :
    (leWord b0 b1 b2 b3).getLsbD i =
      if i < 8 then b0.getLsbD i else if i < 16 then b1.getLsbD (i - 8)
      else if i < 24 then b2.getLsbD (i - 16) else b3.getLsbD (i - 24) := by
  simp only [leWord, BitVec.getLsbD_or, BitVec.getLsbD_shiftLeft, BitVec.getLsbD_setWidth]
  have outside : ∀ (b : BitVec 8) {j : Nat}, 8 ≤ j → b.getLsbD j = false :=
    fun b j high => BitVec.getLsbD_of_ge b j high
  split_ifs with low middle high
  · simp [bound, low, Nat.lt_of_lt_of_le low]
  · have first := outside b0 (Nat.not_lt.mp low)
    have inside : i - 8 < 32 := by omega
    simp [bound, low, middle, Nat.lt_of_lt_of_le middle, first, inside]
  · have first := outside b0 (Nat.not_lt.mp low)
    have second : b1.getLsbD (i - 8) = false := outside b1 (by omega)
    have inside : i - 16 < 32 := by omega
    simp [bound, low, middle, high, first, second, inside]
  · have first := outside b0 (Nat.not_lt.mp low)
    have second : b1.getLsbD (i - 8) = false := outside b1 (by omega)
    have third : b2.getLsbD (i - 16) = false := outside b2 (by omega)
    have inside : i - 24 < 32 := by omega
    simp [bound, low, middle, high, first, second, third, inside]

/-- A word is determined by its four bytes. -/
@[simp] theorem leWord_bytes (x : BitVec 32) :
    leWord (wordByte x 0) (wordByte x 1) (wordByte x 2) (wordByte x 3) = x := by
  apply BitVec.eq_of_getLsbD_eq
  intro i bound
  rw [getLsbD_leWord _ _ _ _ bound]
  split_ifs with low middle high
  · rw [getLsbD_wordByte x 0 low, Nat.mul_zero, Nat.zero_add]
  · rw [getLsbD_wordByte x 1 (by omega), Nat.mul_one, Nat.add_sub_cancel' (by omega)]
  · rw [getLsbD_wordByte x 2 (by omega), Nat.add_sub_cancel' (by omega)]
  · rw [getLsbD_wordByte x 3 (by omega), Nat.add_sub_cancel' (by omega)]

theorem leWord_xor (a0 a1 a2 a3 b0 b1 b2 b3 : BitVec 8) :
    leWord (a0 ^^^ b0) (a1 ^^^ b1) (a2 ^^^ b2) (a3 ^^^ b3) =
      leWord a0 a1 a2 a3 ^^^ leWord b0 b1 b2 b3 := by
  apply BitVec.eq_of_getLsbD_eq
  intro i bound
  rw [BitVec.getLsbD_xor, getLsbD_leWord _ _ _ _ bound, getLsbD_leWord _ _ _ _ bound,
    getLsbD_leWord _ _ _ _ bound]
  split_ifs <;> exact BitVec.getLsbD_xor

/-! ## Taking the bytes of a word that was put together from bytes -/

section Bytes

variable (b0 b1 b2 b3 : BitVec 8)

@[simp] theorem wordByte_zero_leWord : wordByte (leWord b0 b1 b2 b3) 0 = b0 := by
  apply BitVec.eq_of_getLsbD_eq
  intro i bound
  rw [getLsbD_wordByte _ 0 bound, getLsbD_leWord _ _ _ _ (by omega), if_pos (by omega),
    Nat.mul_zero, Nat.zero_add]

@[simp] theorem wordByte_one_leWord : wordByte (leWord b0 b1 b2 b3) 1 = b1 := by
  apply BitVec.eq_of_getLsbD_eq
  intro i bound
  rw [getLsbD_wordByte _ 1 bound, getLsbD_leWord _ _ _ _ (by omega), if_neg (by omega),
    if_pos (by omega), Nat.mul_one, Nat.add_sub_cancel_left]

@[simp] theorem wordByte_two_leWord : wordByte (leWord b0 b1 b2 b3) 2 = b2 := by
  apply BitVec.eq_of_getLsbD_eq
  intro i bound
  rw [getLsbD_wordByte _ 2 bound, getLsbD_leWord _ _ _ _ (by omega), if_neg (by omega),
    if_neg (by omega), if_pos (by omega), Nat.add_sub_cancel_left]

@[simp] theorem wordByte_three_leWord : wordByte (leWord b0 b1 b2 b3) 3 = b3 := by
  apply BitVec.eq_of_getLsbD_eq
  intro i bound
  rw [getLsbD_wordByte _ 3 bound, getLsbD_leWord _ _ _ _ (by omega), if_neg (by omega),
    if_neg (by omega), if_neg (by omega), Nat.add_sub_cancel_left]

end Bytes

/-! ## Two words in 64 bits -/

section Pairs

variable (hi lo : BitVec 32)

theorem append_low : (hi ++ lo : BitVec 64).setWidth 32 = lo := by
  ext i within
  rw [BitVec.getElem_setWidth, BitVec.getLsbD_append]
  simp [within]

theorem append_high : ((hi ++ lo : BitVec 64) >>> 32).setWidth 32 = hi := by
  ext i within
  have rest : 32 + i - 32 = i := by omega
  rw [BitVec.getElem_setWidth, BitVec.getLsbD_ushiftRight, BitVec.getLsbD_append, rest]
  simp [BitVec.getLsbD_eq_getElem within]

theorem append_byte_low (c : Nat) (bound : c < 4) :
    ((hi ++ lo : BitVec 64) >>> (8 * c)).setWidth 8 = wordByte lo c := by
  ext i within
  have low : 8 * c + i < 32 := by omega
  rw [wordByte, BitVec.getElem_setWidth, BitVec.getElem_setWidth, BitVec.getLsbD_ushiftRight,
    BitVec.getLsbD_ushiftRight, BitVec.getLsbD_append]
  simp [low]

theorem append_byte_high (c : Nat) :
    ((hi ++ lo : BitVec 64) >>> (8 * (c + 4))).setWidth 8 = wordByte hi c := by
  ext i within
  have high : ¬ 8 * (c + 4) + i < 32 := by omega
  have rest : 8 * (c + 4) + i - 32 = 8 * c + i := by omega
  rw [wordByte, BitVec.getElem_setWidth, BitVec.getElem_setWidth, BitVec.getLsbD_ushiftRight,
    BitVec.getLsbD_ushiftRight, BitVec.getLsbD_append]
  simp [high, rest]

end Pairs

/-- Masking out the low byte. -/
theorem and_byteMask (x : BitVec 32) : x &&& 0xFF = (x.setWidth 8).setWidth 32 := by
  apply BitVec.eq_of_toNat_eq
  have low : x.toNat &&& 255 = x.toNat % 256 := Nat.and_two_pow_sub_one_eq_mod x.toNat 8
  simp [low]
  omega

/-! ## Rotations -/

theorem shiftRight_or_shiftLeft_eq_rotateRight (x : BitVec 32) :
    x >>> 1 ||| x <<< 31 = x.rotateRight 1 := by
  simp [BitVec.rotateRight_def]

theorem shiftLeft_or_shiftRight_eq_rotateLeft (x : BitVec 32) :
    x <<< 1 ||| x >>> 31 = x.rotateLeft 1 := by
  simp [BitVec.rotateLeft_def]

theorem rotateRight_rotateLeft (x : BitVec 32) {r : Nat} (less : r < 32) :
    (x.rotateLeft r).rotateRight r = x := by
  apply BitVec.eq_of_getLsbD_eq
  intro i bound
  simp only [BitVec.getLsbD_rotateLeft, BitVec.getLsbD_rotateRight, Nat.mod_eq_of_lt less,
    Bool.cond_decide]
  -- The top `r` bits go round.
  rcases Nat.lt_or_ge i (32 - r) with low | high
  · have same : r + i - r = i := by omega
    have inside : r + i < 32 := by omega
    rw [if_pos low, if_neg (by omega), same, decide_eq_true inside, Bool.true_and]
  · have same : 32 - r + (i - (32 - r)) = i := by omega
    rw [if_neg (by omega), if_pos (by omega), same, decide_eq_true bound, Bool.true_and]

theorem rotateLeft_rotateRight (x : BitVec 32) {r : Nat} (less : r < 32) :
    (x.rotateRight r).rotateLeft r = x := by
  apply BitVec.eq_of_getLsbD_eq
  intro i bound
  simp only [BitVec.getLsbD_rotateLeft, BitVec.getLsbD_rotateRight, Nat.mod_eq_of_lt less,
    Bool.cond_decide]
  rcases Nat.lt_or_ge i r with low | high
  · have same : 32 - r + i - (32 - r) = i := by omega
    have inside : 32 - r + i < 32 := by omega
    rw [if_pos low, if_neg (by omega), same, decide_eq_true inside, Bool.true_and]
  · have same : r + (i - r) = i := by omega
    rw [if_neg (by omega), if_pos (by omega), same, decide_eq_true bound, Bool.true_and]

theorem xor_xor_cancel {w : Nat} (x mask : BitVec w) : x ^^^ mask ^^^ mask = x := by
  rw [BitVec.xor_assoc, BitVec.xor_self, BitVec.xor_zero]

/-- Mask a word and rotate it right by one. The inverse rotates left by one and
masks again. -/
def maskRotate (mask : BitVec 32) : BitVec 32 ≃ BitVec 32 where
  toFun x := (x ^^^ mask).rotateRight 1
  invFun y := y.rotateLeft 1 ^^^ mask
  left_inv x := by simp only [rotateLeft_rotateRight _ (by decide : 1 < 32), xor_xor_cancel]
  right_inv y := by simp only [xor_xor_cancel, rotateRight_rotateLeft _ (by decide : 1 < 32)]

theorem maskRotate_eq_shifts (mask x : BitVec 32) :
    (x ^^^ mask) >>> 1 ||| (x ^^^ mask) <<< 31 = maskRotate mask x :=
  shiftRight_or_shiftLeft_eq_rotateRight _

theorem maskRotate_symm_eq_shifts (mask y : BitVec 32) :
    (y <<< 1 ||| y >>> 31) ^^^ mask = (maskRotate mask).symm y :=
  congrArg (· ^^^ mask) (shiftLeft_or_shiftRight_eq_rotateLeft y)

end ParallelLabs.Library
