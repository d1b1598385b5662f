import ParallelLabs.Twofish.KeySchedule
import ParallelLabs.Twofish.Network
import Mathlib.Tactic.IntervalCases

/-!
# The cipher as published

The key schedule and the block function together: for every user key, `encrypt`
under the session key of the code is the published network over the published
subkeys and round function (`encrypt_makeSessionKey`).
-/

set_option autoImplicit false

namespace ParallelLabs.Twofish

open Library

variable (m : UserKey)

/-- The macro selects the bytes of the word in order. -/
theorem Bn_eq_wordByte (x : Word) (n : Nat) (bound : n < 4) :
    Bn x n = (wordByte x n).setWidth 32 := by
  rw [Bn, and_byteMask, Nat.mod_eq_of_lt (by omega : 8 * n < 32), ← wordByte]

/-- The four table indices that the macro computes in words, as natural numbers. -/
theorem toNat_tableIndex (b : Byte) :
    (2 * b.setWidth 32).toNat = 2 * b.toNat ∧
      (2 * b.setWidth 32 + 1).toNat = 2 * b.toNat + 1 ∧
      (0x200 + 2 * b.setWidth 32).toNat = 0x200 + 2 * b.toNat ∧
      (0x200 + 2 * b.setWidth 32 + 1).toNat = 0x200 + 2 * b.toNat + 1 := by
  have byte := b.isLt
  have one : (1 : Word).toNat = 1 := rfl
  have two : (2 : Word).toNat = 2 := rfl
  have half : (0x200 : Word).toNat = 0x200 := rfl
  simp only [BitVec.toNat_add, BitVec.toNat_mul, toNat_promoted, one, two, half]
  omega

/-- The macro at rotation `0` is the published round function. -/
theorem g_makeSessionKey (x : Word) : g (makeSessionKey m).1 x 0 = Published.G m x := by
  rw [Published.G, ← sBox_eq m x, g, Bn_eq_wordByte x 0 (by decide),
    Bn_eq_wordByte x (0 + 1) (by decide), Bn_eq_wordByte x (0 + 2) (by decide),
    Bn_eq_wordByte x (0 + 3) (by decide), (toNat_tableIndex _).1, (toNat_tableIndex _).2.1,
    (toNat_tableIndex _).2.2.1, (toNat_tableIndex _).2.2.2]

/-- Each pair of published subkeys is the pair that the code stores. -/
theorem makeSessionKey_snd_eq_K : (makeSessionKey m).2 = Published.K m := by
  have pair : ∀ i < 20, (makeSessionKey m).2[2 * i]! = (Published.K m)[2 * i]! ∧
      (makeSessionKey m).2[2 * i + 1]! = (Published.K m)[2 * i + 1]! := by
    intro i bound
    rw [subkey_even m i bound, subkey_odd m i bound]
    interval_cases i <;> exact ⟨rfl, rfl⟩
  apply Vector.ext
  intro n bound
  rw [← getElem!_pos _ n bound, ← getElem!_pos _ n bound]
  obtain ⟨i, rfl | rfl⟩ := Nat.even_or_odd' n
  · exact (pair i (by omega)).1
  · exact (pair i (by omega)).2

/-- **The code's cipher is the published one**, for every user key and block. -/
theorem encrypt_makeSessionKey (p : Block) :
    encrypt (makeSessionKey m) p = Network.encrypt (Published.G m) (Published.K m) p := by
  have roundFunction : (fun x => g (makeSessionKey m).1 x 0) = Published.G m :=
    funext (g_makeSessionKey m)
  rw [← makeSessionKey_snd_eq_K, ← roundFunction]
  show encrypt ((makeSessionKey m).1, (makeSessionKey m).2) p = _
  rw [encrypt_eq_blockOfWords, cycles_eq_rounds _ _ 8 (startCycle _ p) rfl,
    blockOfWords_outputWord]
  rfl

end ParallelLabs.Twofish
