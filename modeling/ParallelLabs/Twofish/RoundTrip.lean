import ParallelLabs.Library.CheckedLoop
import ParallelLabs.Twofish.Cipher
import Mathlib.Logic.Equiv.Basic

/-!
# Decryption undoes encryption, and encryption undoes decryption

A cycle of `decrypt` undoes a cycle of `encrypt` when it starts with the subkey
index at the last subkey that the cycle of `encrypt` used, and conversely. The
index moves by four in a cycle, up in one function and down in the other, so
eight cycles of one after eight cycles of the other give back the words. The two
whitenings cancel, and the bytes of a block and its words determine each other.

The round function is arbitrary. The law holds for every S-box table and every
list of subkeys, hence for the session key of every user key.
-/

set_option autoImplicit false

namespace ParallelLabs.Twofish

open Library

section Cycles

variable (g : RoundFunction) (sbox : SBox) (skey : Subkeys)

/-! ## One cycle -/

/-- A cycle of `encrypt` masks and rotates one word of each half, and does the
opposite to the other. -/
theorem encryptCycle_eq (s : Cycle) :
    encryptCycle g sbox skey s =
      let t0 := g sbox s.x0 0
      let t1 := g sbox s.x1 3
      let x2 := maskRotate (t0 + t1 + skey[s.k]!) s.x2
      let x3 := (maskRotate (t0 + 2 * t1 + skey[s.k + 1]!)).symm s.x3
      let t0 := g sbox x2 0
      let t1 := g sbox x3 3
      let x0 := maskRotate (t0 + t1 + skey[s.k + 2]!) s.x0
      let x1 := (maskRotate (t0 + 2 * t1 + skey[s.k + 3]!)).symm s.x1
      ⟨x0, x1, x2, x3, s.k + 4⟩ := by
  simp only [encryptCycle, maskRotate_eq_shifts, maskRotate_symm_eq_shifts]

/-- A cycle of `decrypt` does the same with the words of a half exchanged. -/
theorem decryptCycle_eq (s : Cycle) :
    decryptCycle g sbox skey s =
      let t0 := g sbox s.x2 0
      let t1 := g sbox s.x3 3
      let x1 := maskRotate (t0 + 2 * t1 + skey[s.k]!) s.x1
      let x0 := (maskRotate (t0 + t1 + skey[s.k - 1]!)).symm s.x0
      let t0 := g sbox x0 0
      let t1 := g sbox x1 3
      let x3 := maskRotate (t0 + 2 * t1 + skey[s.k - 2]!) s.x3
      let x2 := (maskRotate (t0 + t1 + skey[s.k - 3]!)).symm s.x2
      ⟨x0, x1, x2, x3, s.k - 4⟩ := by
  simp only [decryptCycle, maskRotate_eq_shifts, maskRotate_symm_eq_shifts]

/-- The state with the index of the last subkey used in place of the next. -/
def Cycle.backward (s : Cycle) : Cycle := { s with k := s.k - 1 }

/-- The state with the index of the next subkey in place of the last one used. -/
def Cycle.forward (s : Cycle) : Cycle := { s with k := s.k + 1 }

theorem decryptCycle_encryptCycle (s : Cycle) :
    decryptCycle g sbox skey (encryptCycle g sbox skey s).backward = s.backward := by
  have index : s.k + 4 - 1 = s.k + 3 := by omega
  have next : s.k + 3 - 4 = s.k - 1 := by omega
  rw [decryptCycle_eq, encryptCycle_eq]
  simp only [Cycle.backward, index, next, Nat.add_sub_cancel, Equiv.apply_symm_apply,
    Equiv.symm_apply_apply, show s.k + 3 - 1 = s.k + 2 by omega,
    show s.k + 3 - 2 = s.k + 1 by omega]

theorem encryptCycle_decryptCycle (s : Cycle) (enough : 4 ≤ s.k) :
    encryptCycle g sbox skey (decryptCycle g sbox skey s).forward = s.forward := by
  obtain ⟨x0, x1, x2, x3, k⟩ := s
  obtain ⟨j, rfl⟩ : ∃ j, k = j + 4 := ⟨k - 4, (Nat.sub_add_cancel enough).symm⟩
  rw [encryptCycle_eq, decryptCycle_eq]
  simp only [Cycle.forward, Nat.add_sub_cancel, Equiv.apply_symm_apply,
    Equiv.symm_apply_apply, Nat.add_assoc, Nat.reduceAdd, show j + 4 - 1 = j + 3 by omega,
    show j + 4 - 2 = j + 2 by omega, show j + 4 - 3 = j + 1 by omega]

theorem decryptCycle_iterate_k (n : Nat) (s : Cycle) :
    ((decryptCycle g sbox skey)^[n] s).k = s.k - 4 * n := by
  induction n with
  | zero => rfl
  | succ n ih =>
      rw [Function.iterate_succ_apply']
      show ((decryptCycle g sbox skey)^[n] s).k - 4 = s.k - 4 * (n + 1)
      omega

theorem encryptCycle_iterate_k (n : Nat) (s : Cycle) :
    ((encryptCycle g sbox skey)^[n] s).k = s.k + 4 * n := by
  induction n with
  | zero => rfl
  | succ n ih =>
      rw [Function.iterate_succ_apply']
      show ((encryptCycle g sbox skey)^[n] s).k + 4 = s.k + 4 * (n + 1)
      omega

/-! ## All the cycles of a block -/

/-- Eight cycles of `decrypt` from subkey 39 down undo eight cycles of `encrypt`
from subkey 8 up. -/
theorem decryptCycles_encryptCycles (x0 x1 x2 x3 : Word) :
    let s := (encryptCycle g sbox skey)^[8] ⟨x0, x1, x2, x3, 8⟩
    (decryptCycle g sbox skey)^[8] ⟨s.x0, s.x1, s.x2, s.x3, 39⟩ = ⟨x0, x1, x2, x3, 7⟩ := by
  intro s
  have index : s.k = 40 := encryptCycle_iterate_k g sbox skey 8 _
  have turned : s.backward = ⟨s.x0, s.x1, s.x2, s.x3, 39⟩ := by rw [Cycle.backward, index]
  rw [← turned]
  exact iterate_undo 8 _ fun _ _ => decryptCycle_encryptCycle g sbox skey _

/-- Eight cycles of `encrypt` undo eight cycles of `decrypt`. -/
theorem encryptCycles_decryptCycles (x0 x1 x2 x3 : Word) :
    let s := (decryptCycle g sbox skey)^[8] ⟨x0, x1, x2, x3, 39⟩
    (encryptCycle g sbox skey)^[8] ⟨s.x0, s.x1, s.x2, s.x3, 8⟩ = ⟨x0, x1, x2, x3, 40⟩ := by
  intro s
  have index : s.k = 7 := decryptCycle_iterate_k g sbox skey 8 _
  have turned : s.forward = ⟨s.x0, s.x1, s.x2, s.x3, 8⟩ := by rw [Cycle.forward, index]
  rw [← turned]
  refine iterate_undo 8 _ fun m below => encryptCycle_decryptCycle g sbox skey _ ?_
  rw [decryptCycle_iterate_k]
  show 4 ≤ 39 - 4 * m
  omega

end Cycles

/-! ## Whole blocks -/

theorem decryptWith_encryptWith (g : RoundFunction) (key : SessionKey) (b : Block) :
    decryptWith g key (encryptWith g key b) = b := by
  simp only [encryptWith, decryptWith, blockOfWords, Vector.getElem_mk, List.getElem_toArray,
    List.getElem_cons_zero, List.getElem_cons_succ, leWord_bytes, xor_xor_cancel,
    decryptCycles_encryptCycles]
  exact blockOfWords_leWord b

theorem encryptWith_decryptWith (g : RoundFunction) (key : SessionKey) (b : Block) :
    encryptWith g key (decryptWith g key b) = b := by
  simp only [encryptWith, decryptWith, blockOfWords, Vector.getElem_mk, List.getElem_toArray,
    List.getElem_cons_zero, List.getElem_cons_succ, leWord_bytes, xor_xor_cancel,
    encryptCycles_decryptCycles]
  exact blockOfWords_leWord b

/-- **The block law.** For every round function, session key and block, each of
the two block functions undoes the other. -/
theorem blockFunctions_inverse (g : RoundFunction) (key : SessionKey) (b : Block) :
    decryptWith g key (encryptWith g key b) = b ∧
      encryptWith g key (decryptWith g key b) = b :=
  ⟨decryptWith_encryptWith g key b, encryptWith_decryptWith g key b⟩

end ParallelLabs.Twofish
