import ParallelLabs.Twofish.PublishedCipher
import Mathlib.Data.Finite.Prod

/-!
# The macro `g` is a bijection

The macro sends each byte of a word through the key-dependent S-box of its position
and adds up the entries of the four fused tables at the bytes (`g_eq_fusedMDS`). An
S-box is a chain of byte permutations with key bytes mixed in between, so it is a
bijection for every key (`sBoxByte_injective`). The entries are columns of the MDS
matrix at permuted bytes. The matrix has an inverse over the field, which is a finite
check since both products are linear (`unmixMDS_mixMDS`), so the sum determines the
bytes (`fusedMDS_injective`).

The byte permutations are injective because their nibble tables and their way of
mixing two nibbles are (`q_injective`).
-/

set_option autoImplicit false
set_option maxRecDepth 4000

namespace ParallelLabs.Twofish

open Library

/-! ## The byte permutations -/

/-- The first of two nibbles, from what `q` makes of them in a layer. -/
def unmixNibbles (s t : BitVec 4) : BitVec 4 :=
  let d := t ^^^ s.rotateRight 1
  d ^^^ d >>> 1 ^^^ d >>> 2 ^^^ d >>> 3

theorem unmixNibbles_mix : ∀ a b : BitVec 4,
    unmixNibbles (a ^^^ b) (a ^^^ b.rotateRight 1 ^^^ (8 * a)) = a := by
  decide +kernel

/-- The two nibbles of a layer are determined by what it makes of them. -/
theorem nibbles_eq {a b a' b' : BitVec 4} (sum : a ^^^ b = a' ^^^ b')
    (mixed : a ^^^ b.rotateRight 1 ^^^ (8 * a) = a' ^^^ b'.rotateRight 1 ^^^ (8 * a')) :
    a = a' ∧ b = b' := by
  have first : a = a' := by
    rw [← unmixNibbles_mix a b, ← unmixNibbles_mix a' b', sum, mixed]
  subst first
  exact ⟨rfl, (BitVec.xor_right_inj a).mp sum⟩

theorem byte_of_nibbles : ∀ x : Byte,
    16 * ((x >>> 4).setWidth 4).setWidth 8 + (x.setWidth 4).setWidth 8 = x := by
  decide +kernel

theorem nibbles_of_byte : ∀ a b : BitVec 4,
    (16 * b.setWidth 8 + a.setWidth 8 : Byte).setWidth 4 = a ∧
      ((16 * b.setWidth 8 + a.setWidth 8 : Byte) >>> 4).setWidth 4 = b := by
  decide +kernel

/-- **A byte permutation is injective** when its tables are. -/
theorem q_injective {t : Published.NibbleTables}
    (tables : ∀ k < 4, Function.Injective fun a : BitVec 4 => (t[k]!)[a.toNat]!) :
    Function.Injective (Published.q t) := by
  intro x x' same
  rw [Published.q, Published.q] at same
  -- From the last tables back to the byte.
  have a4 := congrArg (BitVec.setWidth 4) same
  have b4 := congrArg (fun y : Byte => (y >>> 4).setWidth 4) same
  simp only [(nibbles_of_byte _ _).1, (nibbles_of_byte _ _).2] at a4 b4
  obtain ⟨a2, b2⟩ := nibbles_eq (tables 2 (by decide) a4) (tables 3 (by decide) b4)
  obtain ⟨a0, b0⟩ := nibbles_eq (tables 0 (by decide) a2) (tables 1 (by decide) b2)
  rw [← byte_of_nibbles x, ← byte_of_nibbles x', a0, b0]

theorem q0_injective : Function.Injective Published.q0 := by
  refine q_injective fun k bound => ?_
  have nodup : ∀ k < 4, ∀ a b : BitVec 4,
      (Published.tables0[k]!)[a.toNat]! = (Published.tables0[k]!)[b.toNat]! → a = b := by
    decide +kernel
  exact fun a b same => nodup k bound a b same

theorem q1_injective : Function.Injective Published.q1 := by
  refine q_injective fun k bound => ?_
  have nodup : ∀ k < 4, ∀ a b : BitVec 4,
      (Published.tables1[k]!)[a.toNat]! = (Published.tables1[k]!)[b.toNat]! → a = b := by
    decide +kernel
  exact fun a b same => nodup k bound a b same

/-! ## The MDS matrix -/

/-- The sum of the columns of the MDS matrix at the bytes of a word. -/
def mixMDS (w : Word) : Word :=
  columnMDS 0 (wordByte w 0) ^^^ columnMDS 1 (wordByte w 1) ^^^ columnMDS 2 (wordByte w 2) ^^^
    columnMDS 3 (wordByte w 3)

/-- The inverse of the MDS matrix. -/
def inverseMDS : Vector (Vector Byte 4) 4 := #v[
  #v[0xBB, 0xC4, 0xED, 0x89],
  #v[0x1B, 0xED, 0xBF, 0x7B],
  #v[0xF2, 0x89, 0x7B, 0x89],
  #v[0x32, 0xBB, 0x1B, 0xF2]]

/-- Row `r` of the inverse matrix times the bytes of a word. -/
def rowInverse (r : Nat) (w : Word) : Byte :=
  byteSum 4 fun c => gfMul 0x169 (inverseMDS[r]!)[c]! (wordByte w c)

def unmixMDS (w : Word) : Word :=
  leWord (rowInverse 0 w) (rowInverse 1 w) (rowInverse 2 w) (rowInverse 3 w)

theorem xorLinear_wordByte (n : Nat) : XorLinear fun w : Word => wordByte w n :=
  (XorLinear.id.ushiftRight (8 * n)).setWidth 8

theorem xorLinear_columnMDS (c : Nat) : XorLinear (columnMDS c) :=
  xorLinear_leWord (xorLinear_gfMul _ _) (xorLinear_gfMul _ _) (xorLinear_gfMul _ _)
    (xorLinear_gfMul _ _)

theorem xorLinear_mixMDS : XorLinear mixMDS := by
  have column : ∀ c, XorLinear fun w : Word => columnMDS c (wordByte w c) := fun c =>
    (xorLinear_columnMDS c).comp (xorLinear_wordByte c)
  exact (((column 0).xor (column 1)).xor (column 2)).xor (column 3)

theorem xorLinear_unmixMDS : XorLinear unmixMDS := by
  have row : ∀ r, XorLinear (rowInverse r) := fun r =>
    xorLinear_byteSum 4 _ fun c _ => (xorLinear_gfMul _ _).comp (xorLinear_wordByte c)
  exact xorLinear_leWord (row 0) (row 1) (row 2) (row 3)

/-- **The MDS matrix is invertible.** -/
theorem unmixMDS_mixMDS (w : Word) : unmixMDS (mixMDS w) = w :=
  XorLinear.ext (xorLinear_unmixMDS.comp xorLinear_mixMDS) XorLinear.id (by decide +kernel) w

/-- The entries of the four fused tables at the bytes of a word, added up. -/
def fusedMDS (w : Word) : Word :=
  (MDS[0]!)[(B0 w).toNat]! ^^^ (MDS[1]!)[(B1 w).toNat]! ^^^ (MDS[2]!)[(B2 w).toNat]! ^^^
    (MDS[3]!)[(B3 w).toNat]!

theorem fusedMDS_eq_mds (w : Word) :
    fusedMDS w = mds 0 (B0 w) ^^^ mds 1 (B1 w) ^^^ mds 2 (B2 w) ^^^ mds 3 (B3 w) := rfl

/-- The tables permute a byte before they apply a column. -/
theorem fusedMDS_eq (w : Word) :
    fusedMDS w = mixMDS (leWord (Published.q1 (wordByte w 0)) (Published.q0 (wordByte w 1))
      (Published.q1 (wordByte w 2)) (Published.q0 (wordByte w 3))) := by
  rw [fusedMDS_eq_mds, B0_eq, B1_eq, B2_eq, B3_eq, mds_zero, mds_one, mds_two, mds_three, mixMDS,
    wordByte_zero_leWord, wordByte_one_leWord, wordByte_two_leWord, wordByte_three_leWord]

/-- Words with the same bytes are the same. -/
theorem eq_of_wordBytes {x x' : Word} (same : ∀ n < 4, wordByte x n = wordByte x' n) : x = x' := by
  rw [← leWord_bytes x, ← leWord_bytes x', same 0 (by decide), same 1 (by decide),
    same 2 (by decide), same 3 (by decide)]

/-- A word put together from bytes determines them. -/
theorem leWord_inj {a0 a1 a2 a3 b0 b1 b2 b3 : Byte}
    (same : leWord a0 a1 a2 a3 = leWord b0 b1 b2 b3) : a0 = b0 ∧ a1 = b1 ∧ a2 = b2 ∧ a3 = b3 := by
  have bytes : ∀ n, wordByte (leWord a0 a1 a2 a3) n = wordByte (leWord b0 b1 b2 b3) n := by
    rw [same]
    exact fun _ => rfl
  refine ⟨?_, ?_, ?_, ?_⟩
  · simpa only [wordByte_zero_leWord] using bytes 0
  · simpa only [wordByte_one_leWord] using bytes 1
  · simpa only [wordByte_two_leWord] using bytes 2
  · simpa only [wordByte_three_leWord] using bytes 3

theorem fusedMDS_injective : Function.Injective fusedMDS := by
  intro w w' same
  rw [fusedMDS_eq, fusedMDS_eq] at same
  have mixed := congrArg unmixMDS same
  rw [unmixMDS_mixMDS, unmixMDS_mixMDS] at mixed
  obtain ⟨byte0, byte1, byte2, byte3⟩ := leWord_inj mixed
  refine eq_of_wordBytes fun n bound => ?_
  match n, bound with
  | 0, _ => exact q1_injective byte0
  | 1, _ => exact q0_injective byte1
  | 2, _ => exact q1_injective byte2
  | 3, _ => exact q0_injective byte3
  | n + 4, bound => omega

/-! ## The S-boxes -/

section SBoxes

variable (m : UserKey)

/-- The byte that the S-box of position `j` makes of a byte, before the fused table.
The last case is position `3`. -/
def sBoxByte (j : Nat) (x : Byte) : Byte :=
  let l0 := wordByte (Published.S m 3) j
  let l1 := wordByte (Published.S m 2) j
  let l2 := wordByte (Published.S m 1) j
  let l3 := wordByte (Published.S m 0) j
  match j with
  | 0 => Published.q0 (Published.q0 (Published.q1 (Published.q1 x ^^^ l3) ^^^ l2) ^^^ l1) ^^^ l0
  | 1 => Published.q0 (Published.q1 (Published.q1 (Published.q0 x ^^^ l3) ^^^ l2) ^^^ l1) ^^^ l0
  | 2 => Published.q1 (Published.q0 (Published.q0 (Published.q0 x ^^^ l3) ^^^ l2) ^^^ l1) ^^^ l0
  | _ => Published.q1 (Published.q1 (Published.q0 (Published.q1 x ^^^ l3) ^^^ l2) ^^^ l1) ^^^ l0

theorem sBoxByte_injective (j : Nat) : Function.Injective (sBoxByte m j) := by
  intro x x' same
  match j with
  | 0 | 1 | 2 | _ + 3 =>
      simpa only [sBoxByte, BitVec.xor_left_inj, q0_injective.eq_iff, q1_injective.eq_iff]
        using same

/-- The bytes of a word through the S-boxes. -/
def sBoxBytes (x : Word) : Word :=
  leWord (sBoxByte m 0 (wordByte x 0)) (sBoxByte m 1 (wordByte x 1)) (sBoxByte m 2 (wordByte x 2))
    (sBoxByte m 3 (wordByte x 3))

theorem sBoxBytes_injective : Function.Injective (sBoxBytes m) := by
  intro x x' same
  obtain ⟨byte0, byte1, byte2, byte3⟩ := leWord_inj same
  refine eq_of_wordBytes fun n bound => ?_
  match n, bound with
  | 0, _ => exact sBoxByte_injective m 0 byte0
  | 1, _ => exact sBoxByte_injective m 1 byte1
  | 2, _ => exact sBoxByte_injective m 2 byte2
  | 3, _ => exact sBoxByte_injective m 3 byte3
  | n + 4, bound => omega

/-- The macro is the fused tables after the S-boxes. -/
theorem g_eq_fusedMDS (x : Word) : g (makeSessionKey m).1 x 0 = fusedMDS (sBoxBytes m x) := by
  rw [g_makeSessionKey, Published.G, Published.h, ← columnMDS_sum, fusedMDS_eq, mixMDS, sBoxBytes]
  simp only [wordByte_zero_leWord, wordByte_one_leWord, wordByte_two_leWord,
    wordByte_three_leWord]
  rfl

end SBoxes

/-- An injective function between bit vectors of one width is a bijection. -/
theorem bijective_of_injective {n : Nat} {f : BitVec n → BitVec n}
    (injective : Function.Injective f) : Function.Bijective f := by
  have finite : Finite (BitVec n) :=
    Finite.of_injective BitVec.toFin fun _ _ => BitVec.eq_of_toFin_eq
  exact Finite.injective_iff_bijective.mp injective

/-- **The macro is a bijection on words** at rotation `0`, for every user key: each
key-dependent S-box is a bijection on bytes, and the sum of the entries of the four
fused tables is injective. -/
theorem g_bijective (m : UserKey) :
    (Function.Bijective fun x => g (makeSessionKey m).1 x 0) ∧
      (∀ x, g (makeSessionKey m).1 x 0 = fusedMDS (sBoxBytes m x)) ∧
      (∀ j, Function.Bijective (sBoxByte m j)) ∧ Function.Injective fusedMDS := by
  refine ⟨bijective_of_injective ?_, g_eq_fusedMDS m,
    fun j => bijective_of_injective (sBoxByte_injective m j), fusedMDS_injective⟩
  have decomposed : (fun x => g (makeSessionKey m).1 x 0) = fun x => fusedMDS (sBoxBytes m x) :=
    funext (g_eq_fusedMDS m)
  rw [decomposed]
  exact fusedMDS_injective.comp (sBoxBytes_injective m)

end ParallelLabs.Twofish
