import ParallelLabs.Library.CheckedLoop
import ParallelLabs.Twofish.Published

/-!
# The tables and the remainder against the finite fields

The program works from tables of fused values and takes a Reed-Solomon remainder
byte by byte. Both agree with the definition over the finite fields.

The tables of `P` are the two published permutations, and entry `b` of a table
of `MDS` is a column of the MDS matrix times a permuted byte. These are checks
of the literals, entry by entry. They make the lambda `h` of the program the
published `h` (`h_eq`).

`RS_rem` is linear, so the remainder of two words is the published product by the
Reed-Solomon matrix as soon as the two agree at the powers of two
(`rsMdsEncode_eq`).
-/

set_option autoImplicit false
set_option maxRecDepth 4000

namespace ParallelLabs.Twofish

open Library

/-! ## The tables of permutations -/

theorem P_toList :
    P0.toList = ((List.range 256).map fun i => Published.q0 (BitVec.ofNat 8 i)) ∧
      P1.toList = (List.range 256).map fun i => Published.q1 (BitVec.ofNat 8 i) := by
  constructor
  · decide +kernel
  · decide +kernel

/-! ## The tables of products -/

/-- Division by the indeterminate modulo `0x169`. -/
def halve (y : Byte) : Byte := (y >>> 1) ^^^ (if y.getLsbD 0 then 0xB4 else 0)

/-- The product by `0x5B` modulo `0x169`, with shifts. -/
def mul5B (y : Byte) : Byte := y ^^^ halve (halve y)

/-- The product by `0xEF` modulo `0x169`, with shifts. -/
def mulEF (y : Byte) : Byte := y ^^^ halve y ^^^ halve (halve y)

theorem xorLinear_halve : XorLinear halve :=
  (XorLinear.id.ushiftRight 1).xor (XorLinear.id.select 0 (0xB4 : Byte))

theorem gfMul_01 (y : Byte) : gfMul 0x169 0x01 y = y :=
  XorLinear.ext (xorLinear_gfMul _ _) XorLinear.id (by decide) y

theorem gfMul_5B (y : Byte) : gfMul 0x169 0x5B y = mul5B y := by
  have linear : XorLinear mul5B := XorLinear.id.xor (xorLinear_halve.comp xorLinear_halve)
  exact XorLinear.ext (xorLinear_gfMul _ _) linear (by decide) y

theorem gfMul_EF (y : Byte) : gfMul 0x169 0xEF y = mulEF y := by
  have linear : XorLinear mulEF :=
    (XorLinear.id.xor xorLinear_halve).xor (xorLinear_halve.comp xorLinear_halve)
  exact XorLinear.ext (xorLinear_gfMul _ _) linear (by decide) y

/-- Column `c` of the MDS matrix times a byte, as a word. -/
def columnMDS (c : Nat) (y : Byte) : Word :=
  leWord (gfMul 0x169 (Published.matrixMDS[0]!)[c]! y) (gfMul 0x169 (Published.matrixMDS[1]!)[c]! y)
    (gfMul 0x169 (Published.matrixMDS[2]!)[c]! y) (gfMul 0x169 (Published.matrixMDS[3]!)[c]! y)

theorem columnMDS_zero : columnMDS 0 = fun y => leWord y (mul5B y) (mulEF y) (mulEF y) := by
  funext y
  show leWord (gfMul 0x169 0x01 y) (gfMul 0x169 0x5B y) (gfMul 0x169 0xEF y)
    (gfMul 0x169 0xEF y) = _
  rw [gfMul_01, gfMul_5B, gfMul_EF]

theorem columnMDS_one : columnMDS 1 = fun y => leWord (mulEF y) (mulEF y) (mul5B y) y := by
  funext y
  show leWord (gfMul 0x169 0xEF y) (gfMul 0x169 0xEF y) (gfMul 0x169 0x5B y)
    (gfMul 0x169 0x01 y) = _
  rw [gfMul_01, gfMul_5B, gfMul_EF]

theorem columnMDS_two : columnMDS 2 = fun y => leWord (mul5B y) (mulEF y) y (mulEF y) := by
  funext y
  show leWord (gfMul 0x169 0x5B y) (gfMul 0x169 0xEF y) (gfMul 0x169 0x01 y)
    (gfMul 0x169 0xEF y) = _
  rw [gfMul_01, gfMul_5B, gfMul_EF]

theorem columnMDS_three : columnMDS 3 = fun y => leWord (mul5B y) y (mulEF y) (mul5B y) := by
  funext y
  show leWord (gfMul 0x169 0x5B y) (gfMul 0x169 0x01 y) (gfMul 0x169 0xEF y)
    (gfMul 0x169 0x5B y) = _
  rw [gfMul_01, gfMul_5B, gfMul_EF]

theorem MDS_toList :
    MDS0.toList = P1.toList.map (columnMDS 0) ∧ MDS1.toList = P0.toList.map (columnMDS 1) ∧
      MDS2.toList = P1.toList.map (columnMDS 2) ∧ MDS3.toList = P0.toList.map (columnMDS 3) := by
  rw [columnMDS_zero, columnMDS_one, columnMDS_two, columnMDS_three]
  refine ⟨?_, ?_, ?_, ?_⟩
  · decide +kernel
  · decide +kernel
  · decide +kernel
  · decide +kernel

/-! ## Looking the tables up at a byte -/

theorem toNat_promoted (b : Byte) : (b.setWidth 32).toNat = b.toNat := by
  simp
  omega

@[simp] theorem permute_zero (b : Byte) :
    permute 0 (b.setWidth 32) = (Published.q0 b).setWidth 32 := by
  show (P0[(b.setWidth 32).toNat]!).setWidth 32 = _
  rw [toNat_promoted, getElem!_of_toList P_toList.1 b.isLt, BitVec.ofNat_toNat, BitVec.setWidth_eq]

@[simp] theorem permute_one (b : Byte) :
    permute 1 (b.setWidth 32) = (Published.q1 b).setWidth 32 := by
  show (P1[(b.setWidth 32).toNat]!).setWidth 32 = _
  rw [toNat_promoted, getElem!_of_toList P_toList.2 b.isLt, BitVec.ofNat_toNat, BitVec.setWidth_eq]

/-- A table of products over a table of permuted bytes. -/
theorem products_of_toList {table : Vector Word 256} {permuted : Vector Byte 256} {q : Byte → Byte}
    {column : Byte → Word} (listed : table.toList = permuted.toList.map column)
    (permutes : permuted.toList = (List.range 256).map fun i => q (BitVec.ofNat 8 i)) (b : Byte) :
    table[(b.setWidth 32).toNat]! = column (q b) := by
  rw [permutes, List.map_map] at listed
  rw [toNat_promoted, getElem!_of_toList listed b.isLt, Function.comp_apply, BitVec.ofNat_toNat,
    BitVec.setWidth_eq]

@[simp] theorem mds_zero (b : Byte) : mds 0 (b.setWidth 32) = columnMDS 0 (Published.q1 b) :=
  products_of_toList MDS_toList.1 P_toList.2 b

@[simp] theorem mds_one (b : Byte) : mds 1 (b.setWidth 32) = columnMDS 1 (Published.q0 b) :=
  products_of_toList MDS_toList.2.1 P_toList.1 b

@[simp] theorem mds_two (b : Byte) : mds 2 (b.setWidth 32) = columnMDS 2 (Published.q1 b) :=
  products_of_toList MDS_toList.2.2.1 P_toList.2 b

@[simp] theorem mds_three (b : Byte) : mds 3 (b.setWidth 32) = columnMDS 3 (Published.q0 b) :=
  products_of_toList MDS_toList.2.2.2 P_toList.1 b

/-! ## The function `h` -/

theorem B0_eq (w : Word) : B0 w = (wordByte w 0).setWidth 32 := and_byteMask w
theorem B1_eq (w : Word) : B1 w = (wordByte w 1).setWidth 32 := and_byteMask _
theorem B2_eq (w : Word) : B2 w = (wordByte w 2).setWidth 32 := and_byteMask _
theorem B3_eq (w : Word) : B3 w = (wordByte w 3).setWidth 32 := and_byteMask _

/-- The sum of the columns of the MDS matrix at four bytes is the product of the
matrix with the vector of the bytes. -/
theorem columnMDS_sum (y : Nat → Byte) :
    columnMDS 0 (y 0) ^^^ columnMDS 1 (y 1) ^^^ columnMDS 2 (y 2) ^^^ columnMDS 3 (y 3) =
      leWord (Published.rowMDS 0 y) (Published.rowMDS 1 y) (Published.rowMDS 2 y)
        (Published.rowMDS 3 y) := by
  simp only [columnMDS, ← leWord_xor, Published.rowMDS, byteSum, Nat.fold_succ, Nat.fold_zero,
    BitVec.ofNat_eq_ofNat, BitVec.zero_xor]

/-- **The lambda `h` is the published `h`.** -/
theorem h_eq (x : Word) (L : KVector) : h x L = Published.h x L[0]! L[1]! L[2]! L[3]! := by
  rw [Published.h, ← columnMDS_sum]
  simp only [h, B0_eq, B1_eq, B2_eq, B3_eq, permute_zero, permute_one, ← BitVec.setWidth_xor,
    mds_zero, mds_one, mds_two, mds_three]
  rfl

/-! ## The Reed-Solomon remainder -/

/-- Testing one bit of a word with a mask. -/
theorem select_and (b c : Word) (bit : Nat) (bound : bit < 32) :
    (if b &&& BitVec.twoPow 32 bit ≠ 0 then c else 0) = if b.getLsbD bit then c else 0 := by
  rw [BitVec.and_twoPow]
  cases b.getLsbD bit with
  | false => simp
  | true =>
      have single : BitVec.twoPow 32 bit ≠ 0#32 := fun null => by
        have top := congrArg (fun w : Word => w.getLsbD bit) null
        simp [bound] at top
      simp [single]

theorem xorLinear_rsRem : XorLinear rsRem := by
  have top : XorLinear fun x : Word => (x >>> 24) &&& 0xFF :=
    (XorLinear.id.ushiftRight 24).and_const 0xFF
  have double : XorLinear fun x : Word =>
      ((((x >>> 24) &&& 0xFF) <<< 1) ^^^
        (if (x >>> 24) &&& 0xFF &&& 0x80 ≠ 0 then RS_GF_FDBK else 0)) &&& 0xFF := by
    have selected := top.select 7 RS_GF_FDBK
    simp only [← select_and _ _ 7 (by decide)] at selected
    exact ((top.shiftLeft 1).xor selected).and_const 0xFF
  have half : XorLinear fun x : Word =>
      (((x >>> 24) &&& 0xFF) >>> 1) ^^^
        (if (x >>> 24) &&& 0xFF &&& 0x01 ≠ 0 then RS_GF_FDBK >>> 1 else 0) := by
    have selected := top.select 0 (RS_GF_FDBK >>> 1)
    simp only [← select_and _ _ 0 (by decide)] at selected
    exact (top.ushiftRight 1).xor selected
  have third := half.xor double
  exact ((((XorLinear.id.shiftLeft 8).xor (third.shiftLeft 24)).xor (double.shiftLeft 16)).xor
    (third.shiftLeft 8)).xor top

/-- The remainder of the two words held in 64 bits. -/
def rsRemainder (K : BitVec 64) : Word :=
  rsMdsEncode (K.setWidth 32) ((K >>> 32).setWidth 32)

/-- The published product by the Reed-Solomon matrix, of the eight bytes of 64 bits. -/
def rsProduct (K : BitVec 64) : Word :=
  let bytes := fun c => (K >>> (8 * c)).setWidth 8
  leWord (Published.rowRS 0 bytes) (Published.rowRS 1 bytes) (Published.rowRS 2 bytes)
    (Published.rowRS 3 bytes)

theorem xorLinear_rsRemainder : XorLinear rsRemainder := by
  have low : XorLinear fun K : BitVec 64 => K.setWidth 32 := XorLinear.id.setWidth 32
  have high : XorLinear fun K : BitVec 64 => (K >>> 32).setWidth 32 :=
    (XorLinear.id.ushiftRight 32).setWidth 32
  exact (xorLinear_rsRem.iterate 4).comp (((xorLinear_rsRem.iterate 4).comp high).xor low)

theorem xorLinear_rowRS (r : Nat) :
    XorLinear fun K : BitVec 64 => Published.rowRS r fun c => (K >>> (8 * c)).setWidth 8 :=
  xorLinear_byteSum 8 _ fun c _ =>
    (xorLinear_gfMul _ _).comp ((XorLinear.id.ushiftRight (8 * c)).setWidth 8)

theorem rsRemainder_eq (K : BitVec 64) : rsRemainder K = rsProduct K :=
  XorLinear.ext xorLinear_rsRemainder
    (xorLinear_leWord (xorLinear_rowRS 0) (xorLinear_rowRS 1) (xorLinear_rowRS 2)
      (xorLinear_rowRS 3))
    (by decide +kernel) K

/-- A row of the code only reads the eight bytes. -/
theorem rowRS_congr (r : Nat) {f g : Nat → Byte} (same : ∀ c < 8, f c = g c) :
    Published.rowRS r f = Published.rowRS r g := by
  simp only [Published.rowRS, byteSum, Nat.fold_succ, Nat.fold_zero]
  rw [same 0 (by decide), same 1 (by decide), same 2 (by decide), same 3 (by decide),
    same 4 (by decide), same 5 (by decide), same 6 (by decide), same 7 (by decide)]

/-- **The remainder of two key words is the published product** by the
Reed-Solomon matrix. -/
theorem rsMdsEncode_eq (userKey : UserKey) (i : Nat) :
    rsMdsEncode (Published.M userKey (2 * i)) (Published.M userKey (2 * i + 1)) =
      Published.S userKey i := by
  let hi := Published.M userKey (2 * i + 1)
  let lo := Published.M userKey (2 * i)
  have words : rsMdsEncode lo hi = rsRemainder (hi ++ lo) := by
    rw [rsRemainder, append_low, append_high]
  have offset : 4 * (2 * i + 1) = 8 * i + 4 := by omega
  have offset' : 4 * (2 * i) = 8 * i := by omega
  have bytes : ∀ c < 8, ((hi ++ lo : BitVec 64) >>> (8 * c)).setWidth 8 = userKey[8 * i + c]! := by
    intro c bound
    match c, bound with
    | 0, _ | 1, _ | 2, _ | 3, _ =>
        rw [append_byte_low _ _ _ (by decide)]
        simp [lo, Published.M, offset']
    | 4, _ | 5, _ | 6, _ | 7, _ =>
        rw [append_byte_high hi lo]
        simp [hi, Published.M, offset]
    | c + 8, bound => omega
  show rsMdsEncode lo hi = _
  rw [words, rsRemainder_eq]
  simp only [rsProduct, Published.S, rowRS_congr _ bytes]

end ParallelLabs.Twofish
