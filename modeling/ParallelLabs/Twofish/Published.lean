import ParallelLabs.Library.GaloisByte
import ParallelLabs.Twofish.Cipher

/-!
# The published key schedule

The definition of the key schedule in terms of finite-field arithmetic: the two
byte permutations from their tables of four-bit values, the Reed-Solomon code
and the MDS matrix as matrices over bytes, the function `h`, and from these the
expanded subkeys and the words that key the S-boxes. Nothing here refers to the
tables of the program or to its key schedule.

The Reed-Solomon code multiplies modulo `0x14D`, the MDS matrix modulo `0x169`.
-/

set_option autoImplicit false

namespace ParallelLabs.Twofish.Published

open Library

/-! ## The byte permutations -/

/-- Four tables of sixteen four-bit values. -/
abbrev NibbleTables := Vector (Vector (BitVec 4) 16) 4

/-- The tables of `q0`. -/
def tables0 : NibbleTables := #v[
  #v[0x8, 0x1, 0x7, 0xD, 0x6, 0xF, 0x3, 0x2, 0x0, 0xB, 0x5, 0x9, 0xE, 0xC, 0xA, 0x4],
  #v[0xE, 0xC, 0xB, 0x8, 0x1, 0x2, 0x3, 0x5, 0xF, 0x4, 0xA, 0x6, 0x7, 0x0, 0x9, 0xD],
  #v[0xB, 0xA, 0x5, 0xE, 0x6, 0xD, 0x9, 0x0, 0xC, 0x8, 0xF, 0x3, 0x2, 0x4, 0x7, 0x1],
  #v[0xD, 0x7, 0xF, 0x4, 0x1, 0x2, 0x6, 0xE, 0x9, 0xB, 0x3, 0x0, 0x8, 0x5, 0xC, 0xA]]

/-- The tables of `q1`. -/
def tables1 : NibbleTables := #v[
  #v[0x2, 0x8, 0xB, 0xD, 0xF, 0x7, 0x6, 0xE, 0x3, 0x1, 0x9, 0x4, 0x0, 0xA, 0xC, 0x5],
  #v[0x1, 0xE, 0x2, 0xB, 0x4, 0xC, 0x3, 0x7, 0x6, 0xD, 0xA, 0x5, 0xF, 0x9, 0x0, 0x8],
  #v[0x4, 0xC, 0x7, 0x5, 0x1, 0x6, 0x9, 0xA, 0x0, 0xE, 0xD, 0x8, 0x2, 0xB, 0x3, 0xF],
  #v[0xB, 0x9, 0x5, 0x1, 0xC, 0x3, 0xD, 0xE, 0x6, 0x4, 0x7, 0xF, 0x2, 0x0, 0x8, 0xA]]

/-- The byte permutation built from four tables: two layers, each mixing the
halves of the byte and looking each half up. -/
def q (t : NibbleTables) (x : Byte) : Byte :=
  let a0 : BitVec 4 := (x >>> 4).setWidth 4
  let b0 : BitVec 4 := x.setWidth 4
  let a1 := a0 ^^^ b0
  let b1 := a0 ^^^ b0.rotateRight 1 ^^^ (8 * a0)
  let a2 := (t[0]!)[a1.toNat]!
  let b2 := (t[1]!)[b1.toNat]!
  let a3 := a2 ^^^ b2
  let b3 := a2 ^^^ b2.rotateRight 1 ^^^ (8 * a2)
  let a4 := (t[2]!)[a3.toNat]!
  let b4 := (t[3]!)[b3.toNat]!
  16 * b4.setWidth 8 + a4.setWidth 8

def q0 (x : Byte) : Byte := q tables0 x
def q1 (x : Byte) : Byte := q tables1 x

/-! ## The two matrices -/

/-- The Reed-Solomon matrix. -/
def RS : Vector (Vector Byte 8) 4 := #v[
  #v[0x01, 0xA4, 0x55, 0x87, 0x5A, 0x58, 0xDB, 0x9E],
  #v[0xA4, 0x56, 0x82, 0xF3, 0x1E, 0xC6, 0x68, 0xE5],
  #v[0x02, 0xA1, 0xFC, 0xC1, 0x47, 0xAE, 0x3D, 0x19],
  #v[0xA4, 0x55, 0x87, 0x5A, 0x58, 0xDB, 0x9E, 0x03]]

/-- The MDS matrix. -/
def matrixMDS : Vector (Vector Byte 4) 4 := #v[
  #v[0x01, 0xEF, 0x5B, 0x5B],
  #v[0x5B, 0xEF, 0xEF, 0x01],
  #v[0xEF, 0x5B, 0x01, 0xEF],
  #v[0xEF, 0x01, 0xEF, 0x5B]]

/-- Row `r` of the Reed-Solomon matrix times a vector of eight bytes. -/
def rowRS (r : Nat) (m : Nat → Byte) : Byte :=
  byteSum 8 fun c => gfMul 0x14D (RS[r]!)[c]! (m c)

/-- Row `r` of the MDS matrix times a vector of four bytes. -/
def rowMDS (r : Nat) (y : Nat → Byte) : Byte :=
  byteSum 4 fun c => gfMul 0x169 (matrixMDS[r]!)[c]! (y c)

/-! ## The function `h` -/

/-- The bytes before the MDS matrix: each byte of the input goes through five
permutations with a byte of the list mixed in after each but the last. -/
def yBytes (X L0 L1 L2 L3 : Word) (i : Nat) : Byte :=
  let x := wordByte X i
  let l0 := wordByte L0 i
  let l1 := wordByte L1 i
  let l2 := wordByte L2 i
  let l3 := wordByte L3 i
  match i with
  | 0 => q1 (q0 (q0 (q1 (q1 x ^^^ l3) ^^^ l2) ^^^ l1) ^^^ l0)
  | 1 => q0 (q0 (q1 (q1 (q0 x ^^^ l3) ^^^ l2) ^^^ l1) ^^^ l0)
  | 2 => q1 (q1 (q0 (q0 (q0 x ^^^ l3) ^^^ l2) ^^^ l1) ^^^ l0)
  | _ => q0 (q1 (q1 (q0 (q1 x ^^^ l3) ^^^ l2) ^^^ l1) ^^^ l0)

/-- `h(X, L)` for a list `L` of four words. -/
def h (X L0 L1 L2 L3 : Word) : Word :=
  let y := yBytes X L0 L1 L2 L3
  leWord (rowMDS 0 y) (rowMDS 1 y) (rowMDS 2 y) (rowMDS 3 y)

/-! ## The schedule -/

section Schedule

variable (m : UserKey)

/-- Little-endian word `i` of the user key. -/
def M (i : Nat) : Word := leWord m[4 * i]! m[4 * i + 1]! m[4 * i + 2]! m[4 * i + 3]!

/-- `S_i`: the Reed-Solomon matrix times bytes `8 * i` to `8 * i + 7` of the key. -/
def S (i : Nat) : Word :=
  let bytes := fun c => m[8 * i + c]!
  leWord (rowRS 0 bytes) (rowRS 1 bytes) (rowRS 2 bytes) (rowRS 3 bytes)

def rho : Word := 0x01010101

/-- `A_i`, from the even words of the key. -/
def A (i : Nat) : Word := h (BitVec.ofNat 32 (2 * i) * rho) (M m 0) (M m 2) (M m 4) (M m 6)

/-- `B_i`, from the odd words of the key. -/
def B (i : Nat) : Word :=
  (h (BitVec.ofNat 32 (2 * i + 1) * rho) (M m 1) (M m 3) (M m 5) (M m 7)).rotateLeft 8

/-- The forty subkeys. -/
def K : Subkeys :=
  ⟨((List.range 20).flatMap fun i =>
    [A m i + B m i, (A m i + 2 * B m i).rotateLeft 9]).toArray, rfl⟩

/-- The round function: `h` keyed with the four words `S_i`, the last one first. -/
def G (x : Word) : Word := h x (S m 3) (S m 2) (S m 1) (S m 0)

end Schedule

end ParallelLabs.Twofish.Published
