import ParallelLabs.Library.Words
import ParallelLabs.Twofish.Tables
import Mathlib.Logic.Function.Iterate

/-!
# The block cipher of `twofish.cpp`

The key schedule `makeSessionKey` and the two block functions, as the code
computes them. Words wrap at 32 bits. The macro `g` shifts by a count taken
modulo 32, as the processor does: for the rotation `3` the source asks for
shifts by 32, 40 and 48.

The block functions are written over an arbitrary round function in place of
the macro (`encryptWith`, `decryptWith`), so that what holds of every round
function can be said once. `encrypt` and `decrypt` are their instances at `g`.
-/

set_option autoImplicit false

namespace ParallelLabs.Twofish

open Library

/-- `user_key_t`. -/
abbrev UserKey := Vector Byte 32

/-- `block_t`. -/
abbrev Block := Vector Byte 16

/-- `k_vector_t`. -/
abbrev KVector := Vector Word 4

/-- `sbox_t`. -/
abbrev SBox := Vector Word 1024

/-- `subkeys_t`. -/
abbrev Subkeys := Vector Word 40

/-- `session_key_t`. -/
abbrev SessionKey := SBox × Subkeys

/-! ## Byte selectors and the round function -/

def B0 (w : Word) : Word := w &&& 0xFF
def B1 (w : Word) : Word := (w >>> 8) &&& 0xFF
def B2 (w : Word) : Word := (w >>> 16) &&& 0xFF
def B3 (w : Word) : Word := (w >>> 24) &&& 0xFF

/-- The `n`-th byte of a word, with the shift count reduced modulo 32. -/
def Bn (w : Word) (n : Nat) : Word := (w >>> (8 * n % 32)) &&& 0xFF

/-- The macro `g`: the four S-boxes applied to the bytes of `x` from byte `R`
on. -/
def g (sBox : SBox) (x : Word) (R : Nat) : Word :=
  sBox[(2 * Bn x R).toNat]! ^^^
    sBox[(2 * Bn x (R + 1) + 1).toNat]! ^^^
    sBox[(0x200 + 2 * Bn x (R + 2)).toNat]! ^^^
    sBox[(0x200 + 2 * Bn x (R + 3) + 1).toNat]!

/-! ## The key schedule -/

def SK_STEP : Word := 0x02020202
def SK_BUMP : Word := 0x01010101
def RS_GF_FDBK : Word := 0x14D

/-- `P[t][b]`, promoted to a word. -/
def permute (t : Fin 2) (b : Word) : Word := (P[t][b.toNat]!).setWidth 32

/-- `MDS[t][b]`. -/
def mds (t : Fin 4) (b : Word) : Word := MDS[t][b.toNat]!

/-- The lambda `h` of `make_session_key`. -/
def h (x : Word) (L : KVector) : Word :=
  let b0 := B0 x
  let b1 := B1 x
  let b2 := B2 x
  let b3 := B3 x
  let l0 := L[0]
  let l1 := L[1]
  let l2 := L[2]
  let l3 := L[3]
  let b0 := permute 1 b0 ^^^ B0 l3
  let b1 := permute 0 b1 ^^^ B1 l3
  let b2 := permute 0 b2 ^^^ B2 l3
  let b3 := permute 1 b3 ^^^ B3 l3
  let b0 := permute 1 b0 ^^^ B0 l2
  let b1 := permute 1 b1 ^^^ B1 l2
  let b2 := permute 0 b2 ^^^ B2 l2
  let b3 := permute 0 b3 ^^^ B3 l2
  mds 0 (permute 0 (permute 0 b0 ^^^ B0 l1) ^^^ B0 l0) ^^^
    mds 1 (permute 0 (permute 1 b1 ^^^ B1 l1) ^^^ B1 l0) ^^^
    mds 2 (permute 1 (permute 0 b2 ^^^ B2 l1) ^^^ B2 l0) ^^^
    mds 3 (permute 1 (permute 1 b3 ^^^ B3 l1) ^^^ B3 l0)

/-- The lambda `RS_rem`: one byte of the Reed-Solomon remainder. -/
def rsRem (x : Word) : Word :=
  let b := (x >>> 24) &&& 0xFF
  let g2 := ((b <<< 1) ^^^ (if b &&& 0x80 ≠ 0 then RS_GF_FDBK else 0)) &&& 0xFF
  let g3 := (b >>> 1) ^^^ (if b &&& 0x01 ≠ 0 then RS_GF_FDBK >>> 1 else 0) ^^^ g2
  (x <<< 8) ^^^ (g3 <<< 24) ^^^ (g2 <<< 16) ^^^ (g3 <<< 8) ^^^ b

/-- The lambda `RS_MDS_Encode`. -/
def rsMdsEncode (k0 k1 : Word) : Word :=
  let r := rsRem^[4] k1
  rsRem^[4] (r ^^^ k0)

/-- The first loop of `make_session_key`, giving `Me`, `Mo` and `S`. The source
steps `offset` by 8 and `j` down from 3 along with `i`. -/
def splitUserKey (userKey : UserKey) : KVector × KVector × KVector :=
  Nat.fold 4 (fun i _ (Me, Mo, S) =>
      let offset := 8 * i
      let even := leWord userKey[offset] userKey[offset + 1] userKey[offset + 2] userKey[offset + 3]
      let odd :=
        leWord userKey[offset + 4] userKey[offset + 5] userKey[offset + 6] userKey[offset + 7]
      (Me.set i even, Mo.set i odd, S.set (3 - i) (rsMdsEncode even odd)))
    (Vector.replicate 4 0, Vector.replicate 4 0, Vector.replicate 4 0)

/-- The body of the second loop, on `q` and the subkeys. -/
def expandStep (Me Mo : KVector) (i : Nat) (bound : i < 20) (s : Word × Subkeys) :
    Word × Subkeys :=
  let (q, subkeys) := s
  let A := h q Me
  let B := h (q + SK_BUMP) Mo
  let B := B <<< 8 ||| B >>> 24
  let A := A + B
  let subkeys := subkeys.set (2 * i) A
  let A := A + B
  let subkeys := subkeys.set (2 * i + 1) (A <<< 9 ||| A >>> (32 - 9))
  (q + SK_STEP, subkeys)

/-- The second loop: the forty expanded subkeys. -/
def expandSubkeys (Me Mo : KVector) : Subkeys :=
  (Nat.fold 20 (expandStep Me Mo) (0, Vector.replicate 40 0)).2

/-- The body of the third loop. -/
def fillStep (S : KVector) (i : Nat) (bound : i < 256) (sBox : SBox) : SBox :=
  let k0 := S[0]
  let k1 := S[1]
  let k2 := S[2]
  let k3 := S[3]
  let b : Word := BitVec.ofNat 32 i
  let b0 := (permute 1 b &&& 0xFF) ^^^ B0 k3
  let b1 := (permute 0 b &&& 0xFF) ^^^ B1 k3
  let b2 := (permute 0 b &&& 0xFF) ^^^ B2 k3
  let b3 := (permute 1 b &&& 0xFF) ^^^ B3 k3
  let b0 := (permute 1 b0 &&& 0xFF) ^^^ B0 k2
  let b1 := (permute 1 b1 &&& 0xFF) ^^^ B1 k2
  let b2 := (permute 0 b2 &&& 0xFF) ^^^ B2 k2
  let b3 := (permute 0 b3 &&& 0xFF) ^^^ B3 k2
  let sBox := sBox.set (2 * i) (mds 0 (permute 0 (permute 0 b0 ^^^ B0 k1) ^^^ B0 k0))
  let sBox := sBox.set (1 + 2 * i) (mds 1 (permute 0 (permute 1 b1 ^^^ B1 k1) ^^^ B1 k0))
  let sBox := sBox.set (0x200 + 2 * i) (mds 2 (permute 1 (permute 0 b2 ^^^ B2 k1) ^^^ B2 k0))
  sBox.set (0x201 + 2 * i) (mds 3 (permute 1 (permute 1 b3 ^^^ B3 k1) ^^^ B3 k0))

/-- The third loop: the four S-boxes, interleaved in one table. -/
def fillSBox (S : KVector) : SBox :=
  Nat.fold 256 (fillStep S) (Vector.replicate 1024 0)

/-- `twofish256::make_session_key`. -/
def makeSessionKey (userKey : UserKey) : SessionKey :=
  let (Me, Mo, S) := splitUserKey userKey
  (fillSBox S, expandSubkeys Me Mo)

/-! ## The block functions -/

/-- The four words of a block under way and the index of the next subkey. -/
structure Cycle where
  x0 : Word
  x1 : Word
  x2 : Word
  x3 : Word
  k : Nat
  deriving DecidableEq, Repr

/-- The block whose bytes are those of four words, in order. -/
def blockOfWords (w0 w1 w2 w3 : Word) : Block :=
  #v[wordByte w0 0, wordByte w0 1, wordByte w0 2, wordByte w0 3,
    wordByte w1 0, wordByte w1 1, wordByte w1 2, wordByte w1 3,
    wordByte w2 0, wordByte w2 1, wordByte w2 2, wordByte w2 3,
    wordByte w3 0, wordByte w3 1, wordByte w3 2, wordByte w3 3]

/-- A block is determined by its four words. -/
theorem blockOfWords_leWord (b : Block) :
    blockOfWords (leWord b[0] b[1] b[2] b[3]) (leWord b[4] b[5] b[6] b[7])
      (leWord b[8] b[9] b[10] b[11]) (leWord b[12] b[13] b[14] b[15]) = b := by
  simp only [blockOfWords, wordByte_zero_leWord, wordByte_one_leWord, wordByte_two_leWord,
    wordByte_three_leWord]
  apply Vector.ext
  intro i bound
  match i, bound with
  | 0, _ | 1, _ | 2, _ | 3, _ | 4, _ | 5, _ | 6, _ | 7, _
  | 8, _ | 9, _ | 10, _ | 11, _ | 12, _ | 13, _ | 14, _ | 15, _ => rfl
  | i + 16, bound => omega

/-- The type of the macro `g`. -/
abbrev RoundFunction := SBox → Word → Nat → Word

section BlockFunctions

variable (g : RoundFunction)

/-- The loop body of `encrypt`: two rounds. -/
def encryptCycle (sbox : SBox) (skey : Subkeys) (s : Cycle) : Cycle :=
  let t0 := g sbox s.x0 0
  let t1 := g sbox s.x1 3
  let x2 := s.x2 ^^^ (t0 + t1 + skey[s.k]!)
  let x2 := x2 >>> 1 ||| x2 <<< 31
  let x3 := s.x3 <<< 1 ||| s.x3 >>> 31
  let x3 := x3 ^^^ (t0 + 2 * t1 + skey[s.k + 1]!)
  let t0 := g sbox x2 0
  let t1 := g sbox x3 3
  let x0 := s.x0 ^^^ (t0 + t1 + skey[s.k + 2]!)
  let x0 := x0 >>> 1 ||| x0 <<< 31
  let x1 := s.x1 <<< 1 ||| s.x1 >>> 31
  let x1 := x1 ^^^ (t0 + 2 * t1 + skey[s.k + 3]!)
  ⟨x0, x1, x2, x3, s.k + 4⟩

/-- `twofish256::encrypt` with the round function `g`. -/
def encryptWith (key : SessionKey) (p : Block) : Block :=
  let sbox := key.1
  let skey := key.2
  let x0 := leWord p[0] p[1] p[2] p[3] ^^^ skey[0]
  let x1 := leWord p[4] p[5] p[6] p[7] ^^^ skey[1]
  let x2 := leWord p[8] p[9] p[10] p[11] ^^^ skey[2]
  let x3 := leWord p[12] p[13] p[14] p[15] ^^^ skey[3]
  let s := (encryptCycle g sbox skey)^[8] ⟨x0, x1, x2, x3, 8⟩
  let x2 := s.x2 ^^^ skey[4]
  let x3 := s.x3 ^^^ skey[5]
  let x0 := s.x0 ^^^ skey[6]
  let x1 := s.x1 ^^^ skey[7]
  blockOfWords x2 x3 x0 x1

/-- The loop body of `decrypt`: two rounds, walked back. -/
def decryptCycle (sbox : SBox) (skey : Subkeys) (s : Cycle) : Cycle :=
  let t0 := g sbox s.x2 0
  let t1 := g sbox s.x3 3
  let x1 := s.x1 ^^^ (t0 + 2 * t1 + skey[s.k]!)
  let x1 := x1 >>> 1 ||| x1 <<< 31
  let x0 := s.x0 <<< 1 ||| s.x0 >>> 31
  let x0 := x0 ^^^ (t0 + t1 + skey[s.k - 1]!)
  let t0 := g sbox x0 0
  let t1 := g sbox x1 3
  let x3 := s.x3 ^^^ (t0 + 2 * t1 + skey[s.k - 2]!)
  let x3 := x3 >>> 1 ||| x3 <<< 31
  let x2 := s.x2 <<< 1 ||| s.x2 >>> 31
  let x2 := x2 ^^^ (t0 + t1 + skey[s.k - 3]!)
  ⟨x0, x1, x2, x3, s.k - 4⟩

/-- `twofish256::decrypt` with the round function `g`. -/
def decryptWith (key : SessionKey) (ct : Block) : Block :=
  let sbox := key.1
  let skey := key.2
  let x2 := leWord ct[0] ct[1] ct[2] ct[3] ^^^ skey[4]
  let x3 := leWord ct[4] ct[5] ct[6] ct[7] ^^^ skey[5]
  let x0 := leWord ct[8] ct[9] ct[10] ct[11] ^^^ skey[6]
  let x1 := leWord ct[12] ct[13] ct[14] ct[15] ^^^ skey[7]
  let s := (decryptCycle g sbox skey)^[8] ⟨x0, x1, x2, x3, 39⟩
  let x0 := s.x0 ^^^ skey[0]
  let x1 := s.x1 ^^^ skey[1]
  let x2 := s.x2 ^^^ skey[2]
  let x3 := s.x3 ^^^ skey[3]
  blockOfWords x0 x1 x2 x3

end BlockFunctions

/-- `twofish256::encrypt`. -/
def encrypt (key : SessionKey) (p : Block) : Block := encryptWith g key p

/-- `twofish256::decrypt`. -/
def decrypt (key : SessionKey) (ct : Block) : Block := decryptWith g key ct

end ParallelLabs.Twofish
