import ParallelLabs.Library.CheckedInt
import ParallelLabs.Library.Traced
import ParallelLabs.Twofish.Bijection

/-!
# The steps of the block functions

The block functions once more, with a record of the operations that the language may
leave undefined: the shifts of words, by their counts, and the expressions of type
`int`, by their values. A shift by 32 or more is undefined, and so is a value outside
of `int`. Where these have the usual results, the values are those of `encrypt` and
`decrypt` (`value_encrypt`, `value_decrypt`).

The macro `g` shifts by eight times `R + 1`, `R + 2` and `R + 3`. At the rotation `3`
these are 32, 40 and 48, and both functions use that rotation in every round. So some
step is undefined for every key and every block (`undefined_steps`).

The sums of the round function are sums of `int`s. Since `g` is a bijection, it takes
every value, and for every key there are blocks on which a sum overflows
(`exists_overflow`).
-/

set_option autoImplicit false

namespace ParallelLabs.Twofish

open Library

namespace Steps

/-- An operation that may be undefined. -/
inductive Operation where
  /-- The count of a shift of a word. -/
  | shift (count : Nat)
  /-- The value of an expression of type `int`. -/
  | int (value : Int)
  deriving DecidableEq, Repr

def Operation.Defined : Operation → Prop
  | .shift count => count < 32
  | .int value => INT_MIN ≤ value ∧ value ≤ INT_MAX

/-- **The arithmetic is defined** in all steps of a computation. -/
def Defined {α : Type} (x : Traced Operation α) : Prop := ∀ op ∈ x.operations, op.Defined

/-! ## The operations -/

/-- `w >> count`, with the count reduced modulo 32. -/
def shiftRight (w : Word) (count : Nat) : Traced Operation Word :=
  .perform (.shift count) (w >>> (count % 32))

/-- `w << count`. -/
def shiftLeft (w : Word) (count : Nat) : Traced Operation Word :=
  .perform (.shift count) (w <<< (count % 32))

/-- `s + t` of two `int`s, as words with the same bits. -/
def intAdd (s t : Word) : Traced Operation Word := .perform (.int (s.toInt + t.toInt)) (s + t)

/-- `2 * t` of an `int`. -/
def intDouble (t : Word) : Traced Operation Word := .perform (.int (2 * t.toInt)) (2 * t)

/-! ## The block functions -/

def Bn (w : Word) (n : Nat) : Traced Operation Word := do
  let w ← shiftRight w (8 * n)
  pure (w &&& 0xFF)

/-- The macro `g`. -/
def g (sBox : SBox) (x : Word) (R : Nat) : Traced Operation Word := do
  let b0 ← Bn x R
  let b1 ← Bn x (R + 1)
  let b2 ← Bn x (R + 2)
  let b3 ← Bn x (R + 3)
  pure (sBox[(2 * b0).toNat]! ^^^ sBox[(2 * b1 + 1).toNat]! ^^^ sBox[(0x200 + 2 * b2).toNat]! ^^^
    sBox[(0x200 + 2 * b3 + 1).toNat]!)

/-- `b0 | b1 << 8 | b2 << 16 | b3 << 24`. -/
def readWord (b0 b1 b2 b3 : Byte) : Traced Operation Word := do
  let w1 ← shiftLeft (b1.setWidth 32) 8
  let w2 ← shiftLeft (b2.setWidth 32) 16
  let w3 ← shiftLeft (b3.setWidth 32) 24
  pure (b0.setWidth 32 ||| w1 ||| w2 ||| w3)

/-- `(byte) w, (byte)(w >> 8), (byte)(w >> 16), (byte)(w >> 24)`. -/
def bytesOfWord (w : Word) : Traced Operation (Vector Byte 4) := do
  let w1 ← shiftRight w 8
  let w2 ← shiftRight w 16
  let w3 ← shiftRight w 24
  pure #v[w.setWidth 8, w1.setWidth 8, w2.setWidth 8, w3.setWidth 8]

def blockOfWords (w0 w1 w2 w3 : Word) : Traced Operation Block := do
  let b0 ← bytesOfWord w0
  let b1 ← bytesOfWord w1
  let b2 ← bytesOfWord w2
  let b3 ← bytesOfWord w3
  pure (b0 ++ b1 ++ b2 ++ b3)

/-- `x >> 1 | x << 31`. -/
def turnRight (x : Word) : Traced Operation Word := do
  let right ← shiftRight x 1
  let left ← shiftLeft x 31
  pure (right ||| left)

/-- `x << 1 | x >> 31`. -/
def turnLeft (x : Word) : Traced Operation Word := do
  let left ← shiftLeft x 1
  let right ← shiftRight x 31
  pure (left ||| right)

/-- `t0 + t1 + key`. -/
def sum (t0 t1 key : Word) : Traced Operation Word := do
  let t ← intAdd t0 t1
  pure (t + key)

/-- `t0 + 2*t1 + key`. -/
def sumTwice (t0 t1 key : Word) : Traced Operation Word := do
  let t1 ← intDouble t1
  let t ← intAdd t0 t1
  pure (t + key)

section Functions

variable (sbox : SBox) (skey : Subkeys)

/-- The loop body of `encrypt`. -/
def encryptCycle (s : Cycle) : Traced Operation Cycle := do
  let t0 ← g sbox s.x0 0
  let t1 ← g sbox s.x1 3
  let f0 ← sum t0 t1 skey[s.k]!
  let x2 ← turnRight (s.x2 ^^^ f0)
  let x3 ← turnLeft s.x3
  let f1 ← sumTwice t0 t1 skey[s.k + 1]!
  let x3 := x3 ^^^ f1
  let t0 ← g sbox x2 0
  let t1 ← g sbox x3 3
  let f0 ← sum t0 t1 skey[s.k + 2]!
  let x0 ← turnRight (s.x0 ^^^ f0)
  let x1 ← turnLeft s.x1
  let f1 ← sumTwice t0 t1 skey[s.k + 3]!
  pure ⟨x0, x1 ^^^ f1, x2, x3, s.k + 4⟩

/-- The loop body of `decrypt`. -/
def decryptCycle (s : Cycle) : Traced Operation Cycle := do
  let t0 ← g sbox s.x2 0
  let t1 ← g sbox s.x3 3
  let f1 ← sumTwice t0 t1 skey[s.k]!
  let x1 ← turnRight (s.x1 ^^^ f1)
  let x0 ← turnLeft s.x0
  let f0 ← sum t0 t1 skey[s.k - 1]!
  let x0 := x0 ^^^ f0
  let t0 ← g sbox x0 0
  let t1 ← g sbox x1 3
  let f1 ← sumTwice t0 t1 skey[s.k - 2]!
  let x3 ← turnRight (s.x3 ^^^ f1)
  let x2 ← turnLeft s.x2
  let f0 ← sum t0 t1 skey[s.k - 3]!
  pure ⟨x0, x1, x2 ^^^ f0, x3, s.k - 4⟩

end Functions

/-- `twofish256::encrypt`. -/
def encrypt (key : SessionKey) (p : Block) : Traced Operation Block := do
  let x0 ← readWord p[0]! p[1]! p[2]! p[3]!
  let x1 ← readWord p[4]! p[5]! p[6]! p[7]!
  let x2 ← readWord p[8]! p[9]! p[10]! p[11]!
  let x3 ← readWord p[12]! p[13]! p[14]! p[15]!
  let s ← Traced.times (encryptCycle key.1 key.2) 8
    ⟨x0 ^^^ key.2[0]!, x1 ^^^ key.2[1]!, x2 ^^^ key.2[2]!, x3 ^^^ key.2[3]!, 8⟩
  blockOfWords (s.x2 ^^^ key.2[4]!) (s.x3 ^^^ key.2[5]!) (s.x0 ^^^ key.2[6]!) (s.x1 ^^^ key.2[7]!)

/-- `twofish256::decrypt`. -/
def decrypt (key : SessionKey) (ct : Block) : Traced Operation Block := do
  let x2 ← readWord ct[0]! ct[1]! ct[2]! ct[3]!
  let x3 ← readWord ct[4]! ct[5]! ct[6]! ct[7]!
  let x0 ← readWord ct[8]! ct[9]! ct[10]! ct[11]!
  let x1 ← readWord ct[12]! ct[13]! ct[14]! ct[15]!
  let s ← Traced.times (decryptCycle key.1 key.2) 8
    ⟨x0 ^^^ key.2[6]!, x1 ^^^ key.2[7]!, x2 ^^^ key.2[4]!, x3 ^^^ key.2[5]!, 39⟩
  blockOfWords (s.x0 ^^^ key.2[0]!) (s.x1 ^^^ key.2[1]!) (s.x2 ^^^ key.2[2]!) (s.x3 ^^^ key.2[3]!)

/-! ## The values -/

theorem value_bytesOfWord (w : Word) :
    (bytesOfWord w).value = #v[wordByte w 0, wordByte w 1, wordByte w 2, wordByte w 3] := rfl

theorem value_blockOfWords (w0 w1 w2 w3 : Word) :
    (blockOfWords w0 w1 w2 w3).value = Twofish.blockOfWords w0 w1 w2 w3 := by
  rw [blockOfWords]
  simp only [Traced.value_bind, value_bytesOfWord]
  rfl

theorem value_encryptCycle (sbox : SBox) (skey : Subkeys) (s : Cycle) :
    (encryptCycle sbox skey s).value = Twofish.encryptCycle Twofish.g sbox skey s := rfl

theorem value_decryptCycle (sbox : SBox) (skey : Subkeys) (s : Cycle) :
    (decryptCycle sbox skey s).value = Twofish.decryptCycle Twofish.g sbox skey s := rfl

theorem value_encrypt (key : SessionKey) (p : Block) :
    (encrypt key p).value = Twofish.encrypt key p := by
  rw [encrypt, Twofish.encrypt, encryptWith]
  simp only [Traced.value_bind, Traced.value_times, value_encryptCycle, value_blockOfWords]
  rfl

theorem value_decrypt (key : SessionKey) (ct : Block) :
    (decrypt key ct).value = Twofish.decrypt key ct := by
  rw [decrypt, Twofish.decrypt, decryptWith]
  simp only [Traced.value_bind, Traced.value_times, value_decryptCycle, value_blockOfWords]
  rfl

/-! ## The operations of the first cycle -/

section First

variable {op : Operation}

/-- The operations of the first cycle of `encrypt`. -/
theorem mem_encrypt (key : SessionKey) (p : Block)
    (performed : op ∈ (encryptCycle key.1 key.2
      ⟨leWord p[0]! p[1]! p[2]! p[3]! ^^^ key.2[0]!,
        leWord p[4]! p[5]! p[6]! p[7]! ^^^ key.2[1]!,
        leWord p[8]! p[9]! p[10]! p[11]! ^^^ key.2[2]!,
        leWord p[12]! p[13]! p[14]! p[15]! ^^^ key.2[3]!, 8⟩).operations) :
    op ∈ (encrypt key p).operations := by
  refine Traced.mem_bind_right _ (Traced.mem_bind_right _ (Traced.mem_bind_right _
    (Traced.mem_bind_right _ (Traced.mem_bind_left ?_ _))))
  exact Traced.mem_times performed 7

/-- The operations of the first cycle of `decrypt`. -/
theorem mem_decrypt (key : SessionKey) (ct : Block)
    (performed : op ∈ (decryptCycle key.1 key.2
      ⟨leWord ct[8]! ct[9]! ct[10]! ct[11]! ^^^ key.2[6]!,
        leWord ct[12]! ct[13]! ct[14]! ct[15]! ^^^ key.2[7]!,
        leWord ct[0]! ct[1]! ct[2]! ct[3]! ^^^ key.2[4]!,
        leWord ct[4]! ct[5]! ct[6]! ct[7]! ^^^ key.2[5]!, 39⟩).operations) :
    op ∈ (decrypt key ct).operations := by
  refine Traced.mem_bind_right _ (Traced.mem_bind_right _ (Traced.mem_bind_right _
    (Traced.mem_bind_right _ (Traced.mem_bind_left ?_ _))))
  exact Traced.mem_times performed 7

/-! ## Shifts by too many bits -/

theorem operations_g (sBox : SBox) (x : Word) (R : Nat) : (g sBox x R).operations =
    [.shift (8 * R), .shift (8 * (R + 1)), .shift (8 * (R + 2)), .shift (8 * (R + 3))] := rfl

/-- The macro at rotation `3` shifts by 32. -/
theorem shift_mem_g (sBox : SBox) (x : Word) : .shift 32 ∈ (g sBox x 3).operations := by
  rw [operations_g]
  exact .tail _ (.head _)

theorem shift_mem_encrypt (key : SessionKey) (p : Block) :
    .shift 32 ∈ (encrypt key p).operations :=
  mem_encrypt key p (Traced.mem_bind_right _ (Traced.mem_bind_left (shift_mem_g _ _) _))

theorem shift_mem_decrypt (key : SessionKey) (ct : Block) :
    .shift 32 ∈ (decrypt key ct).operations :=
  mem_decrypt key ct (Traced.mem_bind_right _ (Traced.mem_bind_left (shift_mem_g _ _) _))

theorem not_defined {α : Type} {x : Traced Operation α} (performed : .shift 32 ∈ x.operations) :
    ¬ Defined x := by
  intro defined
  exact absurd (defined _ performed) (Nat.lt_irrefl 32)

/-! ## Sums that overflow -/

/-- The sum `t0 + 2*t1` doubles the value of `g` at the second word. -/
theorem double_mem_sumTwice (t0 t1 key : Word) :
    .int (2 * t1.toInt) ∈ (sumTwice t0 t1 key).operations :=
  .head _

theorem double_mem_encryptCycle (sbox : SBox) (skey : Subkeys) (s : Cycle) :
    .int (2 * (Twofish.g sbox s.x1 3).toInt) ∈ (encryptCycle sbox skey s).operations := by
  refine Traced.mem_bind_right _ (Traced.mem_bind_right _ (Traced.mem_bind_right _
    (Traced.mem_bind_right _ (Traced.mem_bind_right _ (Traced.mem_bind_left ?_ _)))))
  exact double_mem_sumTwice _ _ _

theorem double_mem_decryptCycle (sbox : SBox) (skey : Subkeys) (s : Cycle) :
    .int (2 * (Twofish.g sbox s.x3 3).toInt) ∈ (decryptCycle sbox skey s).operations := by
  refine Traced.mem_bind_right _ (Traced.mem_bind_right _ (Traced.mem_bind_left ?_ _))
  exact double_mem_sumTwice _ _ _

theorem double_mem_encrypt (key : SessionKey) (p : Block) :
    .int (2 * (Twofish.g key.1 (leWord p[4]! p[5]! p[6]! p[7]! ^^^ key.2[1]!) 3).toInt) ∈
      (encrypt key p).operations :=
  mem_encrypt key p (double_mem_encryptCycle _ _ _)

theorem double_mem_decrypt (key : SessionKey) (ct : Block) :
    .int (2 * (Twofish.g key.1 (leWord ct[4]! ct[5]! ct[6]! ct[7]! ^^^ key.2[5]!) 3).toInt) ∈
      (decrypt key ct).operations :=
  mem_decrypt key ct (double_mem_decryptCycle _ _ _)

end First

end Steps

/-- **Some step is undefined** for every user key and every block, of `encrypt` and of
`decrypt`. -/
theorem undefined_steps (m : UserKey) (b : Block) :
    ¬ Steps.Defined (Steps.encrypt (makeSessionKey m) b) ∧
      ¬ Steps.Defined (Steps.decrypt (makeSessionKey m) b) :=
  ⟨Steps.not_defined (Steps.shift_mem_encrypt _ b), Steps.not_defined (Steps.shift_mem_decrypt _ b)⟩

/-- The zero key and the zero block. -/
theorem undefined_at_zero :
    .shift 32 ∈ (Steps.encrypt (makeSessionKey (Vector.replicate 32 0))
      (Vector.replicate 16 0)).operations ∧
    ¬ Steps.Defined (Steps.encrypt (makeSessionKey (Vector.replicate 32 0))
      (Vector.replicate 16 0)) :=
  ⟨Steps.shift_mem_encrypt _ _, Steps.not_defined (Steps.shift_mem_encrypt _ _)⟩

/-- **A sum overflows**, for every user key, on some blocks of either function. -/
theorem exists_overflow (m : UserKey) :
    (∃ p, .int 2147483648 ∈ (Steps.encrypt (makeSessionKey m) p).operations) ∧
      ∃ ct, .int 2147483648 ∈ (Steps.decrypt (makeSessionKey m) ct).operations := by
  -- A word at which the macro is half of the value.
  obtain ⟨x, half⟩ := (g_bijective m).1.surjective 0x40000000
  have rotated : g (makeSessionKey m).1 (x.rotateRight 8) 3 = 0x40000000 := by
    rw [g_three, rotateLeft_rotateRight x (by decide)]
    exact half
  -- It is the second word of a block, up to the whitening.
  have second : ∀ key : Word, ∃ b : Block,
      leWord b[4]! b[5]! b[6]! b[7]! ^^^ key = x.rotateRight 8 := by
    intro key
    refine ⟨blockOfWords 0 (x.rotateRight 8 ^^^ key) 0 0, ?_⟩
    show leWord (wordByte (x.rotateRight 8 ^^^ key) 0) (wordByte (x.rotateRight 8 ^^^ key) 1)
      (wordByte (x.rotateRight 8 ^^^ key) 2) (wordByte (x.rotateRight 8 ^^^ key) 3) ^^^ key = _
    rw [leWord_bytes, xor_xor_cancel]
  obtain ⟨p, whitened⟩ := second (makeSessionKey m).2[1]!
  obtain ⟨ct, whitened'⟩ := second (makeSessionKey m).2[5]!
  have doubled := Steps.double_mem_encrypt (makeSessionKey m) p
  have doubled' := Steps.double_mem_decrypt (makeSessionKey m) ct
  rw [whitened, rotated] at doubled
  rw [whitened', rotated] at doubled'
  exact ⟨⟨p, doubled⟩, ct, doubled'⟩

end ParallelLabs.Twofish
