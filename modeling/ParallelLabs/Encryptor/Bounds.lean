import ParallelLabs.Encryptor.BlockLoops

/-!
# The bounds of the block loops

The sizes are `uint32_t` and the counters are `int`s. Within `int` the loops of
`encrypt` stay in their vectors, since the padded size is a multiple of the size of a
block. `decrypt` does not pad, and it does not check the length: its last block is
read past the end when the length is not a multiple.

A loop that has returned has read its last block and advanced its counter past it
(`forBlocks_returned`). So the conditions are exact (`bounds_iff`): the padded length
is within `int`, and the length of what is decrypted is a multiple of the size of a
block within `int`.
-/

set_option autoImplicit false

namespace ParallelLabs.Encryptor

open Library Twofish

/-- **`encrypt` stays within bounds**: its size is that of the padded message, and it
returns as many bytes without a fault. -/
structure EncryptBounded (key : Word) (s : List Byte) : Prop where
  length : (BitVec.ofNat 32 s.length).toNat = s.length
  size : (paddedSize s).toNat = 16 * (s.length / 16 + 1)
  returns : ∃ encrypted, encrypt key s = .ok encrypted ∧
    encrypted.length = 16 * (s.length / 16 + 1)

/-- **`decrypt` stays within bounds**: its size is the length of the vector, and it
returns without a fault. -/
structure DecryptBounded (key : Word) (c : List Byte) : Prop where
  size : (BitVec.ofNat 32 c.length).toNat = c.length
  returns : ∃ decrypted, decrypt key c = .ok decrypted

/-! ## What the loops have done -/

theorem readBlock_returned {v : List Byte} {i : Nat} {block : Block}
    (read : readBlock v i = .ok block) : i + block_size ≤ v.length := by
  rw [readBlock, bind_eq_ok] at read
  obtain ⟨stop, bound, read⟩ := read
  obtain ⟨rfl, _⟩ := asInt_cases bound
  obtain ⟨_, before, after, body⟩ := forInt_returned read 15 (by
    rw [block_size]
    omega)
  rw [bind_eq_ok] at body
  obtain ⟨byte, entry, _⟩ := body
  have inside := lt_of_readAt entry
  rw [block_size]
  omega

theorem forBlocks_returned {blockFunction : Block → Block} {size : Word} {v output : List Byte}
    (returned : forBlocks blockFunction size v = .ok output) :
    ∀ k, block_size * k < size.toNat →
      block_size * (k + 1) ≤ INT_MAX ∧ block_size * (k + 1) ≤ v.length := by
  intro k under
  obtain ⟨fits, before, after, body⟩ := forInt_returned returned k (by rwa [Nat.zero_add])
  rw [Nat.zero_add] at fits body
  rw [bind_eq_ok] at body
  obtain ⟨block, read, _⟩ := body
  rw [Nat.mul_succ]
  exact ⟨fits, readBlock_returned read⟩

theorem toEncryptVector_returned {size : Word} {s v : List Byte}
    (returned : toEncryptVector size s = .ok v) : size.toNat ≤ INT_MAX := by
  rcases Nat.eq_zero_or_pos size.toNat with zero | positive
  · rw [zero]
    exact Nat.zero_le _
  · -- The counter has passed the last index.
    obtain ⟨fits, _⟩ := forInt_returned returned (size.toNat - 1) (by omega)
    omega

/-! ## The two functions -/

theorem encryptBounded_iff (key : Word) (s : List Byte) :
    EncryptBounded key s ↔ 16 * (s.length / 16 + 1) ≤ INT_MAX := by
  constructor
  · intro bounded
    obtain ⟨encrypted, returned, _⟩ := bounded.returns
    rw [encrypt, bind_eq_ok] at returned
    obtain ⟨v, padded, _⟩ := returned
    rw [← bounded.size]
    exact toEncryptVector_returned padded
  · intro fits
    have padded : paddedLength s ≤ INT_MAX := fits
    refine ⟨toNat_ofNat_length ((length_lt_paddedLength s).le.trans padded),
      toNat_paddedSize padded, _, encrypt_eq key padded, ?_⟩
    rw [length_blockwise, length_pad, paddedLength]

theorem decryptBounded_iff (key : Word) (c : List Byte) :
    DecryptBounded key c ↔ 16 ∣ c.length ∧ c.length ≤ INT_MAX := by
  constructor
  · intro bounded
    obtain ⟨decrypted, returned⟩ := bounded.returns
    rw [decrypt, bind_eq_ok] at returned
    obtain ⟨output, decryptedBlocks, _⟩ := returned
    rcases Nat.eq_zero_or_pos c.length with zero | positive
    · rw [zero]
      exact ⟨Nat.dvd_zero 16, Nat.zero_le _⟩
    · -- The last block was read as a whole.
      have last : block_size * ((c.length - 1) / block_size) < c.length := by
        rw [block_size]
        omega
      obtain ⟨fits, within⟩ := forBlocks_returned decryptedBlocks ((c.length - 1) / block_size)
        (by rwa [bounded.size])
      rw [block_size] at last fits within
      omega
  · rintro ⟨whole, fits⟩
    exact ⟨toNat_ofNat_length fits, _, decrypt_eq key whole fits⟩

/-- **When the functions stay within bounds**, for every key, string and vector. -/
theorem bounds_iff (key : Word) (s c : List Byte) :
    (EncryptBounded key s ↔ 16 * (s.length / 16 + 1) ≤ INT_MAX) ∧
      (DecryptBounded key c ↔ 16 ∣ c.length ∧ c.length ≤ INT_MAX) :=
  ⟨encryptBounded_iff key s, decryptBounded_iff key c⟩

/-- **A vector of one byte** is read past its end. -/
theorem decrypt_one_byte : decrypt 0 [0] = .error .outOfBounds ∧ ¬ DecryptBounded 0 [0] := by
  have block : readBlock [0] 0 = .error .outOfBounds := by
    rw [readBlock, asInt_of_le (by decide)]
    show forInt _ _ _ _ _ _ = _
    rw [forInt_next (by decide) rfl (by decide), forInt, if_pos (by decide)]
    rfl
  have failed : decrypt 0 [0] = .error .outOfBounds := by
    rw [decrypt, forBlocks, forInt, if_pos (by decide)]
    simp only [block]
    rfl
  refine ⟨failed, fun bounded => ?_⟩
  obtain ⟨decrypted, returned⟩ := bounded.returns
  cases failed.symm.trans returned

end ParallelLabs.Encryptor
