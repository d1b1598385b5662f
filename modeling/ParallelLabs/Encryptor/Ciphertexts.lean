import ParallelLabs.Encryptor.Bounds
import ParallelLabs.Encryptor.MessageRoundTrip

/-!
# What `encrypt` returns

The blocks of a vector are decrypted one by one, whatever the vector is. It is the
encryption of a string exactly when its length is a positive multiple of the size of a
block within `int` and the last byte of the decrypted blocks is zero
(`ciphertext_iff`): `encrypt` adds at least one zero byte.

How many it adds is not recorded. So two strings have the same encryption when one is the
other with zero bytes at the end, in the same number of blocks, and only then
(`encrypt_eq_iff`). And `encrypt` gives back the vector that was decrypted exactly when
the decrypted blocks have no zero byte but those of the padding, of which there is one
block at most (`decrypt_bind_encrypt_iff`).

The blocks do not depend on each other: a string is encrypted after whole blocks as it is
alone (`encrypt_append`).
-/

set_option autoImplicit false

namespace ParallelLabs.Encryptor

open Library Twofish

/-- The decrypted blocks of a vector. `decrypt` returns them up to the first zero byte. -/
def plaintext (key : Word) (c : List Byte) : List Byte := blockwise (decryptBlock key) c

@[simp] theorem length_plaintext (key : Word) (c : List Byte) :
    (plaintext key c).length = c.length :=
  length_blockwise _ c

theorem plaintext_ciphertext (key : Word) (s : List Byte) :
    plaintext key (ciphertext key s) = pad s :=
  blockwise_decryptBlock_ciphertext key s

theorem blockwise_encryptBlock_plaintext (key : Word) {c : List Byte}
    (whole : block_size ∣ c.length) : blockwise (encryptBlock key) (plaintext key c) = c :=
  blockwise_left_inverse (encryptBlock_decryptBlock key) (by decide) whole

/-- A vector of whole blocks is a ciphertext when its decrypted blocks are a padded
string. -/
theorem ciphertext_eq_iff (key : Word) {c : List Byte} (whole : block_size ∣ c.length)
    (s : List Byte) : ciphertext key s = c ↔ pad s = plaintext key c := by
  constructor
  · rintro rfl
    exact (plaintext_ciphertext key s).symm
  · intro same
    rw [ciphertext, same, blockwise_encryptBlock_plaintext key whole]

/-! ## Padded strings -/

/-- Zero bytes at the end, in the same number of blocks, are taken for padding. -/
theorem pad_append_zeros {s : List Byte} {zeros : Nat}
    (blocks : (s.length + zeros) / block_size = s.length / block_size) :
    pad (s ++ List.replicate zeros 0) = pad s := by
  have length : paddedLength (s ++ List.replicate zeros 0) = paddedLength s := by
    rw [paddedLength, paddedLength, List.length_append, List.length_replicate, blocks]
  rw [pad, pad, length, List.append_assoc, List.replicate_append_replicate, List.length_append,
    List.length_replicate]
  congr 2
  have longer := length_lt_paddedLength (s ++ List.replicate zeros 0)
  rw [length, List.length_append, List.length_replicate] at longer
  omega

/-- The longer one of two strings that are padded to the same bytes. -/
theorem eq_append_zeros_of_pad {s t : List Byte} (same : pad s = pad t)
    (longer : s.length ≤ t.length) : t = s ++ List.replicate (t.length - s.length) 0 := by
  have below := length_lt_paddedLength t
  have length : paddedLength s = paddedLength t := by
    rw [← length_pad, ← length_pad, same]
  calc t = (pad t).take t.length := (List.take_left' rfl).symm
    _ = (pad s).take t.length := by rw [same]
    _ = s ++ List.replicate (t.length - s.length) 0 := by
      rw [pad, List.take_append, List.take_of_length_le longer, List.take_replicate]
      congr 2
      omega

theorem pad_eq_iff (s t : List Byte) :
    pad s = pad t ↔ s.length / block_size = t.length / block_size ∧
      ∃ zeros, t = s ++ List.replicate zeros 0 ∨ s = t ++ List.replicate zeros 0 := by
  constructor
  · intro same
    have length : paddedLength s = paddedLength t := by
      rw [← length_pad, ← length_pad, same]
    refine ⟨?_, ?_⟩
    · rw [paddedLength, paddedLength] at length
      exact Nat.succ.inj (Nat.eq_of_mul_eq_mul_left (by decide) length)
    · rcases Nat.le_total s.length t.length with longer | shorter
      · exact ⟨_, .inl (eq_append_zeros_of_pad same longer)⟩
      · exact ⟨_, .inr (eq_append_zeros_of_pad same.symm shorter)⟩
  · rintro ⟨blocks, zeros, rfl | rfl⟩
    · rw [List.length_append, List.length_replicate] at blocks
      exact (pad_append_zeros blocks.symm).symm
    · rw [List.length_append, List.length_replicate] at blocks
      exact pad_append_zeros blocks

/-- Whole blocks that end with a zero byte are a padded string. -/
theorem exists_pad_iff {v : List Byte} (whole : block_size ∣ v.length) :
    (∃ s, pad s = v) ↔ v.getLast? = some 0 := by
  constructor
  · rintro ⟨s, rfl⟩
    rw [pad, List.getLast?_append, List.getLast?_replicate, if_neg, Option.some_or]
    have longer := length_lt_paddedLength s
    omega
  · intro last
    obtain ⟨s, rfl⟩ := List.getLast?_eq_some_iff.mp last
    refine ⟨s, ?_⟩
    rw [List.length_append, List.length_singleton, block_size] at whole
    have one : paddedLength s - s.length = 1 := by
      rw [paddedLength, block_size]
      omega
    rw [pad, one, List.replicate_one]

/-- A string without zero byte, padded. -/
theorem pad_takeWhile_iff {v : List Byte} (whole : block_size ∣ v.length) :
    pad (v.takeWhile (· != 0)) = v ↔ ∃ (s : List Byte) (zeros : Nat),
      0 ∉ s ∧ 0 < zeros ∧ zeros ≤ block_size ∧ v = s ++ List.replicate zeros 0 := by
  constructor
  · intro same
    have longer := length_lt_paddedLength (v.takeWhile (· != 0))
    refine ⟨v.takeWhile (· != 0), paddedLength (v.takeWhile (· != 0)) -
      (v.takeWhile (· != 0)).length, fun member => ?_, by omega, ?_, same.symm⟩
    · have nonzero := List.mem_takeWhile_imp member
      exact absurd nonzero (by decide)
    · rw [paddedLength, block_size]
      omega
  · rintro ⟨s, zeros, nonzero, some, few, rfl⟩
    obtain ⟨more, rfl⟩ := Nat.exists_eq_succ_of_ne_zero (Nat.pos_iff_ne_zero.mp some)
    have cut : (s ++ List.replicate (more + 1) 0).takeWhile (· != 0) = s := by
      rw [List.replicate_succ, takeWhile_append_zero, (takeWhile_eq_self_iff s).mpr nonzero]
    rw [List.length_append, List.length_replicate] at whole
    have all : paddedLength s - s.length = more + 1 := by
      rw [paddedLength, block_size]
      rw [block_size] at whole few
      omega
    rw [cut, pad, all]

/-! ## What the functions have returned -/

theorem length_writeBlock {block : Block} {i : Nat} {v output : List Byte}
    (written : writeBlock block i v = .ok output) : output.length = v.length := by
  rw [writeBlock, bind_eq_ok] at written
  obtain ⟨stop, _, written⟩ := written
  refine forInt_preserves (fun w : List Byte => w.length = v.length) ?_ written rfl
  intro j w next one length
  rw [writeAt] at one
  split at one
  · rw [← Except.ok.inj one, List.length_set, length]
  · cases one

theorem length_forBlocks {blockFunction : Block → Block} {size : Word} {v output : List Byte}
    (returned : forBlocks blockFunction size v = .ok output) : output.length = size.toNat := by
  refine forInt_preserves (fun w : List Byte => w.length = size.toNat) ?_ returned
    List.length_replicate
  intro i w next one length
  rw [bind_eq_ok] at one
  obtain ⟨block, _, written⟩ := one
  exact (length_writeBlock written).trans length

/-- A string of any length, one that does not fit included. -/
theorem length_encrypt {key : Word} {s c : List Byte} (returned : encrypt key s = .ok c) :
    c.length = (paddedSize s).toNat ∧ block_size ∣ c.length ∧ c.length ≤ INT_MAX := by
  rw [encrypt, bind_eq_ok] at returned
  obtain ⟨v, padded, encrypted⟩ := returned
  have length := length_forBlocks encrypted
  refine ⟨length, ?_, length ▸ toEncryptVector_returned padded⟩
  have blockSize : (BitVec.ofNat 32 block_size).toNat = 16 := rfl
  rw [length]
  simp only [paddedSize, BitVec.toNat_add, BitVec.toNat_sub, BitVec.toNat_umod,
    BitVec.toNat_ofNat, blockSize, block_size]
  omega

/-- A padded length that is out of `int` by one block does not wrap. -/
theorem toNat_paddedSize_of_le {s : List Byte} (fits : paddedLength s ≤ INT_MAX + block_size) :
    (paddedSize s).toNat = paddedLength s := by
  have blockSize : (BitVec.ofNat 32 block_size).toNat = 16 := rfl
  simp only [paddedSize, BitVec.toNat_add, BitVec.toNat_sub, BitVec.toNat_umod,
    BitVec.toNat_ofNat, blockSize]
  simp only [paddedLength, block_size, INT_MAX] at fits ⊢
  omega

/-! ## The two functions -/

/-- **The vectors that are the encryption of a string.** -/
theorem ciphertext_iff (key : Word) (c : List Byte) :
    (∃ s, paddedLength s ≤ INT_MAX ∧ encrypt key s = .ok c) ↔
      block_size ∣ c.length ∧ c.length ≤ INT_MAX ∧ (plaintext key c).getLast? = some 0 := by
  constructor
  · rintro ⟨s, fits, returned⟩
    obtain ⟨_, whole, within⟩ := length_encrypt returned
    rw [encrypt_eq_ciphertext key fits, Except.ok.injEq, ciphertext_eq_iff key whole] at returned
    rw [← length_plaintext key c] at whole
    exact ⟨length_plaintext key c ▸ whole, within, (exists_pad_iff whole).mp ⟨s, returned⟩⟩
  · rintro ⟨whole, within, last⟩
    obtain ⟨s, padded⟩ := (exists_pad_iff (by rwa [length_plaintext])).mpr last
    have fits : paddedLength s ≤ INT_MAX := by
      rw [← length_pad, padded, length_plaintext]
      exact within
    refine ⟨s, fits, ?_⟩
    rw [encrypt_eq_ciphertext key fits, (ciphertext_eq_iff key whole s).mpr padded]

/-- **When two strings have the same encryption.** -/
theorem encrypt_eq_iff (key : Word) {s t : List Byte} (fits : paddedLength s ≤ INT_MAX)
    (fits' : paddedLength t ≤ INT_MAX) :
    encrypt key s = encrypt key t ↔ s.length / block_size = t.length / block_size ∧
      ∃ zeros, t = s ++ List.replicate zeros 0 ∨ s = t ++ List.replicate zeros 0 := by
  rw [encrypt_eq_ciphertext key fits, encrypt_eq_ciphertext key fits', Except.ok.injEq,
    ciphertext_eq_iff key (block_size_dvd_length_ciphertext key t), plaintext_ciphertext,
    pad_eq_iff]

/-- A zero byte at the end of the eight letters. -/
theorem encrypt_eq_iff_main :
    encrypt 123232 (List.replicate 8 0x41) = encrypt 123232 (List.replicate 8 0x41 ++ [0]) ↔
      (List.replicate 8 (0x41 : Byte)).length / block_size =
        (List.replicate 8 (0x41 : Byte) ++ [0]).length / block_size ∧
      ∃ zeros, List.replicate 8 (0x41 : Byte) ++ [0] =
          List.replicate 8 0x41 ++ List.replicate zeros 0 ∨
        List.replicate 8 (0x41 : Byte) =
          List.replicate 8 0x41 ++ [0] ++ List.replicate zeros 0 :=
  encrypt_eq_iff 123232 (by decide) (by decide)

/-- **When `encrypt` gives back the vector that was decrypted.** -/
theorem decrypt_bind_encrypt_iff (key : Word) (c : List Byte) :
    (decrypt key c >>= encrypt key) = .ok c ↔
      block_size ∣ c.length ∧ c.length ≤ INT_MAX ∧ ∃ (s : List Byte) (zeros : Nat),
        0 ∉ s ∧ 0 < zeros ∧ zeros ≤ block_size ∧
          plaintext key c = s ++ List.replicate zeros 0 := by
  constructor
  · intro returned
    obtain ⟨s, decrypted, encrypted⟩ := bind_eq_ok.mp returned
    obtain ⟨length, whole, within⟩ := length_encrypt encrypted
    rw [decrypt_eq key whole within, Except.ok.injEq] at decrypted
    have shorter : s.length ≤ c.length := by
      rw [← decrypted, ← length_plaintext key c]
      exact (List.takeWhile_sublist _).length_le
    have fits : paddedLength s ≤ INT_MAX := by
      rw [← toNat_paddedSize_of_le (s := s), ← length]
      · exact within
      · rw [paddedLength, block_size]
        omega
    rw [encrypt_eq_ciphertext key fits, Except.ok.injEq, ciphertext_eq_iff key whole,
      ← decrypted] at encrypted
    exact ⟨whole, within, (pad_takeWhile_iff (by rwa [length_plaintext])).mp encrypted⟩
  · rintro ⟨whole, within, shape⟩
    have padded := (pad_takeWhile_iff (by rwa [length_plaintext])).mpr shape
    have fits : paddedLength ((plaintext key c).takeWhile (· != 0)) ≤ INT_MAX := by
      rw [← length_pad, padded, length_plaintext]
      exact within
    rw [decrypt_eq key whole within]
    show encrypt key ((plaintext key c).takeWhile (· != 0)) = .ok c
    rw [encrypt_eq_ciphertext key fits, (ciphertext_eq_iff key whole _).mpr padded]

/-- **The encryption after whole blocks.** The bytes that whole blocks are encrypted to
do not depend on what follows, which is encrypted as it is alone. -/
theorem encrypt_append (key : Word) {s : List Byte} (whole : block_size ∣ s.length) :
    ∃ first : List Byte, first.length = s.length ∧ ∀ t, paddedLength (s ++ t) ≤ INT_MAX →
      ∃ second, encrypt key t = .ok second ∧ encrypt key (s ++ t) = .ok (first ++ second) := by
  refine ⟨blockwise (encryptBlock key) s, length_blockwise _ s, fun t fits => ?_⟩
  have length : paddedLength (s ++ t) = s.length + paddedLength t := by
    obtain ⟨count, length⟩ := whole
    rw [paddedLength, paddedLength, List.length_append, length, Nat.mul_add_div (by decide),
      Nat.add_assoc, Nat.mul_add]
  have padded : pad (s ++ t) = s ++ pad t := by
    rw [pad, pad, length, List.length_append, List.append_assoc]
    congr 3
    omega
  refine ⟨ciphertext key t, encrypt_eq_ciphertext key (by omega), ?_⟩
  rw [encrypt_eq_ciphertext key fits, ciphertext, padded, blockwise_append _ (by decide) whole,
    ciphertext]

/-- Sixteen letters. -/
theorem encrypt_append_letters :
    ∃ first : List Byte, first.length = (List.replicate 16 (0x41 : Byte)).length ∧
      ∀ t, paddedLength (List.replicate 16 0x41 ++ t) ≤ INT_MAX →
        ∃ second, encrypt 123232 t = .ok second ∧
          encrypt 123232 (List.replicate 16 0x41 ++ t) = .ok (first ++ second) :=
  encrypt_append 123232 (by decide)

end ParallelLabs.Encryptor
