import ParallelLabs.Encryptor.BlockLoops
import ParallelLabs.Twofish.RoundTrip
import Mathlib.Data.List.TakeWhile

/-!
# Decrypting what was encrypted

Under one key the two block actions undo each other, so decryption gives the
padded message back, and the cut at the first zero byte takes the padding off
together with everything from a zero byte of the message on.
-/

set_option autoImplicit false

namespace ParallelLabs.Encryptor

open Library Twofish

/-- The blocks that `encrypt` makes of a message that fits. -/
def ciphertext (key : Word) (s : List Byte) : List Byte := blockwise (encryptBlock key) (pad s)

theorem length_ciphertext (key : Word) (s : List Byte) :
    (ciphertext key s).length = paddedLength s := by
  rw [ciphertext, length_blockwise, length_pad]

theorem block_size_dvd_length_ciphertext (key : Word) (s : List Byte) :
    block_size ∣ (ciphertext key s).length :=
  ⟨s.length / block_size + 1, length_ciphertext key s⟩

theorem encrypt_eq_ciphertext (key : Word) {s : List Byte} (fits : paddedLength s ≤ INT_MAX) :
    encrypt key s = .ok (ciphertext key s) :=
  encrypt_eq key fits

/-- Decryption of a ciphertext under any key. -/
theorem decrypt_ciphertext (k key : Word) {s : List Byte} (fits : paddedLength s ≤ INT_MAX) :
    decrypt k (ciphertext key s) =
      .ok ((blockwise (decryptBlock k) (ciphertext key s)).takeWhile (· != 0)) :=
  decrypt_eq k (block_size_dvd_length_ciphertext key s) (by rwa [length_ciphertext])

theorem decryptBlock_encryptBlock (key : Word) :
    Function.LeftInverse (decryptBlock key) (encryptBlock key) :=
  fun b => decryptWith_encryptWith g _ b

theorem encryptBlock_decryptBlock (key : Word) :
    Function.LeftInverse (encryptBlock key) (decryptBlock key) :=
  fun b => encryptWith_decryptWith g _ b

/-- Block by block, the ciphertext decrypts to the padded message. -/
theorem blockwise_decryptBlock_ciphertext (key : Word) (s : List Byte) :
    blockwise (decryptBlock key) (ciphertext key s) = pad s :=
  blockwise_left_inverse (decryptBlock_encryptBlock key) (by decide) (block_size_dvd_length_pad s)

/-- A cut at the first zero byte does not see what follows a zero byte. -/
theorem takeWhile_append_zero (s rest : List Byte) :
    (s ++ 0 :: rest).takeWhile (· != 0) = s.takeWhile (· != 0) := by
  induction s with
  | nil => rfl
  | cons byte s ih => rw [List.cons_append, List.takeWhile_cons, List.takeWhile_cons, ih]

/-- There is at least one zero byte of padding. -/
theorem pad_eq (s : List Byte) :
    pad s = s ++ 0 :: List.replicate (paddedLength s - s.length - 1) 0 := by
  obtain ⟨more, count⟩ := Nat.exists_eq_add_of_lt (length_lt_paddedLength s)
  have padding : paddedLength s - s.length = more + 1 := by omega
  rw [pad, padding, List.replicate_succ, Nat.add_sub_cancel]

theorem takeWhile_pad (s : List Byte) : (pad s).takeWhile (· != 0) = s.takeWhile (· != 0) := by
  rw [pad_eq, takeWhile_append_zero]

/-- A string equals its part before the first zero byte when it has none. -/
theorem takeWhile_eq_self_iff (s : List Byte) : s.takeWhile (· != 0) = s ↔ 0 ∉ s := by
  rw [List.takeWhile_eq_self_iff]
  constructor
  · intro nonzero member
    exact absurd (nonzero 0 member) (by decide)
  · intro absent byte member
    rw [bne_iff_ne]
    rintro rfl
    exact absent member

/-- **The message law.** Decrypting the encryption of a string under the same
key gives its part before the first zero byte. This is the string exactly when
the string has no zero byte. -/
theorem encrypt_bind_decrypt (key : Word) (s : List Byte) (fits : paddedLength s ≤ INT_MAX) :
    (encrypt key s >>= decrypt key) = .ok (s.takeWhile (· != 0)) ∧
      ((encrypt key s >>= decrypt key) = .ok s ↔ 0 ∉ s) := by
  have result : (encrypt key s >>= decrypt key) = .ok (s.takeWhile (· != 0)) := by
    rw [encrypt_eq_ciphertext key fits]
    show decrypt key (ciphertext key s) = _
    rw [decrypt_ciphertext key key fits, blockwise_decryptBlock_ciphertext, takeWhile_pad]
  refine ⟨result, ?_⟩
  rw [result, Except.ok.injEq, takeWhile_eq_self_iff]

/-- The message law at the key and the string of `main`. -/
theorem encrypt_bind_decrypt_main :
    (encrypt 123232 (List.replicate 8 0x41) >>= decrypt 123232) =
        .ok ((List.replicate 8 0x41).takeWhile (· != 0)) ∧
      ((encrypt 123232 (List.replicate 8 0x41) >>= decrypt 123232) =
        .ok (List.replicate 8 0x41) ↔ 0 ∉ List.replicate 8 (0x41 : Byte)) :=
  encrypt_bind_decrypt 123232 (List.replicate 8 0x41) (by decide)

end ParallelLabs.Encryptor
