import ParallelLabs.Decryptor.ParallelDecryptor
import ParallelLabs.Encryptor.MessageRoundTrip
import ParallelLabs.Twofish.PublishedCipher

/-!
# Which keys are accepted

A worker decrypts the ciphertext with a candidate key and compares the string it
gets with the expected one. The string ends before the first zero byte of the
decrypted blocks, so what comes after that byte is not compared. A key is
accepted exactly when it maps the string, followed by one zero byte and by any
bytes up to the padded length, to the ciphertext (`success_decryptWithKey`).

A string one byte short of whole blocks leaves no such bytes, and there a key is
accepted only when it encrypts the string to the ciphertext. A string of one
letter leaves fourteen, and a wrong key is accepted (`success_of_wrong_key`).
The cipher is evaluated for this in its published form.
-/

set_option autoImplicit false

namespace ParallelLabs.Decryptor

open Library Twofish Encryptor

/-! ## What a candidate key gives -/

/-- The blocks of a ciphertext decrypted with a candidate key. -/
def decryptedBlocks (k key : Word) (s : List Byte) : List Byte :=
  blockwise (decryptBlock k) (ciphertext key s)

theorem length_decryptedBlocks (k key : Word) (s : List Byte) :
    (decryptedBlocks k key s).length = paddedLength s := by
  rw [decryptedBlocks, length_blockwise, length_ciphertext]

theorem decryptWithKey_ciphertext (k key : Word) {s : List Byte}
    (fits : paddedLength s ≤ INT_MAX) :
    decryptWithKey k (ciphertext key s) =
      .ok ⟨(decryptedBlocks k key s).takeWhile (· != 0), k⟩ := by
  rw [decryptWithKey, decrypt_ciphertext k key fits]
  rfl

/-- A list of the padded length that starts with the string and a zero byte
is the candidate's decryption exactly when the candidate maps it to the
ciphertext. -/
theorem decryptedBlocks_eq_iff (k key : Word) (s : List Byte) {padded : List Byte}
    (length : padded.length = paddedLength s) :
    decryptedBlocks k key s = padded ↔ blockwise (encryptBlock k) padded = ciphertext key s := by
  constructor
  · rintro rfl
    exact blockwise_left_inverse (encryptBlock_decryptBlock k) (by decide)
      (block_size_dvd_length_ciphertext key s)
  · intro encrypted
    rw [decryptedBlocks, ← encrypted]
    exact blockwise_left_inverse (decryptBlock_encryptBlock k) (by decide)
      ⟨s.length / block_size + 1, length⟩

/-- A list that is cut to a shorter one at its first zero byte goes on with a
zero byte. -/
theorem takeWhile_eq_iff {v s : List Byte} (noZero : 0 ∉ s) (shorter : s.length < v.length) :
    v.takeWhile (· != 0) = s ↔ ∃ tail, v = s ++ 0 :: tail := by
  constructor
  · rintro rfl
    have split := List.takeWhile_append_dropWhile (p := (· != 0)) (l := v)
    cases rest : v.dropWhile (· != 0) with
    | nil =>
        rw [rest, List.append_nil] at split
        rw [split] at shorter
        exact absurd shorter (Nat.lt_irrefl _)
    | cons byte tail =>
        have nonempty : v.dropWhile (· != 0) ≠ [] := by
          rw [rest]
          exact List.cons_ne_nil byte tail
        have stopped := List.head_dropWhile_not (· != 0) nonempty
        simp only [rest, List.head_cons, bne_eq_false_iff_eq] at stopped
        rw [rest, stopped] at split
        exact ⟨tail, split.symm⟩
  · rintro ⟨tail, rfl⟩
    rw [takeWhile_append_zero, takeWhile_eq_self_iff]
    exact noZero

/-- The number of padding bytes after the first. -/
theorem paddedLength_eq (s : List Byte) :
    paddedLength s = s.length + 1 + (block_size - 1 - s.length % block_size) := by
  simp only [paddedLength, block_size]
  omega

/-- **Acceptance in terms of encryption.** -/
theorem success_iff (k key : Word) {s : List Byte} (noZero : 0 ∉ s) :
    success s ⟨(decryptedBlocks k key s).takeWhile (· != 0), k⟩ = true ↔
      ∃ tail : List Byte, tail.length = block_size - 1 - s.length % block_size ∧
        blockwise (encryptBlock k) (s ++ 0 :: tail) = ciphertext key s := by
  have shorter : s.length < (decryptedBlocks k key s).length := by
    rw [length_decryptedBlocks]
    exact length_lt_paddedLength s
  rw [success, beq_iff_eq, takeWhile_eq_iff noZero shorter]
  refine exists_congr fun tail => ?_
  have count := paddedLength_eq s
  constructor
  · intro decrypted
    have length := length_decryptedBlocks k key s
    rw [decrypted] at length
    refine ⟨?_, (decryptedBlocks_eq_iff k key s length).mp decrypted⟩
    rw [List.length_append, List.length_cons] at length
    omega
  · rintro ⟨length, encrypted⟩
    refine (decryptedBlocks_eq_iff k key s ?_).mpr encrypted
    rw [List.length_append, List.length_cons]
    omega

/-- **Which keys are accepted.** The candidate `k` is accepted exactly when it
encrypts the string, one zero byte and some bytes up to the padded length to the
ciphertext. A candidate that encrypts the string to the ciphertext is accepted;
the converse holds when the zero byte is the only padding byte. -/
theorem success_decryptWithKey (k k' : Word) (s : List Byte) (noZero : 0 ∉ s)
    (fits : paddedLength s ≤ INT_MAX) :
    ∃ c result, encrypt k' s = .ok c ∧ decryptWithKey k c = .ok result ∧
      (success s result = true ↔
        ∃ tail : List Byte, tail.length = block_size - 1 - s.length % block_size ∧
          blockwise (encryptBlock k) (s ++ 0 :: tail) = c) ∧
      (encrypt k s = .ok c → success s result = true) ∧
      (s.length % block_size = block_size - 1 →
        (success s result = true ↔ encrypt k s = .ok c)) := by
  have accepted := success_iff k k' noZero
  have count := paddedLength_eq s
  refine ⟨ciphertext k' s, _, encrypt_eq_ciphertext k' fits, decryptWithKey_ciphertext k k' fits,
    accepted, ?_, ?_⟩
  · intro same
    rw [encrypt_eq_ciphertext k fits, Except.ok.injEq, ciphertext, pad_eq] at same
    refine accepted.mpr ⟨_, ?_, same⟩
    rw [List.length_replicate]
    omega
  · intro full
    have padded : pad s = s ++ [0] := by
      have none : paddedLength s - s.length - 1 = 0 := by omega
      rw [pad_eq, none, List.replicate_zero]
    rw [accepted, encrypt_eq_ciphertext k fits, Except.ok.injEq]
    simp only [ciphertext, padded]
    constructor
    · rintro ⟨tail, length, encrypted⟩
      obtain rfl : tail = [] := List.eq_nil_of_length_eq_zero (by omega)
      exact encrypted
    · intro encrypted
      exact ⟨[], by rw [List.length_nil]; omega, encrypted⟩

/-- The letter `A` under the key `0`, with the candidate `157428`. -/
theorem success_decryptWithKey_letter :
    ∃ c result, encrypt 0 [0x41] = .ok c ∧ decryptWithKey 157428 c = .ok result ∧
      (success [0x41] result = true ↔
        ∃ tail : List Byte, tail.length = block_size - 1 - [(0x41 : Byte)].length % block_size ∧
          blockwise (encryptBlock 157428) ([0x41] ++ 0 :: tail) = c) ∧
      (encrypt 157428 [0x41] = .ok c → success [0x41] result = true) ∧
      ([(0x41 : Byte)].length % block_size = block_size - 1 →
        (success [0x41] result = true ↔ encrypt 157428 [0x41] = .ok c)) :=
  success_decryptWithKey 157428 0 [0x41] (by decide) (by decide)

/-! ## A wrong key that is accepted -/

/-- The user key of `0`. -/
def rightKey : UserKey := #v[
    0x30, 0, 0, 0, 0, 0, 0, 0, 0, 0, 0, 0,
    0, 0, 0, 0, 0, 0, 0, 0, 0, 0, 0, 0,
    0, 0, 0, 0, 0, 0, 0, 0]

/-- The subkeys of `0`. -/
def rightSubkeys : Subkeys := #v[
    0x03A309F6, 0xCD683B10, 0x6A35D216, 0xD327653B, 0x515C8C9B, 0x6EC86754,
    0x133A4D7C, 0x8D24B375, 0xC4D8096A, 0x985B36BC, 0x7B65A9C1, 0xB5ECEF06,
    0x7EC06CA6, 0xCE008ED1, 0x7BAA9096, 0x6CDE4E63, 0x0935E0BF, 0x90FEA7A7,
    0x94A60A92, 0x5E305A4C, 0x1D7F3052, 0xBA7930F2, 0x62B7170D, 0x8CF9A579,
    0xEB89F0DF, 0x319D1398, 0x9AFC7D12, 0x9AA04F72, 0x42C94748, 0x60E8CF5A,
    0x9CD43552, 0x092361E1, 0x7EEE8F29, 0x3D97C09E, 0xC710058F, 0xFBA71541,
    0x2564951A, 0x2F0FA8A9, 0x550681AF, 0x63B18264]

/-- The user key of `157428`. -/
def wrongKey : UserKey := #v[
    0x31, 0x35, 0x37, 0x34, 0x32, 0x38, 0, 0, 0, 0, 0, 0,
    0, 0, 0, 0, 0, 0, 0, 0, 0, 0, 0, 0,
    0, 0, 0, 0, 0, 0, 0, 0]

/-- The subkeys of `157428`. -/
def wrongSubkeys : Subkeys := #v[
    0x20B5040C, 0xCC6D8684, 0x2B043543, 0xCD4F0CAB, 0xB6660828, 0xF60F6EE4,
    0xE8C9D807, 0xEA1B3A29, 0xC198D3BB, 0x4E939FF6, 0x1F5022A6, 0x483201C9,
    0x7A32C4AE, 0x47CB3B8E, 0xD3B144DE, 0xABE80434, 0xCC344201, 0xFD8C0B0B,
    0xD7A65749, 0x641A4F74, 0xAF86098A, 0xE6B4E485, 0xB434BBE6, 0x2BA20165,
    0x800AC4E4, 0xF0C6FFBE, 0x9657D8F4, 0xBFC29870, 0xB880729D, 0x463AA4A4,
    0x51607C3B, 0xF2C321F1, 0x44850DC5, 0x2947F992, 0x5C6D9427, 0x7A92C817,
    0xB2BED9CB, 0xD9362BCA, 0x31EBEC11, 0x280904C6]

/-- The padded letter, what `157428` decrypts its ciphertext to, and the ciphertext. -/
def rightBlock : Block := #v[0x41, 0, 0, 0, 0, 0, 0, 0, 0, 0, 0, 0, 0, 0, 0, 0]
def wrongBlock : Block :=
  #v[0x41, 0, 0x2A, 0xEE, 0x9E, 0x57, 0xC7, 0xAA, 0xEE, 0x9B, 0xCB, 0x4B, 0xF4, 0x46, 0x93, 0xBC]
def sharedBlock : Block :=
  #v[0xF6, 0x9F, 0x93, 0xDB, 0x82, 0x39, 0x97, 0xBB, 0xE4, 0x35, 0x84, 0x32, 0x9B, 0x05, 0x6E, 0x06]

/-- What a block is encrypted to, from the values that the key gives. The key words
of these keys are zero but for the first. -/
theorem encryptBlock_of_values {key : Word} {userKey : UserKey} {subkeys : Subkeys} {first : Word}
    {p ct : Block} (digits : byteKey key = userKey) (expanded : Published.K userKey = subkeys)
    (words : Published.S userKey 3 = 0 ∧ Published.S userKey 2 = 0 ∧ Published.S userKey 1 = 0 ∧
      Published.S userKey 0 = first)
    (encrypted : Network.encrypt (fun x => Published.h x 0 0 0 first) subkeys p = ct) :
    encryptBlock key p = ct := by
  have roundFunction : Published.G userKey = fun x => Published.h x 0 0 0 first := by
    funext x
    rw [Published.G, words.1, words.2.1, words.2.2.1, words.2.2.2]
  rw [encryptBlock, digits, encrypt_makeSessionKey, expanded, roundFunction]
  exact encrypted

theorem encryptBlock_right : encryptBlock 0 rightBlock = sharedBlock := by
  have digits : byteKey 0 = rightKey := by decide +kernel
  have expanded : Published.K rightKey = rightSubkeys := by decide +kernel
  have words : Published.S rightKey 3 = 0 ∧ Published.S rightKey 2 = 0 ∧
      Published.S rightKey 1 = 0 ∧ Published.S rightKey 0 = 0x78607830 := by
    decide +kernel
  exact encryptBlock_of_values digits expanded words (by decide +kernel)

theorem encryptBlock_wrong : encryptBlock 157428 wrongBlock = sharedBlock := by
  have digits : byteKey 157428 = wrongKey := by decide +kernel
  have expanded : Published.K wrongKey = wrongSubkeys := by decide +kernel
  have words : Published.S wrongKey 3 = 0 ∧ Published.S wrongKey 2 = 0 ∧
      Published.S wrongKey 1 = 0 ∧ Published.S wrongKey 0 = 0xE1E58B6E := by
    decide +kernel
  exact encryptBlock_of_values digits expanded words (by decide +kernel)

theorem ciphertext_right : ciphertext 0 [0x41] = sharedBlock.toList := by
  rw [← encryptBlock_right]
  exact blockwise_toList (encryptBlock 0) rightBlock

theorem blockwise_wrong :
    blockwise (encryptBlock 157428) wrongBlock.toList = sharedBlock.toList := by
  rw [← encryptBlock_wrong]
  exact blockwise_toList (encryptBlock 157428) wrongBlock

/-- **A wrong key is accepted.** The string of one letter encrypted with the key
`0` is accepted with the key `157428`, which encrypts it to something else. -/
theorem success_of_wrong_key :
    ∃ c result, encrypt 0 [0x41] = .ok c ∧ decryptWithKey 157428 c = .ok result ∧
      success [0x41] result = true ∧ encrypt 157428 [0x41] ≠ .ok c := by
  have fits : paddedLength [0x41] ≤ INT_MAX := by decide
  refine ⟨_, _, encrypt_eq_ciphertext 0 fits, decryptWithKey_ciphertext 157428 0 fits, ?_, ?_⟩
  · refine (success_iff 157428 0 (by decide)).mpr ⟨wrongBlock.toList.drop 2, by decide, ?_⟩
    rw [ciphertext_right]
    exact blockwise_wrong
  · rw [encrypt_eq_ciphertext 157428 fits, Ne, Except.ok.injEq, ciphertext_right,
      ← encryptBlock_wrong, ← blockwise_toList]
    intro same
    have message := congrArg (blockwise (decryptBlock 157428)) same
    rw [blockwise_decryptBlock_ciphertext,
      blockwise_left_inverse (decryptBlock_encryptBlock 157428) (by decide) ⟨1, by decide⟩]
      at message
    exact absurd message (by decide)

end ParallelLabs.Decryptor
