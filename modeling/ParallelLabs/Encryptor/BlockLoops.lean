import ParallelLabs.Encryptor.Cryptor
import ParallelLabs.Library.Blocks

/-!
# What the block loops compute

Within `int`, the loops of `twofish_cryptor` return, and what they return is
said without loops: the string padded with zeros (`toEncryptVector_eq`) and the
block function applied block by block (`forBlocks_eq`). Hence both functions of
`twofish_cryptor` are block actions (`encrypt_eq`, `decrypt_eq`).
-/

set_option autoImplicit false

namespace ParallelLabs.Encryptor

open Library Twofish

/-- The block function of a key. -/
def encryptBlock (key : Word) : Block → Block := Twofish.encrypt (makeSessionKey (byteKey key))

def decryptBlock (key : Word) : Block → Block := Twofish.decrypt (makeSessionKey (byteKey key))

/-- The length of a padded message. -/
def paddedLength (s : List Byte) : Nat := block_size * (s.length / block_size + 1)

/-- A message padded with one to sixteen zero bytes. -/
def pad (s : List Byte) : List Byte := s ++ List.replicate (paddedLength s - s.length) 0

theorem length_lt_paddedLength (s : List Byte) : s.length < paddedLength s := by
  rw [paddedLength, block_size]
  omega

@[simp] theorem length_pad (s : List Byte) : (pad s).length = paddedLength s := by
  have longer := length_lt_paddedLength s
  simp only [pad, List.length_append, List.length_replicate]
  omega

theorem block_size_dvd_length_pad (s : List Byte) : block_size ∣ (pad s).length :=
  ⟨s.length / block_size + 1, length_pad s⟩

/-! ## One block -/

theorem readBlock_eq {v : List Byte} {k : Nat} (within : block_size * (k + 1) ≤ v.length)
    (fits : block_size * (k + 1) ≤ INT_MAX) :
    readBlock v (block_size * k) = .ok (blockAt block_size v k) := by
  rw [Nat.mul_succ] at within fits
  rw [readBlock, asInt_of_le fits]
  have span : block_size * k + block_size = block_size * k + 1 * block_size := by
    rw [Nat.one_mul]
  obtain ⟨final, returned, read⟩ := forInt_total Nat.one_pos
    (fun j (block : Block) => do
      let byte ← readAt v j
      pure (block.set (j % block_size) byte (Nat.mod_lt j (by decide))))
    (Vector.replicate 16 0)
    (fun t block => ∀ (m : Nat) (inside : m < block_size), m < t →
      block[m] = v[block_size * k + m]!)
    span fits
    (fun t under block read => by
      have bound : block_size * k + 1 * t < v.length := by rw [Nat.one_mul]; omega
      have offset : (block_size * k + t) % block_size = t := by
        rw [Nat.mul_add_mod, Nat.mod_eq_of_lt under]
      refine ⟨_, by rw [readAt_of_lt bound]; rfl, fun m inside below => ?_⟩
      simp only [Nat.one_mul, offset]
      rw [Vector.getElem_set]
      split
      · next same =>
          subst same
          rw [getElem!_pos v _ (by omega)]
      · next other => exact read m inside (by omega))
    (fun m _ below => absurd below (Nat.not_lt_zero m))
  refine Eq.trans returned (congrArg Except.ok ?_)
  apply Vector.ext
  intro m inside
  rw [read m inside inside, blockAt, Vector.getElem_ofFn]

/-- Writing a block changes its own stretch of the vector only. -/
theorem writeBlock_spec (block : Block) {k : Nat} {v : List Byte}
    (within : block_size * (k + 1) ≤ v.length) (fits : block_size * (k + 1) ≤ INT_MAX) :
    ∃ final, writeBlock block (block_size * k) v = .ok final ∧ final.length = v.length ∧
      (∀ j < block_size * k, final[j]? = v[j]?) ∧
      ∀ (m : Nat) (inside : m < block_size),
        final[block_size * k + m]? = some (block[m]) := by
  rw [Nat.mul_succ] at within fits
  rw [writeBlock, asInt_of_le fits]
  have span : block_size * k + block_size = block_size * k + 1 * block_size := by
    rw [Nat.one_mul]
  obtain ⟨final, returned, sameLength, before, written⟩ := forInt_total
    Nat.one_pos
    (fun j v => writeAt v j (block.get ⟨j % block_size, Nat.mod_lt j (by decide)⟩)) v
    (fun t (w : List Byte) => w.length = v.length ∧
      (∀ j < block_size * k, w[j]? = v[j]?) ∧
      ∀ (m : Nat) (inside : m < block_size), m < t →
        w[block_size * k + m]? = some (block[m]))
    span fits
    (fun t under w ⟨sameLength, before, written⟩ => by
      have bound : block_size * k + 1 * t < w.length := by rw [Nat.one_mul]; omega
      have offset : (block_size * k + t) % block_size = t := by
        rw [Nat.mul_add_mod, Nat.mod_eq_of_lt under]
      refine ⟨_, writeAt_of_lt bound _, by rw [List.length_set, sameLength], ?_, ?_⟩
      · intro j below
        rw [List.getElem?_set_ne (by omega)]
        exact before j below
      · intro m inside below
        simp only [Nat.one_mul, offset] at bound ⊢
        rcases Nat.lt_succ_iff_lt_or_eq.mp below with earlier | rfl
        · rw [List.getElem?_set_ne (by omega)]
          exact written m inside earlier
        · rw [List.getElem?_set_self bound]
          rfl)
    ⟨rfl, fun _ _ => rfl, fun m _ below => absurd below (Nat.not_lt_zero m)⟩
  exact ⟨final, returned, sameLength, before, fun m inside => written m inside inside⟩

/-! ## All blocks -/

theorem toNat_ofNat_length {v : List Byte} (fits : v.length ≤ INT_MAX) :
    (BitVec.ofNat 32 v.length).toNat = v.length := by
  rw [BitVec.toNat_ofNat, Nat.mod_eq_of_lt]
  rw [INT_MAX] at fits
  omega

/-- **The loop over the blocks applies the block function to each block.** -/
theorem forBlocks_eq (blockFunction : Block → Block) {v : List Byte}
    (whole : block_size ∣ v.length) (fits : v.length ≤ INT_MAX) :
    forBlocks blockFunction (BitVec.ofNat 32 v.length) v = .ok (blockwise blockFunction v) := by
  obtain ⟨trips, length⟩ := whole
  rw [forBlocks, toNat_ofNat_length fits, ← length_blockwise blockFunction v]
  have sameLength := length_blockwise blockFunction v
  refine forInt_fills _ (sameLength.trans length) (sameLength.trans_le fits) ?_ (by simp)
  intro k under w size agrees
  have within : block_size * (k + 1) ≤ v.length := by
    rw [length]
    exact Nat.mul_le_mul_left _ under
  have fitsBlock := within.trans fits
  obtain ⟨final, returned, kept, before, written⟩ :=
    writeBlock_spec (blockFunction (blockAt block_size v k)) (v := w)
      (by rw [size, sameLength]; exact within) fitsBlock
  refine ⟨final, ?_, kept.trans size, ?_⟩
  · rw [readBlock_eq within fitsBlock]
    exact returned
  · intro j below
    rcases Nat.lt_or_ge j (block_size * k) with earlier | later
    · rw [before j earlier, agrees j earlier]
    · obtain ⟨m, rfl⟩ := Nat.exists_eq_add_of_le later
      rw [Nat.mul_succ] at below within
      have inside : m < block_size := by omega
      have bound : block_size * k + m < v.length := by omega
      rw [written m inside, getElem?_blockwise blockFunction inside bound]

/-! ## Padding -/

theorem toNat_paddedSize {s : List Byte} (fits : paddedLength s ≤ INT_MAX) :
    (paddedSize s).toNat = paddedLength s := by
  have length := toNat_ofNat_length ((length_lt_paddedLength s).le.trans fits)
  have blockSize : (BitVec.ofNat 32 block_size).toNat = 16 := rfl
  simp only [paddedSize, BitVec.toNat_add, BitVec.toNat_sub, BitVec.toNat_umod, length, blockSize]
  simp only [paddedLength, block_size, INT_MAX] at fits ⊢
  omega

theorem paddedSize_eq {s : List Byte} (fits : paddedLength s ≤ INT_MAX) :
    paddedSize s = BitVec.ofNat 32 (pad s).length := by
  apply BitVec.eq_of_toNat_eq
  rw [toNat_paddedSize fits, toNat_ofNat_length (by rwa [length_pad]), length_pad]

/-- **The first loop of `encrypt` pads the message.** -/
theorem toEncryptVector_eq {s : List Byte} (fits : paddedLength s ≤ INT_MAX) :
    toEncryptVector (paddedSize s) s = .ok (pad s) := by
  rw [toEncryptVector, toNat_paddedSize fits, ← length_pad]
  refine forInt_fills _ (Nat.one_mul _).symm (by rwa [length_pad]) ?_ (by simp)
  intro k under w size agrees
  rw [Nat.one_mul] at agrees ⊢
  have bound : k < w.length := by rwa [size]
  have extended : ∀ byte : Byte, (pad s)[k]? = some byte →
      ∀ j < 1 * (k + 1), (w.set k byte)[j]? = (pad s)[j]? := by
    intro byte entry j below
    rcases Nat.lt_succ_iff_lt_or_eq.mp (Nat.one_mul (k + 1) ▸ below) with earlier | rfl
    · rw [List.getElem?_set_ne (by omega), agrees j earlier]
    · rw [List.getElem?_set_self bound, entry]
  split
  · next inside =>
      refine ⟨w.set k s[k], ?_, by rw [List.length_set, size], extended _ ?_⟩
      · rw [readAt_of_lt inside]
        exact writeAt_of_lt bound _
      · rw [pad, List.getElem?_append_left inside, List.getElem?_eq_getElem inside]
  · next outside =>
      refine ⟨w.set k 0, writeAt_of_lt bound 0, by rw [List.length_set, size], extended 0 ?_⟩
      rw [length_pad] at under
      rw [pad, List.getElem?_append_right (Nat.le_of_not_lt outside), List.getElem?_replicate,
        if_pos (by omega)]

/-! ## The two functions -/

/-- **`encrypt` is the block action on the padded message.** -/
theorem encrypt_eq (key : Word) {s : List Byte} (fits : paddedLength s ≤ INT_MAX) :
    encrypt key s = .ok (blockwise (encryptBlock key) (pad s)) := by
  simp only [encrypt, toEncryptVector_eq fits]
  rw [paddedSize_eq fits]
  exact forBlocks_eq _ (block_size_dvd_length_pad s) (by rwa [length_pad])

/-- **`decrypt` is the block action, cut at the first zero.** -/
theorem decrypt_eq (key : Word) {c : List Byte} (whole : block_size ∣ c.length)
    (fits : c.length ≤ INT_MAX) :
    decrypt key c = .ok ((blockwise (decryptBlock key) c).takeWhile (· != 0)) := by
  rw [decrypt, forBlocks_eq _ whole fits]
  rfl

end ParallelLabs.Encryptor
