import ParallelLabs.Library.CheckedLoop
import ParallelLabs.Twofish.Cipher

/-!
# `twofish_cryptor`: whole messages

`encrypt` pads a string with zero bytes to whole blocks and encrypts block by
block; `decrypt` decrypts block by block and returns the bytes before the first
zero. A string and a vector of bytes are lists of bytes. Sizes are `uint32_t`
and wrap; the loop counters are `int`s, and an overflow or an access out of
bounds is a fault.
-/

set_option autoImplicit false

namespace ParallelLabs.Encryptor

open Library Twofish

abbrev byte_key_len : Nat := 32
abbrev block_size : Nat := 16

/-- `std::to_string` of a `uint32_t`: the decimal digits. -/
def toString (key : Word) : List Byte :=
  (Nat.toDigits 10 key.toNat).map fun digit => BitVec.ofNat 8 digit.toNat

/-- The loop that fills `byte_key`, written out once in `encrypt` and once in
`decrypt`. -/
def byteKey (key : Word) : UserKey :=
  let stringKey := toString key
  Vector.ofFn fun i : Fin byte_key_len =>
    if bound : i < stringKey.length then stringKey[i] else 0

/-- `for (int j = i; j < i + block_size; j++) block[j % block_size] = v[j];` -/
def readBlock (v : List Byte) (i : Nat) : Except Fault Block := do
  let stop ← asInt (i + block_size)
  forInt stop 1 Nat.one_pos
    (fun j block => do
      let byte ← readAt v j
      pure (block.set (j % block_size) byte (Nat.mod_lt j (by decide))))
    i (Vector.replicate 16 0)

/-- `for (int j = i; j < i + block_size; j++) v[j] = block[j % block_size];` -/
def writeBlock (block : Block) (i : Nat) (v : List Byte) : Except Fault (List Byte) := do
  let stop ← asInt (i + block_size)
  forInt stop 1 Nat.one_pos
    (fun j v => writeAt v j (block.get ⟨j % block_size, Nat.mod_lt j (by decide)⟩)) i v

/-- The loop over the blocks of a vector of `size` bytes, with the block
function of either direction. -/
def forBlocks (blockFunction : Block → Block) (size : Word) (v : List Byte) :
    Except Fault (List Byte) :=
  forInt size.toNat block_size (by decide)
    (fun i output => do
      let block ← readBlock v i
      writeBlock (blockFunction block) i output)
    0 (List.replicate size.toNat 0)

/-- The `size` that `encrypt` computes in `uint32_t`. -/
def paddedSize (toEncrypt : List Byte) : Word :=
  let size := BitVec.ofNat 32 toEncrypt.length
  let blockSize := BitVec.ofNat 32 block_size
  size + (blockSize - size % blockSize)

/-- The loop that copies the string into `to_encrypt_vector`. -/
def toEncryptVector (size : Word) (toEncrypt : List Byte) : Except Fault (List Byte) :=
  forInt size.toNat 1 Nat.one_pos
    (fun i v =>
      if i < toEncrypt.length then do
        let byte ← readAt toEncrypt i
        writeAt v i byte
      else
        writeAt v i 0)
    0 (List.replicate size.toNat 0)

/-- `twofish_cryptor::encrypt`. -/
def encrypt (key : Word) (toEncrypt : List Byte) : Except Fault (List Byte) := do
  let twofish := makeSessionKey (byteKey key)
  let size := paddedSize toEncrypt
  let v ← toEncryptVector size toEncrypt
  forBlocks (Twofish.encrypt twofish) size v

/-- `twofish_cryptor::decrypt`. -/
def decrypt (key : Word) (encrypted : List Byte) : Except Fault (List Byte) := do
  let twofish := makeSessionKey (byteKey key)
  let size := BitVec.ofNat 32 encrypted.length
  let decrypted ← forBlocks (Twofish.decrypt twofish) size encrypted
  pure (decrypted.takeWhile (· != 0))

end ParallelLabs.Encryptor
