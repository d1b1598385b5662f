import ParallelLabs.Library.CheckedInt
import ParallelLabs.Encryptor.Cryptor

/-!
# `parallel_decryptor.h`: candidate keys for the workers

The range of keys is divided by the number of workers, rounding up, and worker
`i` tries the keys `i * step + j` for `j` from `0` to `step`, both included, as
long as they do not exceed the end of the range. `prepareFunctions` lists them;
`prepareMappedFunctions` hands out a `DecryptorSequence` that yields them one by
one. Arithmetic in `int` is checked; conversions between `int` and `uint32_t`
keep the bits.
-/

set_option autoImplicit false

namespace ParallelLabs.Decryptor

open Library Twofish

/-- `decryption_result`. -/
structure DecryptionResult where
  result : List Byte
  key : Word
  deriving DecidableEq, Repr

/-- `decrypt_with_key`. -/
def decryptWithKey (key : Word) (encrypted : List Byte) : Except Fault DecryptionResult := do
  let result ← Encryptor.decrypt key encrypted
  pure ⟨result, key⟩

/-- `success`, which reads the global `expected`. -/
def success (expected : List Byte) (result : DecryptionResult) : Bool :=
  result.result == expected

/-- `argtype_t`: the arguments of `decrypt_with_key`. -/
abbrev ArgType := Word × List Byte

/-- `step`, as both preparations compute it. -/
def computeStep (rangeBegin rangeEnd : Word) (numThreads : BitVec 16) : Except Fault Int := do
  let rangeSize := rangeEnd - rangeBegin
  let divRes ← div rangeSize.toInt numThreads.toNat
  checked (divRes.1 + if divRes.2 = 0 then 0 else 1)

/-- The `int` expression `i * step + j`. -/
def keyValue (i step j : Int) : Except Fault Int := do
  let base ← checked (i * step)
  checked (base + j)

/-! ## The eager preparation -/

/-- The inner loop of `prepare_functions`, from `j` on: the arguments of the
callables that are added. -/
def addCallables (i step : Int) (rangeEnd : Word) (encrypted : List Byte) (j : Int) :
    Except Fault (List ArgType) :=
  if j ≤ step then
    match keyValue i step j with
    | .error fault => .error fault
    | .ok value =>
        if BitVec.ofInt 32 value > rangeEnd then .ok []
        else
          match checked (j + 1) with
          | .error fault => .error fault
          | .ok _ =>
              match addCallables i step rangeEnd encrypted (j + 1) with
              | .error fault => .error fault
              | .ok rest => .ok ((BitVec.ofInt 32 value, encrypted) :: rest)
  else .ok []
termination_by (step + 1 - j).toNat

/-- What a preparation leaves behind: the global `expected` and the workers. -/
structure Prepared (Worker : Type) where
  expected : List Byte
  workers : List Worker

/-- `prepare_functions`. A worker is the list of the arguments of its callables. -/
def prepareFunctions (rangeBegin rangeEnd : Word) (numThreads : BitVec 16)
    (expected encrypted : List Byte) : Except Fault (Prepared (List ArgType)) := do
  let step ← computeStep rangeBegin rangeEnd numThreads
  let workers ← (List.range numThreads.toNat).mapM fun i : Nat =>
    addCallables i step rangeEnd encrypted 0
  pure ⟨expected, workers⟩

/-! ## The lazy preparation -/

/-- `DecryptorSequence`. -/
structure DecryptorSequence where
  i : Int
  j : Int
  step : Int
  rangeEnd : Int
  encryptedVector : List Byte
  deriving DecidableEq, Repr

namespace DecryptorSequence

/-- The constructor, which converts the end of the range to `int`. -/
def make (i step : Int) (rangeEnd : Word) (encrypted : List Byte) : DecryptorSequence :=
  ⟨i, 0, step, rangeEnd.toInt, encrypted⟩

/-- `next`. -/
def next (seq : DecryptorSequence) : Except Fault (ArgType × DecryptorSequence) := do
  let value ← keyValue seq.i seq.step seq.j
  let j ← checked (seq.j + 1)
  pure ((BitVec.ofInt 32 value, seq.encryptedVector), { seq with j := j })

/-- `has_next`. The comparison of `key` with `range_end` is one of `uint32_t`. -/
def hasNext (seq : DecryptorSequence) : Except Fault Bool := do
  let value ← keyValue seq.i seq.step seq.j
  pure (BitVec.ofInt 32 value ≤ BitVec.ofInt 32 seq.rangeEnd && seq.j ≤ seq.step)

end DecryptorSequence

/-- `prepare_mapped_functions`. A worker is the generator of its arguments. -/
def prepareMappedFunctions (rangeBegin rangeEnd : Word) (numThreads : BitVec 16)
    (expected encrypted : List Byte) : Except Fault (Prepared DecryptorSequence) := do
  let step ← computeStep rangeBegin rangeEnd numThreads
  let workers := (List.range numThreads.toNat).map fun i : Nat =>
    DecryptorSequence.make i step rangeEnd encrypted
  pure ⟨expected, workers⟩

end ParallelLabs.Decryptor
