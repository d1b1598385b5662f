import ParallelLabs.Decryptor.Enumeration
import Mathlib.Algebra.Order.Floor.Div

/-!
# The arithmetic of the partition, and keys assigned twice

The bounds of the range are of type `uint32_t`, and the preparations compute with
them in `int`: they convert the size of the range for `div`, and they compute
`i * step + j` for every key. The generator also computes the number after the last
key of its worker, to see that it has no next one. The largest number of all is
that of the last worker (`lastValue`). The arithmetic is that of the natural
numbers exactly when the size of the range and this number are within `int`
(`arithmetic_iff`).

The stretch of a worker includes the first key of the next one. So whenever there
are two workers some key is assigned twice (`nodup_keys_iff`).
-/

set_option autoImplicit false

namespace ParallelLabs.Decryptor

open Library Twofish

/-! ## The arithmetic -/

theorem roundedStep_eq_ceilDiv (size : Nat) {n : Nat} (positive : 0 < n) :
    roundedStep size n = size ⌈/⌉ n := by
  refine Nat.le_antisymm ?_
    ((ceilDiv_le_iff_le_mul positive).mpr (le_mul_roundedStep size positive))
  have enough : size ≤ n * (size ⌈/⌉ n) := (ceilDiv_le_iff_le_mul positive).mp (Nat.le_refl _)
  have below : n * roundedStep size n < n * (size ⌈/⌉ n + 1) := by
    calc n * roundedStep size n < size + n := mul_roundedStep_lt size positive
      _ ≤ n * (size ⌈/⌉ n) + n := Nat.add_le_add_right enough n
      _ = n * (size ⌈/⌉ n + 1) := (Nat.mul_succ _ _).symm
  exact Nat.le_of_lt_succ (Nat.lt_of_mul_lt_mul_left below)

/-- The arguments of a worker are at most `step + 1`, and the key at a position is
`i * step + j` as a natural number. -/
structure Enumerates (i step : Nat) (args : List ArgType) : Prop where
  atMost : args.length ≤ step + 1
  exact : ∀ (j : Nat) (arg : ArgType), args[j]? = some arg → arg.1.toNat = i * step + j

/-- **The arithmetic of both preparations is that of the natural numbers**: the size
of the range keeps its value as an argument of `div`, the step is the quotient
rounded up, and every worker enumerates its keys without a fault. -/
structure ExactArithmetic (rangeBegin rangeEnd : Word) (numThreads : BitVec 16)
    (expected encrypted : List Byte) : Prop where
  argument : (rangeEnd - rangeBegin).toInt = ((rangeEnd.toNat - rangeBegin.toNat : Nat) : Int)
  step : computeStep rangeBegin rangeEnd numThreads =
    .ok (((rangeEnd.toNat - rangeBegin.toNat) ⌈/⌉ numThreads.toNat : Nat) : Int)
  eager : ∃ prepared,
    prepareFunctions rangeBegin rangeEnd numThreads expected encrypted = .ok prepared ∧
      prepared.workers.length = numThreads.toNat ∧
      ∀ (i : Nat) (args : List ArgType), prepared.workers[i]? = some args →
        Enumerates i ((rangeEnd.toNat - rangeBegin.toNat) ⌈/⌉ numThreads.toNat) args
  mapped : ∃ prepared,
    prepareMappedFunctions rangeBegin rangeEnd numThreads expected encrypted = .ok prepared ∧
      prepared.workers.length = numThreads.toNat ∧
      ∀ (i : Nat) (seq : DecryptorSequence), prepared.workers[i]? = some seq →
        ∃ args, seq.drain = .ok args ∧
          Enumerates i ((rangeEnd.toNat - rangeBegin.toNat) ⌈/⌉ numThreads.toNat) args

/-- The number after the last key of worker `i`, where its keys have an end. -/
def valueAfter (rangeEnd : Word) (step i : Nat) : Nat :=
  i * step + min (step + 1) (rangeEnd.toNat + 1 - i * step)

/-- The largest number that is computed for a key. -/
def lastValue (rangeBegin rangeEnd : Word) (numThreads : BitVec 16) : Nat :=
  valueAfter rangeEnd ((rangeEnd.toNat - rangeBegin.toNat) ⌈/⌉ numThreads.toNat)
    (numThreads.toNat - 1)

theorem valueAfter_mono (rangeEnd : Word) (step : Nat) {i k : Nat} (le : i ≤ k) :
    valueAfter rangeEnd step i ≤ valueAfter rangeEnd step k := by
  have more : i * step ≤ k * step := Nat.mul_le_mul_right step le
  rw [valueAfter, valueAfter]
  omega

theorem enumerates_stretch {i step : Nat} (rangeEnd : Word) (encrypted : List Byte)
    (fits : valueAfter rangeEnd step i ≤ INT_MAX) :
    Enumerates i step (argsOf encrypted (stretch (i * step) step rangeEnd.toNat 0)) := by
  rw [valueAfter, INT_MAX] at fits
  constructor
  · rw [argsOf, stretch, List.length_map, List.length_map, List.length_range']
    omega
  · intro j arg at'
    rw [argsOf, stretch, List.getElem?_map, List.getElem?_map, Option.map_map,
      Option.map_eq_some_iff] at at'
    obtain ⟨m, entry, rfl⟩ := at'
    obtain ⟨within, rfl⟩ := List.getElem?_eq_some_iff.mp entry
    rw [List.length_range'] at within
    rw [List.getElem_range', Nat.zero_add, Nat.one_mul, Function.comp_apply, BitVec.toNat_ofNat]
    exact Nat.mod_eq_of_lt (by omega)

/-! ## What a generator has computed when it was drained -/

theorem keyValue_cases {i step j : Nat} {value : Int} (key : keyValue i step j = .ok value) :
    i * step + j ≤ INT_MAX ∧ value = ((i * step + j : Nat) : Int) := by
  rw [keyValue] at key
  obtain ⟨base, product, sum⟩ := bind_eq_ok.mp key
  obtain ⟨rfl, _⟩ := checked_cases product
  obtain ⟨rfl, _, fits⟩ := checked_cases sum
  rw [← Int.natCast_mul, ← Int.natCast_add] at fits ⊢
  exact ⟨Int.ofNat_le.mp fits, rfl⟩

/-- A generator that was drained has computed a key first. -/
theorem DecryptorSequence.key_of_drain {seq : DecryptorSequence} {all : List ArgType}
    (drained : seq.drain = .ok all) : ∃ value, keyValue seq.i seq.step seq.j = .ok value := by
  rcases drain_cases drained with ⟨asked, _⟩ | ⟨_, _, _, asked, _⟩
  · obtain ⟨value, key, _⟩ := hasNext_cases asked
    exact ⟨value, key⟩
  · obtain ⟨value, key, _⟩ := hasNext_cases asked
    exact ⟨value, key⟩

/-- A generator that was drained has computed the number after its last key. -/
theorem fits_of_drain {i step j : Nat} {rangeEnd : Word} {encrypted : List Byte}
    {all : List ArgType} (started : j ≤ min (step + 1) (rangeEnd.toNat + 1 - i * step))
    (drained : DecryptorSequence.drain ⟨i, j, step, rangeEnd.toInt, encrypted⟩ = .ok all) :
    valueAfter rangeEnd step i ≤ INT_MAX := by
  -- On the number of keys from `j` on.
  induction left : min (step + 1) (rangeEnd.toNat + 1 - i * step) - j generalizing j all with
  | zero =>
      obtain ⟨value, key⟩ := DecryptorSequence.key_of_drain drained
      rw [valueAfter, Nat.le_antisymm (Nat.le_of_sub_eq_zero left) started]
      exact (keyValue_cases key).1
  | succ left ih =>
      rcases DecryptorSequence.drain_cases drained with
        ⟨asked, _⟩ | ⟨args, rest, tail, _, advance, drained', _⟩
      · obtain ⟨value, key⟩ := DecryptorSequence.key_of_drain drained
        obtain ⟨fits, rfl⟩ := keyValue_cases key
        rw [DecryptorSequence.hasNext_natCast rangeEnd encrypted fits, Except.ok.injEq,
          decide_eq_true (by omega : i * step + j ≤ rangeEnd.toNat),
          decide_eq_true (by omega : j ≤ step)] at asked
        cases asked
      · obtain rfl := DecryptorSequence.eq_of_next advance
        exact ih (j := j + 1) (by omega) drained' (by omega)

/-! ## When the arithmetic is exact -/

section Exact

variable {rangeBegin rangeEnd : Word} {numThreads : BitVec 16}
  (ordered : rangeBegin ≤ rangeEnd) (threads : 1 ≤ numThreads.toNat)

include ordered threads

/-- **The arithmetic of the preparations is exact** if and only if the size of the
range and the number after the last key of the last worker are within `int`. -/
theorem arithmetic_iff (expected encrypted : List Byte) :
    ExactArithmetic rangeBegin rangeEnd numThreads expected encrypted ↔
      rangeEnd.toNat - rangeBegin.toNat ≤ INT_MAX ∧
        lastValue rangeBegin rangeEnd numThreads ≤ INT_MAX := by
  have stepEq : stepOf rangeBegin rangeEnd numThreads =
      (rangeEnd.toNat - rangeBegin.toNat) ⌈/⌉ numThreads.toNat := roundedStep_eq_ceilDiv _ threads
  have size : (rangeEnd - rangeBegin).toNat = rangeEnd.toNat - rangeBegin.toNat :=
    BitVec.toNat_sub_of_le ordered
  constructor
  · intro exact
    have small : rangeEnd.toNat - rangeBegin.toNat ≤ INT_MAX := by
      by_contra large
      have negative := toInt_of_large (size ▸ Nat.lt_of_not_le large)
      rw [exact.argument] at negative
      exact absurd negative (Int.not_lt.mpr (Int.natCast_nonneg _))
    refine ⟨small, ?_⟩
    -- The generator of the last worker was drained.
    obtain ⟨prepared, returned, _, workers⟩ := exact.mapped
    rw [prepareMappedFunctions_eq ordered threads small, Except.ok.injEq] at returned
    subst returned
    have last : numThreads.toNat - 1 < numThreads.toNat := Nat.sub_lt threads Nat.one_pos
    obtain ⟨args, drained, _⟩ := workers (numThreads.toNat - 1) _ (by
      rw [List.getElem?_map, List.getElem?_range last, Option.map_some])
    rw [lastValue, ← stepEq]
    exact fits_of_drain (Nat.zero_le _) drained
  · rintro ⟨small, fits⟩
    have keysFit : ∀ i < numThreads.toNat,
        valueAfter rangeEnd (stepOf rangeBegin rangeEnd numThreads) i ≤ INT_MAX := by
      intro i under
      rw [lastValue, ← stepEq] at fits
      exact (valueAfter_mono rangeEnd _ (Nat.le_sub_one_of_lt under)).trans fits
    refine ⟨?_, ?_, ⟨_, prepareFunctions_eq ordered threads small expected encrypted keysFit,
      by rw [List.length_map, List.length_range], ?_⟩,
      ⟨_, prepareMappedFunctions_eq ordered threads small expected encrypted,
      by rw [List.length_map, List.length_range], ?_⟩⟩
    · rw [← size]
      exact toInt_eq_toNat (size.trans_le small)
    · rw [computeStep_eq ordered threads small, stepEq]
    · intro i args worker
      rw [List.getElem?_map, Option.map_eq_some_iff] at worker
      obtain ⟨_, entry, rfl⟩ := worker
      obtain ⟨under, rfl⟩ := List.getElem?_eq_some_iff.mp entry
      rw [List.length_range] at under
      rw [List.getElem_range, ← stepEq]
      exact enumerates_stretch rangeEnd encrypted (keysFit i under)
    · intro i seq worker
      rw [List.getElem?_map, Option.map_eq_some_iff] at worker
      obtain ⟨_, entry, rfl⟩ := worker
      obtain ⟨under, rfl⟩ := List.getElem?_eq_some_iff.mp entry
      rw [List.length_range] at under
      rw [List.getElem_range, ← stepEq]
      exact ⟨_, drain_eq rangeEnd encrypted (keysFit i under) 0 (Nat.zero_le _),
        enumerates_stretch rangeEnd encrypted (keysFit i under)⟩

end Exact

/-- The range and the number of workers of `main`. -/
theorem arithmetic_iff_main :
    ExactArithmetic 0 10000000 5 [0x41] [] ↔
      (10000000 : Word).toNat - (0 : Word).toNat ≤ INT_MAX ∧
        lastValue 0 10000000 5 ≤ INT_MAX :=
  arithmetic_iff (by decide) (by decide) [0x41] []

/-- **The whole range of keys**, for one worker: `div` gets `-1` for its size. -/
theorem arithmetic_fails :
    (0 : Word) ≤ 0xFFFFFFFF ∧ 1 ≤ (1 : BitVec 16).toNat ∧
      ((0xFFFFFFFF : Word) - 0).toInt = -1 ∧ ¬ ExactArithmetic 0 0xFFFFFFFF 1 [] [] := by
  refine ⟨by decide, by decide, by decide, fun exact => ?_⟩
  have argument := exact.argument
  revert argument
  decide

/-! ## Keys assigned twice -/

theorem stretch_nodup (base step last : Nat) : (stretch base step last 0).Nodup := by
  rw [stretch]
  exact (List.nodup_range' ..).map fun _ _ => Nat.add_left_cancel

/-- The keys of one worker are all different. -/
theorem nodup_worker (base step : Nat) (rangeEnd : Word) :
    ((stretch base step rangeEnd.toNat 0).map (BitVec.ofNat 32)).Nodup := by
  refine (stretch_nodup base step rangeEnd.toNat).map_on fun k member m member' same => ?_
  have bound := rangeEnd.isLt
  have below := (mem_stretch.mp member).2.2
  have below' := (mem_stretch.mp member').2.2
  have values := congrArg BitVec.toNat same
  rwa [BitVec.toNat_ofNat, BitVec.toNat_ofNat, Nat.mod_eq_of_lt (by omega),
    Nat.mod_eq_of_lt (by omega)] at values

/-- With two workers the key `step` is the last one of the first worker and the
first one of the second. -/
theorem nodup_keysOf_iff (rangeEnd : Word) {numThreads : BitVec 16}
    (threads : 1 ≤ numThreads.toNat) :
    (keysOf 0 rangeEnd numThreads).flatten.Nodup ↔ numThreads.toNat = 1 := by
  rw [keysOf, List.nodup_flatten]
  constructor
  · rintro ⟨_, disjoint⟩
    rcases Nat.eq_or_lt_of_le threads with one | two
    · exact one.symm
    · have within : stepOf 0 rangeEnd numThreads ≤ rangeEnd.toNat := roundedStep_le _ threads
      have shared : ∀ i < 2, BitVec.ofNat 32 (stepOf 0 rangeEnd numThreads) ∈
          (stretch (i * stepOf 0 rangeEnd numThreads) (stepOf 0 rangeEnd numThreads)
            rangeEnd.toNat 0).map (BitVec.ofNat 32) := by
        intro i under
        refine List.mem_map_of_mem (mem_stretch.mpr ⟨?_, Nat.le_add_left _ _, within⟩)
        exact (Nat.mul_le_mul_right _ (Nat.le_of_lt_succ under)).trans_eq (Nat.one_mul _)
      have apart := List.pairwise_iff_getElem.mp disjoint 0 1
        (by rw [List.length_map, List.length_range]; omega)
        (by rw [List.length_map, List.length_range]; omega) Nat.zero_lt_one
      rw [List.getElem_map, List.getElem_map, List.getElem_range, List.getElem_range] at apart
      exact absurd (shared 1 Nat.one_lt_two) (apart (shared 0 Nat.zero_lt_two))
  · intro one
    refine ⟨fun worker member => ?_, ?_⟩
    · obtain ⟨i, _, rfl⟩ := List.mem_map.mp member
      exact nodup_worker _ _ rangeEnd
    · rw [one]
      exact List.pairwise_singleton _ _

/-- **No key is assigned twice** if and only if there is one worker, by either
preparation, for every end of the range and number of workers that fit in `int`. -/
theorem nodup_keys_iff (rangeEnd : Word) (numThreads : BitVec 16) (expected encrypted : List Byte)
    (threads : 1 ≤ numThreads.toNat) (fits : rangeEnd.toNat + numThreads.toNat ≤ INT_MAX) :
    ∃ mapped eager, mappedKeys 0 rangeEnd numThreads expected encrypted = .ok mapped ∧
      eagerKeys 0 rangeEnd numThreads expected encrypted = .ok eager ∧
      (mapped.flatten.Nodup ↔ numThreads.toNat = 1) ∧
      (eager.flatten.Nodup ↔ numThreads.toNat = 1) :=
  ⟨_, _, mappedKeys_eq (Nat.zero_le _) threads fits expected encrypted,
    eagerKeys_eq (Nat.zero_le _) threads fits expected encrypted,
    nodup_keysOf_iff rangeEnd threads, nodup_keysOf_iff rangeEnd threads⟩

/-- The end of the range and the number of workers of `main`. -/
theorem nodup_keys_iff_main :
    ∃ mapped eager, mappedKeys 0 10000000 5 [0x41] [] = .ok mapped ∧
      eagerKeys 0 10000000 5 [0x41] [] = .ok eager ∧
      (mapped.flatten.Nodup ↔ (5 : BitVec 16).toNat = 1) ∧
      (eager.flatten.Nodup ↔ (5 : BitVec 16).toNat = 1) :=
  nodup_keys_iff 10000000 5 [0x41] [] (by decide) (by decide)

/-- Two workers on the keys up to `4` both try the key `2`. -/
theorem keys_assigned_twice :
    ∃ mapped eager, mappedKeys 0 4 2 [] [] = .ok mapped ∧ eagerKeys 0 4 2 [] [] = .ok eager ∧
      mapped = [[0, 1, 2], [2, 3, 4]] ∧ eager = mapped ∧ ¬ mapped.flatten.Nodup :=
  ⟨_, _, mappedKeys_eq (by decide) (by decide) (by decide) [] [],
    eagerKeys_eq (by decide) (by decide) (by decide) [] [], by decide, rfl, by decide⟩

end ParallelLabs.Decryptor
