import ParallelLabs.Decryptor.ParallelDecryptor
import Mathlib.Data.List.Monad
import Mathlib.Tactic.Ring

/-!
# Which keys are assigned

Worker `i` is assigned the keys of one stretch: from `i * step` to
`i * step + step`, cut at the end of the range. Consecutive stretches share
their common end, and `step` is rounded up, so together they are all the keys up
to `numThreads * step` that do not exceed the end of the range
(`exists_stretch_iff`). Both preparations assign these keys (`eagerKeys_eq`,
`mappedKeys_eq`).

The begin of the range enters the length of the stretches only. It is never
added to a key, so worker `0` starts at the key `0`, and the keys assigned are
those of the range exactly when the range begins with `0` (`coverage_iff`).
-/

set_option autoImplicit false

namespace ParallelLabs.Decryptor

open Library Twofish

namespace DecryptorSequence

variable {seq rest : DecryptorSequence} {args : ArgType}

theorem hasNext_cases {more : Bool} (asked : seq.hasNext = .ok more) :
    ∃ value, keyValue seq.i seq.step seq.j = .ok value ∧
      more = (BitVec.ofInt 32 value ≤ BitVec.ofInt 32 seq.rangeEnd && seq.j ≤ seq.step) := by
  rw [hasNext] at asked
  obtain ⟨value, key, answer⟩ := bind_eq_ok.mp asked
  exact ⟨value, key, (Except.ok.inj answer).symm⟩

theorem next_cases (advance : seq.next = .ok (args, rest)) :
    ∃ value, keyValue seq.i seq.step seq.j = .ok value ∧ checked (seq.j + 1) = .ok (seq.j + 1) ∧
      args = (BitVec.ofInt 32 value, seq.encryptedVector) ∧ rest = { seq with j := seq.j + 1 } := by
  rw [next] at advance
  obtain ⟨value, key, advance⟩ := bind_eq_ok.mp advance
  obtain ⟨j, counted, yielded⟩ := bind_eq_ok.mp advance
  obtain ⟨rfl, rfl⟩ := Prod.mk.inj (Except.ok.inj yielded)
  obtain ⟨rfl, _⟩ := checked_cases counted
  exact ⟨value, key, counted, rfl, rfl⟩

theorem le_step_of_hasNext (more : seq.hasNext = .ok true) : seq.j ≤ seq.step := by
  obtain ⟨value, _, answer⟩ := hasNext_cases more
  exact of_decide_eq_true (Bool.and_eq_true_iff.mp answer.symm).2

theorem eq_of_next (advance : seq.next = .ok (args, rest)) :
    rest = { seq with j := seq.j + 1 } := by
  obtain ⟨_, _, _, _, moved⟩ := next_cases advance
  exact moved

theorem next_eq (seq : DecryptorSequence) {value j : Int}
    (key : keyValue seq.i seq.step seq.j = .ok value) (counted : checked (seq.j + 1) = .ok j) :
    seq.next = .ok ((BitVec.ofInt 32 value, seq.encryptedVector), { seq with j := j }) := by
  simp only [next, key, counted, bind, Except.bind, pure, Except.pure]

end DecryptorSequence

/-- The arguments that a generator yields while it has a next one. -/
def DecryptorSequence.drain (seq : DecryptorSequence) : Except Fault (List ArgType) :=
  match _more : seq.hasNext with
  | .error fault => .error fault
  | .ok false => .ok []
  | .ok true =>
      match _advance : seq.next with
      | .error fault => .error fault
      | .ok (args, rest) =>
          match drain rest with
          | .error fault => .error fault
          | .ok tail => .ok (args :: tail)
termination_by (seq.step + 1 - seq.j).toNat
decreasing_by
  obtain rfl := DecryptorSequence.eq_of_next _advance
  have within := DecryptorSequence.le_step_of_hasNext _more
  simp only
  omega

theorem DecryptorSequence.drain_of_done {seq : DecryptorSequence}
    (done : seq.hasNext = .ok false) : seq.drain = .ok [] := by
  rw [drain]
  split
  · next fault failed => cases done.symm.trans failed
  · rfl
  · next more => cases done.symm.trans more

theorem DecryptorSequence.drain_of_next {seq rest : DecryptorSequence} {args : ArgType}
    {tail : List ArgType} (more : seq.hasNext = .ok true) (advance : seq.next = .ok (args, rest))
    (drained : rest.drain = .ok tail) : seq.drain = .ok (args :: tail) := by
  rw [drain]
  split
  · next fault failed => cases more.symm.trans failed
  · next done => cases more.symm.trans done
  · split
    · next fault failed => cases advance.symm.trans failed
    · next args' rest' advance' =>
        cases advance.symm.trans advance'
        rw [drained]

/-- The keys that the workers of `prepare_functions` try. -/
def eagerKeys (rangeBegin rangeEnd : Word) (numThreads : BitVec 16)
    (expected encrypted : List Byte) : Except Fault (List (List Word)) := do
  let prepared ← prepareFunctions rangeBegin rangeEnd numThreads expected encrypted
  pure (prepared.workers.map fun worker => worker.map Prod.fst)

/-- The keys that the workers of `prepare_mapped_functions` try. -/
def mappedKeys (rangeBegin rangeEnd : Word) (numThreads : BitVec 16)
    (expected encrypted : List Byte) : Except Fault (List (List Word)) := do
  let prepared ← prepareMappedFunctions rangeBegin rangeEnd numThreads expected encrypted
  prepared.workers.mapM fun worker => do
    let args ← worker.drain
    pure (args.map Prod.fst)

/-! ## Stretches -/

/-- The numbers from `base + j` on of the stretch of a worker. -/
def stretch (base step last j : Nat) : List Nat :=
  (List.range' j (min (step + 1) (last + 1 - base) - j)).map (base + ·)

theorem stretch_cons {base step last j : Nat} (within : j ≤ step) (below : base + j ≤ last) :
    stretch base step last j = (base + j) :: stretch base step last (j + 1) := by
  have count : min (step + 1) (last + 1 - base) - j =
      min (step + 1) (last + 1 - base) - (j + 1) + 1 := by omega
  rw [stretch, count, List.range'_succ, List.map_cons, stretch]

theorem stretch_nil {base step last j : Nat} (ended : step < j ∨ last < base + j) :
    stretch base step last j = [] := by
  have count : min (step + 1) (last + 1 - base) - j = 0 := by omega
  rw [stretch, count, List.range'_zero, List.map_nil]

theorem mem_stretch {base step last k : Nat} :
    k ∈ stretch base step last 0 ↔ base ≤ k ∧ k ≤ base + step ∧ k ≤ last := by
  rw [stretch, List.mem_map]
  constructor
  · rintro ⟨m, member, rfl⟩
    rw [List.mem_range'_1] at member
    omega
  · rintro ⟨above, within, below⟩
    refine ⟨k - base, ?_, by omega⟩
    rw [List.mem_range'_1]
    omega

/-- **The stretches cover an initial segment.** -/
theorem exists_stretch_iff {n : Nat} (positive : 0 < n) (step last k : Nat) :
    (∃ i < n, k ∈ stretch (i * step) step last 0) ↔ k ≤ n * step ∧ k ≤ last := by
  simp only [mem_stretch]
  constructor
  · rintro ⟨i, under, -, within, below⟩
    have bound : (i + 1) * step ≤ n * step := Nat.mul_le_mul_right step under
    rw [Nat.succ_mul] at bound
    omega
  · rintro ⟨within, below⟩
    rcases Nat.eq_zero_or_pos step with rfl | stepPositive
    · exact ⟨0, positive, by omega, by omega, below⟩
    -- The stretch of the quotient, or the last one for the very last key.
    rcases Nat.lt_or_ge (k / step) n with under | beyond
    · refine ⟨k / step, under, Nat.div_mul_le_self k step, ?_, below⟩
      have := Nat.lt_div_mul_add stepPositive (a := k)
      omega
    · have reached : n * step ≤ k := by
        calc n * step ≤ k / step * step := Nat.mul_le_mul_right step beyond
          _ ≤ k := Nat.div_mul_le_self k step
      have previous : (n - 1) * step + step = n * step := by
        rw [← Nat.succ_mul, Nat.succ_eq_add_one, Nat.sub_add_cancel positive]
      exact ⟨n - 1, by omega, by omega, by omega, below⟩

/-! ## What a worker is assigned -/

theorem keyValue_natCast {i step j : Nat} (fits : i * step + j ≤ INT_MAX) :
    keyValue i step j = .ok ((i * step + j : Nat) : Int) := by
  have base : checked ((i : Int) * step) = .ok ((i * step : Nat) : Int) := by
    rw [← Int.natCast_mul]
    exact checked_natCast (by omega)
  rw [keyValue, base]
  show checked (((i * step : Nat) : Int) + (j : Int)) = _
  rw [← Int.natCast_add]
  exact checked_natCast fits

/-- The comparison of a key with the end of the range, in `uint32_t`. -/
theorem ofNat_le_iff {key : Nat} (fits : key ≤ INT_MAX) {rangeEnd : Word} :
    BitVec.ofNat 32 key ≤ rangeEnd ↔ key ≤ rangeEnd.toNat := by
  rw [INT_MAX] at fits
  rw [BitVec.le_def, BitVec.toNat_ofNat, Nat.mod_eq_of_lt (by omega)]

section Sequence

variable {i step j : Nat} (rangeEnd : Word) (encrypted : List Byte)

theorem DecryptorSequence.hasNext_natCast (fits : i * step + j ≤ INT_MAX) :
    DecryptorSequence.hasNext ⟨i, j, step, rangeEnd.toInt, encrypted⟩ =
      .ok (decide (i * step + j ≤ rangeEnd.toNat) && decide (j ≤ step)) := by
  simp only [hasNext, keyValue_natCast fits, BitVec.ofInt_natCast, BitVec.ofInt_toInt,
    ofNat_le_iff fits, Int.ofNat_le, bind, Except.bind, pure, Except.pure]

theorem DecryptorSequence.next_natCast (fits : i * step + j ≤ INT_MAX) (room : j + 1 ≤ INT_MAX) :
    DecryptorSequence.next ⟨i, j, step, rangeEnd.toInt, encrypted⟩ =
      .ok ((BitVec.ofNat 32 (i * step + j), encrypted),
        ⟨i, (j + 1 : Nat), step, rangeEnd.toInt, encrypted⟩) := by
  rw [next_eq ⟨i, j, step, rangeEnd.toInt, encrypted⟩ (keyValue_natCast fits)
    (checked_succ room), BitVec.ofInt_natCast]

end Sequence

/-- The arguments made of a list of keys. -/
def argsOf (encrypted : List Byte) (keys : List Nat) : List ArgType :=
  keys.map fun key => (BitVec.ofNat 32 key, encrypted)

/-- The arguments of a list of keys are taken apart again. -/
theorem argsOf_fst (encrypted : List Byte) (keys : List Nat) :
    (argsOf encrypted keys).map Prod.fst = keys.map (BitVec.ofNat 32) := by
  rw [argsOf, List.map_map]
  rfl

section Worker

variable {i step : Nat} (rangeEnd : Word) (encrypted : List Byte)
  (fits : i * step + min (step + 1) (rangeEnd.toNat + 1 - i * step) ≤ INT_MAX)

include fits

theorem addCallables_eq (j : Nat) (started : j ≤ min (step + 1) (rangeEnd.toNat + 1 - i * step)) :
    addCallables i step rangeEnd encrypted j =
      .ok (argsOf encrypted (stretch (i * step) step rangeEnd.toNat j)) := by
  -- On the number of values of `j` up to `step`.
  induction left : step + 1 - j generalizing j with
  | zero =>
      rw [addCallables, if_neg (by omega), stretch_nil (by omega)]
      rfl
  | succ left ih =>
      have within : j ≤ step := by omega
      have compared : BitVec.ofNat 32 (i * step + j) ≤ rangeEnd ↔ i * step + j ≤ rangeEnd.toNat :=
        ofNat_le_iff (by omega)
      rw [addCallables, if_pos (Int.ofNat_le.mpr within), keyValue_natCast (by omega)]
      simp only [BitVec.ofInt_natCast]
      rcases Nat.lt_or_ge rangeEnd.toNat (i * step + j) with beyond | below
      · rw [stretch_nil (Or.inr beyond), if_pos]
        · rfl
        · exact BitVec.not_le.mp fun le => absurd (compared.mp le) (Nat.not_le.mpr beyond)
      · have counted : checked ((j : Int) + 1) = .ok ((j + 1 : Nat) : Int) :=
          checked_succ (by omega)
        have rest := ih (j + 1) (by omega) (by omega)
        rw [Int.natCast_add, Int.natCast_one] at rest
        rw [stretch_cons within below, if_neg (BitVec.not_lt.mpr (compared.mpr below))]
        simp only [counted, rest]
        rfl

theorem drain_eq (j : Nat) (started : j ≤ min (step + 1) (rangeEnd.toNat + 1 - i * step)) :
    DecryptorSequence.drain ⟨i, j, step, rangeEnd.toInt, encrypted⟩ =
      .ok (argsOf encrypted (stretch (i * step) step rangeEnd.toNat j)) := by
  induction left : step + 1 - j generalizing j with
  | zero =>
      rw [DecryptorSequence.drain_of_done, stretch_nil (by omega)]
      · rfl
      · rw [DecryptorSequence.hasNext_natCast rangeEnd encrypted (by omega),
          decide_eq_false (by omega : ¬ j ≤ step), Bool.and_false]
  | succ left ih =>
      have within : j ≤ step := by omega
      have asked := DecryptorSequence.hasNext_natCast rangeEnd encrypted
        (by omega : i * step + j ≤ INT_MAX)
      rw [decide_eq_true within, Bool.and_true] at asked
      rcases Nat.lt_or_ge rangeEnd.toNat (i * step + j) with beyond | below
      · rw [decide_eq_false (Nat.not_le.mpr beyond)] at asked
        rw [DecryptorSequence.drain_of_done asked, stretch_nil (Or.inr beyond)]
        rfl
      · rw [decide_eq_true below] at asked
        rw [DecryptorSequence.drain_of_next asked
          (DecryptorSequence.next_natCast rangeEnd encrypted (by omega) (by omega))
          (ih (j + 1) (by omega) (by omega)), stretch_cons within below]
        rfl

end Worker

/-! ## The step -/

/-- The quotient of the size of the range by the number of workers, rounded up. -/
def roundedStep (size n : Nat) : Nat := size / n + if size % n = 0 then 0 else 1

theorem le_mul_roundedStep (size : Nat) {n : Nat} (positive : 0 < n) :
    size ≤ n * roundedStep size n := by
  have split := Nat.div_add_mod size n
  have remainder := Nat.mod_lt size positive
  rw [roundedStep, Nat.mul_add]
  split <;> omega

theorem mul_roundedStep_lt (size : Nat) {n : Nat} (positive : 0 < n) :
    n * roundedStep size n < size + n := by
  have split := Nat.div_add_mod size n
  rw [roundedStep, Nat.mul_add]
  split <;> omega

/-- The step of a range, as a natural number. -/
def stepOf (rangeBegin rangeEnd : Word) (numThreads : BitVec 16) : Nat :=
  roundedStep (rangeEnd.toNat - rangeBegin.toNat) numThreads.toNat

/-- The keys of all workers, in order. -/
def keysOf (rangeBegin rangeEnd : Word) (numThreads : BitVec 16) : List (List Word) :=
  let step := stepOf rangeBegin rangeEnd numThreads
  (List.range numThreads.toNat).map fun i =>
    (stretch (i * step) step rangeEnd.toNat 0).map (BitVec.ofNat 32)

/-! ## The two preparations -/

theorem roundedStep_le (size : Nat) {n : Nat} (positive : 0 < n) : roundedStep size n ≤ size := by
  have total := mul_roundedStep_lt size positive
  have least : roundedStep size n ≤ n * roundedStep size n := Nat.le_mul_of_pos_left _ positive
  rcases Nat.lt_or_ge size (roundedStep size n) with above | within
  · -- A step above the size would be at least one, and so would a step of one less.
    have previous : (n - 1) * 1 ≤ (n - 1) * roundedStep size n := Nat.mul_le_mul_left _ (by omega)
    have split : n * roundedStep size n = (n - 1) * roundedStep size n + roundedStep size n := by
      rw [← Nat.succ_mul, Nat.succ_eq_add_one, Nat.sub_add_cancel positive]
    omega
  · exact within

section Preparations

variable {rangeBegin rangeEnd : Word} {numThreads : BitVec 16}
  (ordered : rangeBegin ≤ rangeEnd) (threads : 1 ≤ numThreads.toNat)
  (small : rangeEnd.toNat - rangeBegin.toNat ≤ INT_MAX)

include ordered threads small

theorem computeStep_eq :
    computeStep rangeBegin rangeEnd numThreads =
      .ok ((stepOf rangeBegin rangeEnd numThreads : Nat) : Int) := by
  have size : (rangeEnd - rangeBegin).toNat = rangeEnd.toNat - rangeBegin.toNat :=
    BitVec.toNat_sub_of_le ordered
  have fits : (rangeEnd - rangeBegin).toNat ≤ INT_MAX := size.trans_le small
  have rounded : ∀ a n : Nat, ((a / n : Nat) : Int) + (if ((a % n : Nat) : Int) = 0 then 0 else 1) =
      (roundedStep a n : Nat) := by
    intro a n
    rw [roundedStep]
    split <;> split <;> omega
  have bound : stepOf rangeBegin rangeEnd numThreads ≤ INT_MAX :=
    (roundedStep_le _ threads).trans small
  rw [computeStep, toInt_eq_toNat fits, div_natCast threads fits, size]
  show checked (_ + if _ = 0 then 0 else 1) = _
  rw [rounded, ← stepOf]
  exact checked_natCast bound

theorem prepareMappedFunctions_eq (expected encrypted : List Byte) :
    prepareMappedFunctions rangeBegin rangeEnd numThreads expected encrypted =
      .ok ⟨expected, (List.range numThreads.toNat).map fun i : Nat =>
        DecryptorSequence.make i (stepOf rangeBegin rangeEnd numThreads : Nat) rangeEnd
          encrypted⟩ := by
  rw [prepareMappedFunctions, computeStep_eq ordered threads small]
  rfl

/-- The eager preparation, if the keys of all workers fit. -/
theorem prepareFunctions_eq (expected encrypted : List Byte)
    (keysFit : ∀ i < numThreads.toNat, i * stepOf rangeBegin rangeEnd numThreads +
      min (stepOf rangeBegin rangeEnd numThreads + 1)
        (rangeEnd.toNat + 1 - i * stepOf rangeBegin rangeEnd numThreads) ≤ INT_MAX) :
    prepareFunctions rangeBegin rangeEnd numThreads expected encrypted =
      .ok ⟨expected, (List.range numThreads.toNat).map fun i : Nat =>
        argsOf encrypted (stretch (i * stepOf rangeBegin rangeEnd numThreads)
          (stepOf rangeBegin rangeEnd numThreads) rangeEnd.toNat 0)⟩ := by
  have workers : (List.range numThreads.toNat).mapM (fun i : Nat =>
      addCallables i (stepOf rangeBegin rangeEnd numThreads : Nat) rangeEnd encrypted 0) = _ :=
    mapM_ok fun i member => addCallables_eq rangeEnd encrypted
      (keysFit i (List.mem_range.mp member)) 0 (Nat.zero_le _)
  simp only [prepareFunctions, computeStep_eq ordered threads small, bind, Except.bind, pure,
    Except.pure, workers]

end Preparations

section Workers

variable {rangeBegin rangeEnd : Word} {numThreads : BitVec 16}
  (ordered : rangeBegin ≤ rangeEnd) (threads : 1 ≤ numThreads.toNat)
  (fits : rangeEnd.toNat + numThreads.toNat ≤ INT_MAX)

variable (rangeBegin) in
include fits in
theorem size_fits : rangeEnd.toNat - rangeBegin.toNat ≤ INT_MAX := by omega

variable (rangeBegin) in
include threads fits in
/-- Every key expression of every worker fits, the one after the last key included. -/
theorem worker_fits {i : Nat} (under : i < numThreads.toNat) :
    i * stepOf rangeBegin rangeEnd numThreads + stepOf rangeBegin rangeEnd numThreads + 1 ≤
      INT_MAX := by
  have bound : (i + 1) * stepOf rangeBegin rangeEnd numThreads ≤
      numThreads.toNat * stepOf rangeBegin rangeEnd numThreads := Nat.mul_le_mul_right _ under
  have total := mul_roundedStep_lt (rangeEnd.toNat - rangeBegin.toNat) threads
  rw [← stepOf] at total
  rw [Nat.succ_mul] at bound
  omega

variable (rangeBegin) in
include threads fits in
theorem worker_keys_fit {i : Nat} (under : i < numThreads.toNat) :
    i * stepOf rangeBegin rangeEnd numThreads + min (stepOf rangeBegin rangeEnd numThreads + 1)
      (rangeEnd.toNat + 1 - i * stepOf rangeBegin rangeEnd numThreads) ≤ INT_MAX := by
  have room := worker_fits rangeBegin threads fits under
  omega

include ordered threads fits

theorem eagerKeys_eq (expected encrypted : List Byte) :
    eagerKeys rangeBegin rangeEnd numThreads expected encrypted =
      .ok (keysOf rangeBegin rangeEnd numThreads) := by
  have prepared := prepareFunctions_eq ordered threads (size_fits rangeBegin fits) expected
    encrypted fun i under => worker_keys_fit rangeBegin threads fits under
  simp only [eagerKeys, prepared, bind, Except.bind, pure, Except.pure, List.map_map]
  simp only [Function.comp_def, argsOf_fst, keysOf]

theorem mappedKeys_eq (expected encrypted : List Byte) :
    mappedKeys rangeBegin rangeEnd numThreads expected encrypted =
      .ok (keysOf rangeBegin rangeEnd numThreads) := by
  have drained : ∀ i ∈ List.range numThreads.toNat,
      (DecryptorSequence.make i (stepOf rangeBegin rangeEnd numThreads : Nat) rangeEnd
        encrypted).drain = _ :=
    fun i member => drain_eq rangeEnd encrypted
      (worker_keys_fit rangeBegin threads fits (List.mem_range.mp member)) 0 (Nat.zero_le _)
  simp only [mappedKeys,
    prepareMappedFunctions_eq ordered threads (size_fits rangeBegin fits), bind, Except.bind, pure,
    Except.pure, List.mapM_map]
  refine mapM_ok fun i member => ?_
  rw [Function.comp_apply, drained i member]
  exact congrArg Except.ok (argsOf_fst encrypted _)

end Workers

section Union

variable {rangeBegin rangeEnd : Word} {numThreads : BitVec 16} (threads : 1 ≤ numThreads.toNat)

include threads

/-- **The keys assigned** are those up to the end of the last stretch that do not
exceed the end of the range. -/
theorem mem_keysOf_iff (k : Word) :
    (∃ worker ∈ keysOf rangeBegin rangeEnd numThreads, k ∈ worker) ↔
      k.toNat ≤ numThreads.toNat * stepOf rangeBegin rangeEnd numThreads ∧ k ≤ rangeEnd := by
  have covered :=
    exists_stretch_iff threads (stepOf rangeBegin rangeEnd numThreads) rangeEnd.toNat
  simp only [keysOf, List.mem_map, List.mem_range, exists_exists_and_eq_and]
  rw [BitVec.le_def, ← covered]
  constructor
  · rintro ⟨i, under, key, member, rfl⟩
    have below := (mem_stretch.mp member).2.2
    have same : (BitVec.ofNat 32 key).toNat = key := by
      rw [BitVec.toNat_ofNat]
      exact Nat.mod_eq_of_lt (by have := rangeEnd.isLt; omega)
    exact ⟨i, under, same.symm ▸ member⟩
  · rintro ⟨i, under, member⟩
    exact ⟨i, under, k.toNat, member, BitVec.eq_of_toNat_eq (by simp)⟩

/-- The keys assigned are those of the range exactly when it begins with `0`:
worker `0` tries the key `0` in any case. -/
theorem mem_keysOf_iff_mem_range :
    (∀ k : Word, (∃ worker ∈ keysOf rangeBegin rangeEnd numThreads, k ∈ worker) ↔
      rangeBegin ≤ k ∧ k ≤ rangeEnd) ↔ rangeBegin = 0 := by
  simp only [mem_keysOf_iff threads]
  constructor
  · intro covers
    have zero : (0 : Word).toNat ≤ numThreads.toNat * stepOf rangeBegin rangeEnd numThreads :=
      Nat.zero_le _
    have first := ((covers 0).mp ⟨zero, Nat.zero_le _⟩).1
    exact BitVec.eq_of_toNat_eq (Nat.le_zero.mp first)
  · rintro rfl k
    have enough := le_mul_roundedStep rangeEnd.toNat threads
    constructor
    · rintro ⟨-, below⟩
      exact ⟨Nat.zero_le _, below⟩
    · rintro ⟨-, below⟩
      exact ⟨(BitVec.le_def.mp below).trans enough, below⟩

end Union

/-! ## Coverage -/

/-- **The key range is covered exactly when it begins with `0`**, by either
preparation, for every range and number of workers that fit in `int`. -/
theorem coverage_iff (rangeBegin rangeEnd : Word) (numThreads : BitVec 16)
    (expected encrypted : List Byte) (ordered : rangeBegin ≤ rangeEnd)
    (threads : 1 ≤ numThreads.toNat) (fits : rangeEnd.toNat + numThreads.toNat ≤ INT_MAX) :
    ∃ mapped eager, mappedKeys rangeBegin rangeEnd numThreads expected encrypted = .ok mapped ∧
      eagerKeys rangeBegin rangeEnd numThreads expected encrypted = .ok eager ∧
      ((∀ k, (∃ worker ∈ mapped, k ∈ worker) ↔ rangeBegin ≤ k ∧ k ≤ rangeEnd) ↔
        rangeBegin = 0) ∧
      ((∀ k, (∃ worker ∈ eager, k ∈ worker) ↔ rangeBegin ≤ k ∧ k ≤ rangeEnd) ↔
        rangeBegin = 0) :=
  ⟨_, _, mappedKeys_eq ordered threads fits expected encrypted,
    eagerKeys_eq ordered threads fits expected encrypted, mem_keysOf_iff_mem_range threads,
    mem_keysOf_iff_mem_range threads⟩

/-- The range and the number of workers of `main`. -/
theorem coverage_iff_main :
    ∃ mapped eager, mappedKeys 0 10000000 5 [0x41] [] = .ok mapped ∧
      eagerKeys 0 10000000 5 [0x41] [] = .ok eager ∧
      ((∀ k, (∃ worker ∈ mapped, k ∈ worker) ↔ 0 ≤ k ∧ k ≤ 10000000) ↔ (0 : Word) = 0) ∧
      ((∀ k, (∃ worker ∈ eager, k ∈ worker) ↔ 0 ≤ k ∧ k ≤ 10000000) ↔ (0 : Word) = 0) :=
  coverage_iff 0 10000000 5 [0x41] [] (by decide) (by decide) (by decide)

/-- **A range that does not begin with `0`** is not covered: two workers on the
keys `5` to `9` try the key `0` and never the key `9`. -/
theorem coverage_fails :
    ∃ mapped eager, mappedKeys 5 9 2 [] [] = .ok mapped ∧ eagerKeys 5 9 2 [] [] = .ok eager ∧
      ((∃ worker ∈ mapped, (0 : Word) ∈ worker) ∧ ¬ ∃ worker ∈ mapped, (9 : Word) ∈ worker) ∧
      (∃ worker ∈ eager, (0 : Word) ∈ worker) ∧ ¬ ∃ worker ∈ eager, (9 : Word) ∈ worker :=
  ⟨_, _, mappedKeys_eq (by decide) (by decide) (by decide) [] [],
    eagerKeys_eq (by decide) (by decide) (by decide) [] [], by decide, by decide⟩

end ParallelLabs.Decryptor
