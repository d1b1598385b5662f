import ParallelLabs.Decryptor.Coverage

/-!
# The eager and the lazy enumeration

`prepare_functions` runs a loop over the keys of a worker; `DecryptorSequence`
hands them out one at a time. The loop stops at the first key beyond the end of
the range, and the generator asks the same question before each key. The loop
compares with an end of the range of type `uint32_t`. The generator stores it as an
`int` and compares after a conversion back, which gives the same bits.

So both list the same arguments, whatever the step is (`addCallables_of_drain`): it
may be negative, as it is for ranges wider than `INT_MAX`, and the end of the range
may be beyond `INT_MAX`. Only the expressions have to stay within `int`. Those of
the generator are one more than those of the loop, so if they do, both do
(`enumerations_agree`).
-/

set_option autoImplicit false

namespace ParallelLabs.Decryptor

open Library Twofish

/-! ## The two enumerations -/

/-- A generator that was drained had no next arguments, or it yielded them and
what is left was drained. -/
theorem DecryptorSequence.drain_cases {seq : DecryptorSequence} {all : List ArgType}
    (drained : seq.drain = .ok all) :
    seq.hasNext = .ok false ∧ all = [] ∨
      ∃ args rest tail, seq.hasNext = .ok true ∧ seq.next = .ok (args, rest) ∧
        rest.drain = .ok tail ∧ all = args :: tail := by
  rw [drain] at drained
  split at drained
  · cases drained
  · next done => exact .inl ⟨done, (Except.ok.inj drained).symm⟩
  · next more =>
      split at drained
      · cases drained
      · next args rest advance =>
          split at drained
          · cases drained
          · next tail left =>
              exact .inr ⟨args, rest, tail, more, advance, left, (Except.ok.inj drained).symm⟩

/-- **The loop lists what the generator yields**, from any key on. -/
theorem addCallables_of_drain {i step j : Int} {rangeEnd : Word} {encrypted : List Byte}
    {all : List ArgType}
    (drained : DecryptorSequence.drain ⟨i, j, step, rangeEnd.toInt, encrypted⟩ = .ok all) :
    addCallables i step rangeEnd encrypted j = .ok all := by
  -- On the number of values of `j` up to `step`.
  induction left : (step + 1 - j).toNat generalizing j all with
  | zero =>
      rcases DecryptorSequence.drain_cases drained with ⟨_, rfl⟩ | ⟨_, _, _, more, _, _, _⟩
      · rw [addCallables, if_neg (by omega)]
      · have within : j ≤ step := DecryptorSequence.le_step_of_hasNext more
        omega
  | succ left ih =>
      have within : j ≤ step := by omega
      rcases DecryptorSequence.drain_cases drained with
        ⟨done, rfl⟩ | ⟨args, rest, tail, more, advance, drained', rfl⟩
      · obtain ⟨value, key, asked⟩ := DecryptorSequence.hasNext_cases done
        rw [BitVec.ofInt_toInt, decide_eq_true within, Bool.and_true] at asked
        have beyond : BitVec.ofInt 32 value > rangeEnd :=
          BitVec.not_le.mp (of_decide_eq_false asked.symm)
        rw [addCallables, if_pos within, key]
        exact if_pos beyond
      · obtain ⟨value, key, asked⟩ := DecryptorSequence.hasNext_cases more
        obtain ⟨value', key', counted, rfl, rfl⟩ := DecryptorSequence.next_cases advance
        obtain rfl := Except.ok.inj (key.symm.trans key')
        rw [BitVec.ofInt_toInt, decide_eq_true within, Bool.and_true] at asked
        have below : ¬ BitVec.ofInt 32 value > rangeEnd :=
          BitVec.not_lt.mpr (of_decide_eq_true asked.symm)
        have listed := ih (j := j + 1) drained' (by omega)
        rw [addCallables, if_pos within, key]
        simp only [if_neg below, counted, listed]

/-- **The eager and the lazy preparation enumerate the same arguments**, worker by
worker and in order, for every range, every number of workers and every ciphertext
for which the expressions stay within `int`. -/
theorem enumerations_agree (rangeBegin rangeEnd : Word) (numThreads : BitVec 16)
    (expected encrypted : List Byte) {mapped : Prepared DecryptorSequence}
    {lists : List (List ArgType)}
    (prepared : prepareMappedFunctions rangeBegin rangeEnd numThreads expected encrypted =
      .ok mapped)
    (drained : mapped.workers.mapM DecryptorSequence.drain = .ok lists) :
    ∃ eager, prepareFunctions rangeBegin rangeEnd numThreads expected encrypted = .ok eager ∧
      eager.expected = mapped.expected ∧ eager.workers = lists ∧
      lists.length = numThreads.toNat := by
  rw [prepareMappedFunctions] at prepared
  obtain ⟨step, computed, made⟩ := bind_eq_ok.mp prepared
  obtain rfl := Except.ok.inj made
  obtain ⟨listed, length⟩ := mapM_of_mapM
    (f := fun i : Nat => addCallables i step rangeEnd encrypted 0)
    (fun i _ all yielded => addCallables_of_drain yielded) drained
  refine ⟨⟨expected, lists⟩, ?_, rfl, rfl, length.trans List.length_range⟩
  rw [prepareFunctions]
  exact bind_eq_ok.mpr ⟨step, computed, bind_eq_ok.mpr ⟨lists, listed, rfl⟩⟩

/-- Two workers on the keys up to `3`, which share the key `2`. -/
theorem enumerations_agree_shared :
    ∃ eager, prepareFunctions 0 3 2 [] [5] = .ok eager ∧ eager.expected = [] ∧
      eager.workers = [[(0, [5]), (1, [5]), (2, [5])], [(2, [5]), (3, [5])]] ∧
      [[((0 : Word), [(5 : Byte)]), (1, [5]), (2, [5])], [(2, [5]), (3, [5])]].length = 2 := by
  have prepared : prepareMappedFunctions 0 3 2 [] [5] =
      .ok ⟨[], [.make 0 2 3 [5], .make 1 2 3 [5]]⟩ := rfl
  have first : (DecryptorSequence.make 0 2 3 [5]).drain =
      .ok [(0, [5]), (1, [5]), (2, [5])] :=
    DecryptorSequence.drain_of_next rfl rfl (DecryptorSequence.drain_of_next rfl rfl
      (DecryptorSequence.drain_of_next rfl rfl (DecryptorSequence.drain_of_done rfl)))
  have second : (DecryptorSequence.make 1 2 3 [5]).drain = .ok [(2, [5]), (3, [5])] :=
    DecryptorSequence.drain_of_next rfl rfl (DecryptorSequence.drain_of_next rfl rfl
      (DecryptorSequence.drain_of_done rfl))
  refine enumerations_agree 0 3 2 [] [5] prepared ?_
  rw [List.mapM_cons, first, List.mapM_cons, second]
  rfl

/-- A range wider than `INT_MAX`: its size is converted to `-1`, and the only worker
has no keys. -/
example : prepareMappedFunctions 0 0xFFFFFFFF 1 [] [] =
    .ok ⟨[], [.make 0 (-1) 0xFFFFFFFF []]⟩ := rfl

end ParallelLabs.Decryptor
