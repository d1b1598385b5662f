import ParallelLabs.Library.CheckedLoop
import Mathlib.Data.List.Nodup

/-!
# `MPIParallelRunner.h`: the work of the ranks

Every rank executes the same `run`. The outer loop looks for the own rank, and the
inner loop starts at its number and advances by the number of ranks. So rank `r`
runs the callables whose index leaves the remainder `r`, in order (`Share`), each on
the memory that the one before it left, and prints the lines of those that have a
result (`RanAll`). The shares are disjoint for different ranks, together they are all,
and no rank has two more than another (`distribution`).
-/

set_option autoImplicit false

namespace ParallelLabs.Mpi

open Library

/-- What `run` uses of a callable. The same callable may be added more than once, so
its state is part of the memory of the rank. -/
structure Executable (Memory : Type) where
  run : Memory → Memory
  hasResult : Memory → Bool
  toString : Memory → String

/-- A rank: its memory, the indices of the entries that it ran, and the results that
it printed, each with the number of the thread. -/
structure Local (Memory : Type) where
  memory : Memory
  ran : List Nat
  printed : List (String × BitVec 16)

def Local.start {Memory : Type} (memory : Memory) : Local Memory := ⟨memory, [], []⟩

section Loops

variable {Memory : Type} (size : Nat) (positive : 0 < size) (rank : Nat)
  (processes : List (Executable Memory))

/-- The body of the inner loop, with the rank as the `inner_uid` of the entry. -/
def runEntry (counter : Nat) (s : Local Memory) : Except Fault (Local Memory) := do
  let runner ← readAt processes counter
  let memory := runner.run s.memory
  let line := (runner.toString memory, BitVec.ofNat 16 rank)
  pure ⟨memory, s.ran ++ [counter],
    if runner.hasResult memory then s.printed ++ [line] else s.printed⟩

/-- The inner loop. -/
def runOwn (s : Local Memory) : Except Fault (Local Memory) :=
  forInt processes.length size positive (runEntry rank processes) rank s

/-- `run`. -/
def run (s : Local Memory) : Except Fault (Local Memory) :=
  forInt size 1 Nat.one_pos
    (fun i s => if rank = i then runOwn size positive rank processes s else .ok s) 0 s

end Loops

/-! ## What a rank has run -/

section Ran

variable {Memory : Type} {rank : Nat} {processes : List (Executable Memory)} {memory : Memory}

/-- The memory after callables have been run one after the other. -/
def memoryAfter (runners : List (Executable Memory)) (memory : Memory) : Memory :=
  runners.foldl (fun memory runner => runner.run memory) memory

/-- The lines of the callables that have a result after they have been run. -/
def linesOf (rank : Nat) : List (Executable Memory) → Memory → List (String × BitVec 16)
  | [], _ => []
  | runner :: runners, memory =>
      let after := runner.run memory
      let lines := linesOf rank runners after
      if runner.hasResult after then (runner.toString after, BitVec.ofNat 16 rank) :: lines
      else lines

theorem memoryAfter_concat (runners : List (Executable Memory)) (runner : Executable Memory) :
    memoryAfter (runners ++ [runner]) memory = runner.run (memoryAfter runners memory) := by
  rw [memoryAfter, List.foldl_concat, memoryAfter]

theorem linesOf_append (runners runners' : List (Executable Memory)) (memory : Memory) :
    linesOf rank (runners ++ runners') memory =
      linesOf rank runners memory ++ linesOf rank runners' (memoryAfter runners memory) := by
  induction runners generalizing memory with
  | nil => rfl
  | cons runner runners ih =>
      rw [List.cons_append, linesOf, linesOf, ih (runner.run memory)]
      split
      · rfl
      · rfl

/-- **A rank has run the callables** of the entries `ran`, in this order. -/
structure RanAll (rank : Nat) (processes : List (Executable Memory)) (memory : Memory)
    (runners : List (Executable Memory)) (s : Local Memory) : Prop where
  entries : s.ran.map (processes[·]?) = runners.map some
  after : s.memory = memoryAfter runners memory
  printed : s.printed = linesOf rank runners memory

theorem ranAll_start : RanAll rank processes memory [] (.start memory) := ⟨rfl, rfl, rfl⟩

/-- **The body of the inner loop runs one more callable.** -/
theorem RanAll.runEntry {runners : List (Executable Memory)} {s : Local Memory}
    (all : RanAll rank processes memory runners s) {counter : Nat}
    (under : counter < processes.length) :
    ∃ next, runEntry rank processes counter s = .ok next ∧ next.ran = s.ran ++ [counter] ∧
      RanAll rank processes memory (runners ++ [processes[counter]]) next := by
  obtain ⟨entries, left, printed⟩ := all
  refine ⟨_, by rw [Mpi.runEntry, readAt_of_lt under]; rfl, rfl, ?_, ?_, ?_⟩
  · rw [List.map_append, List.map_append, entries, List.map_singleton, List.map_singleton,
      List.getElem?_eq_getElem under]
  · rw [memoryAfter_concat, ← left]
  · rw [linesOf_append, ← printed, ← left, linesOf]
    dsimp only
    split
    · rfl
    · exact (List.append_nil _).symm

end Ran

/-! ## The share of a rank -/

/-- The indices that a rank runs of `n` entries. -/
structure Share (size n rank : Nat) (ran : List Nat) : Prop where
  strided : ran = List.range' rank ran.length size
  below : ∀ k ∈ ran, k < n
  all : n ≤ rank + size * ran.length

namespace Share

variable {size n rank : Nat} {ran : List Nat} (share : Share size n rank ran) (own : rank < size)

include share

include own in
theorem mem_iff {k : Nat} : k ∈ ran ↔ k < n ∧ k % size = rank := by
  constructor
  · intro member
    refine ⟨share.below k member, ?_⟩
    rw [share.strided, List.mem_range'] at member
    obtain ⟨t, _, rfl⟩ := member
    rw [Nat.add_mul_mod_self_left, Nat.mod_eq_of_lt own]
  · rintro ⟨below, rfl⟩
    have split := Nat.mod_add_div k size
    have before : size * (k / size) < size * ran.length := by
      have all := share.all
      omega
    rw [share.strided, List.mem_range']
    exact ⟨k / size, Nat.lt_of_mul_lt_mul_left before, split.symm⟩

include own in
theorem nodup : ran.Nodup := by
  rw [share.strided]
  exact List.nodup_range' size (Nat.zero_lt_of_lt own)

/-- No rank has two entries more than another one. -/
theorem length_le {rank' : Nat} {ran' : List Nat} (share' : Share size n rank' ran')
    (own' : rank' < size) : ran.length ≤ ran'.length + 1 := by
  by_contra more
  -- The last entry of the one comes after all entries of the other.
  have inside : ran'.length + 1 < ran.length := Nat.lt_of_not_le more
  have last := share.below (rank + size * (ran'.length + 1)) (by
    rw [share.strided, List.mem_range']
    exact ⟨_, inside, rfl⟩)
  have all := share'.all
  rw [Nat.mul_succ] at last
  omega

end Share

/-! ## The loops of a rank -/

section Loops

variable {Memory : Type} {size : Nat} (positive : 0 < size) {rank : Nat} (own : rank < size)
  (processes : List (Executable Memory)) (fits : processes.length + size ≤ INT_MAX)

include fits

theorem runOwn_share (memory : Memory) :
    ∃ final runners, runOwn size positive rank processes (.start memory) = .ok final ∧
      Share size processes.length rank final.ran ∧
        RanAll rank processes memory runners final := by
  obtain ⟨final, counter, returned, ended, ⟨rfl, strided, below⟩, runners, all⟩ :=
    forInt_invariant processes.length positive (runEntry rank processes)
      (fun counter s => (counter = rank + size * s.ran.length ∧
        s.ran = List.range' rank s.ran.length size ∧ ∀ k ∈ s.ran, k < processes.length) ∧
          ∃ runners, RanAll rank processes memory runners s)
      (by
        rintro counter under s ⟨⟨rfl, strided, below⟩, runners, all⟩
        obtain ⟨next, made, ran, all'⟩ := all.runEntry under
        refine ⟨by omega, next, made, ⟨?_, ?_, ?_⟩, _, all'⟩
        · rw [ran, List.length_append, List.length_singleton, Nat.mul_succ, Nat.add_assoc]
        · rw [ran, List.length_append, List.length_singleton, List.range'_concat, ← strided]
        · intro k member
          rw [ran] at member
          rcases List.mem_append.mp member with earlier | last
          · exact below k earlier
          · rw [List.mem_singleton.mp last]
            exact under)
      (i := rank) (s := .start memory)
      ⟨⟨by rw [Local.start, List.length_nil, Nat.mul_zero, Nat.add_zero], rfl, fun k member => by
        cases member⟩, [], ranAll_start⟩
  exact ⟨final, runners, returned, ⟨strided, below, ended⟩, all⟩

include own in
theorem run_share (memory : Memory) :
    ∃ final runners, run size positive rank processes (.start memory) = .ok final ∧
      Share size processes.length rank final.ran ∧
        RanAll rank processes memory runners final := by
  obtain ⟨done, runners, ranOwn, share⟩ := runOwn_share positive processes fits memory
  obtain ⟨final, i, returned, ended, before, after⟩ := forInt_invariant size Nat.one_pos
    (fun i s => if rank = i then runOwn size positive rank processes s else .ok s)
    (fun i s => (i ≤ rank → s = .start memory) ∧ (rank < i → s = done))
    (by
      rintro i under s ⟨before, after⟩
      refine ⟨by omega, ?_⟩
      rcases Nat.lt_trichotomy rank i with passed | rfl | ahead
      · exact ⟨s, if_neg (Nat.ne_of_lt passed), by omega, fun _ => after passed⟩
      · refine ⟨done, ?_, by omega, fun _ => rfl⟩
        rw [if_pos rfl, before (Nat.le_refl _), ranOwn]
      · exact ⟨s, if_neg (Nat.ne_of_gt ahead), fun _ => before (Nat.le_of_lt ahead), by omega⟩)
    (i := 0) (s := .start memory) ⟨fun _ => rfl, fun passed => absurd passed (Nat.not_lt_zero _)⟩
  obtain rfl := after (Nat.lt_of_lt_of_le own ended)
  exact ⟨final, runners, returned, share⟩

end Loops

/-- **The work is distributed.** When every rank has executed `run`, each of the `n`
callables was run on exactly one rank and exactly once, and no other index was. A rank has
run its callables one after the other and printed the lines of those that have a result.
The numbers of callables of two ranks differ by one at most. -/
theorem distribution {Memory : Type} (size n : Nat) (positive : 0 < size)
    (processes : Nat → List (Executable Memory)) (memory : Nat → Memory)
    (added : ∀ r < size, (processes r).length = n) (fits : n + size ≤ INT_MAX) :
    ∃ final : Nat → Local Memory,
      (∀ r < size, run size positive r (processes r) (.start (memory r)) = .ok (final r)) ∧
      (∀ r < size, ∃ runners, RanAll r (processes r) (memory r) runners (final r)) ∧
      (∀ k < n, ∃ r < size, (final r).ran.count k = 1 ∧
        ∀ r' < size, r' ≠ r → k ∉ (final r').ran) ∧
      (∀ r < size, ∀ k ∈ (final r).ran, k < n) ∧
      ∀ r < size, ∀ r' < size, (final r).ran.length ≤ (final r').ran.length + 1 := by
  have each : ∀ r, ∃ final : Local Memory, r < size →
      run size positive r (processes r) (.start (memory r)) = .ok final ∧
        Share size n r final.ran ∧ ∃ runners, RanAll r (processes r) (memory r) runners final := by
    intro r
    by_cases own : r < size
    · obtain ⟨final, runners, returned, share, all⟩ := run_share positive own (processes r)
        ((added r own).symm ▸ fits) (memory r)
      exact ⟨final, fun _ => ⟨returned, added r own ▸ share, runners, all⟩⟩
    · exact ⟨.start (memory r), fun own' => absurd own' own⟩
  choose final ran using each
  refine ⟨final, fun r own => (ran r own).1, fun r own => (ran r own).2.2, fun k below => ?_,
    fun r own => (ran r own).2.1.below, fun r own r' own' =>
      (ran r own).2.1.length_le (ran r' own').2.1 own'⟩
  have own : k % size < size := Nat.mod_lt k positive
  have share := (ran _ own).2.1
  refine ⟨k % size, own, ?_, fun r' own' other member => ?_⟩
  · exact List.count_eq_one_of_mem (share.nodup own) ((share.mem_iff own).mpr ⟨below, rfl⟩)
  · exact other (((ran r' own').2.1.mem_iff own').mp member).2.symm

/-- Five callables on three ranks. -/
theorem distribution_five :
    ∃ final : Nat → Local Nat,
      (∀ r < 3, run 3 (by decide) r
        (List.replicate 5 ⟨Nat.succ, fun _ => true, Nat.repr⟩) (.start 0) = .ok (final r)) ∧
      (∀ r < 3, ∃ runners, RanAll r (List.replicate 5 ⟨Nat.succ, fun _ => true, Nat.repr⟩) 0
        runners (final r)) ∧
      (∀ k < 5, ∃ r < 3, (final r).ran.count k = 1 ∧ ∀ r' < 3, r' ≠ r → k ∉ (final r').ran) ∧
      (∀ r < 3, ∀ k ∈ (final r).ran, k < 5) ∧
      ∀ r < 3, ∀ r' < 3, (final r).ran.length ≤ (final r').ran.length + 1 :=
  distribution 3 5 (by decide) (fun _ => List.replicate 5 ⟨Nat.succ, fun _ => true, Nat.repr⟩)
    (fun _ => 0) (fun _ _ => rfl) (by decide)

end ParallelLabs.Mpi
