import ParallelLabs.Library.Decimal
import Mathlib.Data.BitVec

/-!
# What the runners start and print

`run` of both Linux runners computes the number of its callables minus one, as an
`unsigned long`, and starts its workers only if that is below a thousand. An empty
runner wraps around and starts nothing.

A worker that has a result prints it with its number. The line is written to
`std::cout` piece by piece, so the pieces of different workers may come in any
order between each other. The runner of processes prints the process id too.

A line can be read backwards: it determines the number of the worker and the text
of the result, whatever bytes the text has (`line_inj`).
-/

set_option autoImplicit false

namespace ParallelLabs.Runners

open Library

/-- The check `size < 1000` in `run`. -/
def launches (count : Nat) : Bool := BitVec.ofNat 64 count - 1 < 1000

/-- The runners whose workers only ask their interrupter whether to go on:
`LinuxProccessParallelRunner`, `LinuxThreadParallelRunner`, `OpenMpParallelRunner`. -/
inductive Kind where
  | process
  | thread
  | openmp
  deriving DecidableEq, Repr

/-- The number that `add` gives to a worker. -/
def innerUid (index : Nat) : BitVec 16 := BitVec.ofNat 16 index

/-- What is written for a result, in the order of the `<<`. -/
def Kind.pieces (kind : Kind) (uid : BitVec 16) (pid : Nat) (result : List (BitVec 8)) :
    List (List (BitVec 8)) :=
  match kind with
  | .thread | .openmp =>
      [ascii "Result: \"", result, ascii "\" in thread ", decimal uid.toNat, ascii ";", ascii "\n"]
  | .process =>
      [ascii "Result: \"", result, ascii "\" in process ", decimal uid.toNat, ascii " (pid: ",
        ascii "\"", decimal pid, ascii "\"", ascii ");", ascii "\n"]

/-- The whole line. -/
def Kind.line (kind : Kind) (uid : BitVec 16) (pid : Nat) (result : List (BitVec 8)) :
    List (BitVec 8) :=
  (kind.pieces uid pid result).flatten

theorem line_of_thread {kind : Kind} (threads : kind ≠ .process) (uid : BitVec 16) (pid : Nat)
    (result : List (BitVec 8)) :
    kind.line uid pid result = ascii "Result: \"" ++ result ++ ascii "\" in thread" ++
      32 :: decimal uid.toNat ++ ascii ";\n" := by
  cases kind with
  | process => exact absurd rfl threads
  | thread | openmp =>
      show ([_, _, ascii "\" in thread" ++ [32], _, _, _] : List (List (BitVec 8))).flatten = _
      simp [List.append_assoc, ascii]

theorem line_of_process (uid : BitVec 16) (pid : Nat) (result : List (BitVec 8)) :
    Kind.process.line uid pid result = ascii "Result: \"" ++ result ++ ascii "\" in process" ++
      32 :: decimal uid.toNat ++ ascii " (pid: " ++ 34 :: decimal pid ++ ascii "\");\n" := by
  show ([_, _, ascii "\" in process" ++ [32], _, _, [34], _, [34], _, _] :
    List (List (BitVec 8))).flatten = _
  simp [List.append_assoc, ascii]

/-- **A line determines the worker and the text of its result**, and the process. -/
theorem line_inj {kind : Kind} {uid uid' : BitVec 16} {pid pid' : Nat}
    {result result' : List (BitVec 8)}
    (same : kind.line uid pid result = kind.line uid' pid' result') :
    uid = uid' ∧ result = result' ∧ (kind = .process → pid = pid') := by
  by_cases process : kind = .process
  · subst process
    rw [line_of_process, line_of_process] at same
    obtain ⟨before, pids⟩ := append_decimal_inj (by decide) (List.append_cancel_right same)
    obtain ⟨texts, uids⟩ := append_decimal_inj (by decide) (List.append_cancel_right before)
    exact ⟨BitVec.eq_of_toNat_eq uids,
      List.append_cancel_left (List.append_cancel_right texts), fun _ => pids⟩
  · rw [line_of_thread process, line_of_thread process] at same
    obtain ⟨texts, uids⟩ := append_decimal_inj (by decide) (List.append_cancel_right same)
    exact ⟨BitVec.eq_of_toNat_eq uids,
      List.append_cancel_left (List.append_cancel_right texts), fun is => absurd is process⟩

end ParallelLabs.Runners
