import ParallelLabs.Decryptor.ParallelDecryptor
import ParallelLabs.Runners.Output

/-!
# The text of a result

`string_caster::toString` writes a `decryption_result` to a stream with its
`operator<<`. The text, and the whole line that a runner prints, determine the
message and the key (`report_inj`), although the message may hold any bytes, quotes
and line ends among them.
-/

set_option autoImplicit false

namespace ParallelLabs.Decryptor

open Library Twofish Runners

/-- `operator<<` of a `decryption_result`: what the stream holds afterwards. -/
def DecryptionResult.write (os : List Byte) (dt : DecryptionResult) : List Byte :=
  os ++ ascii "String decrypted: \"" ++ dt.result ++ ascii "\", encryption key: " ++
    decimal dt.key.toNat ++ ascii "."

/-- `string_caster::toString` of a `decryption_result`, which `std::to_string` does not
take. -/
def DecryptionResult.toString (dt : DecryptionResult) : List Byte := dt.write []

/-- **The text determines the result.** -/
theorem toString_injective : Function.Injective DecryptionResult.toString := by
  intro first second same
  have split : ascii "\", encryption key: " = ascii "\", encryption key:" ++ [32] := by decide
  rw [DecryptionResult.toString, DecryptionResult.toString, DecryptionResult.write,
    DecryptionResult.write, List.append_cancel_right_eq, split, ← List.append_assoc,
    ← List.append_assoc, List.append_assoc _ [32], List.append_assoc _ [32]] at same
  obtain ⟨texts, keys⟩ := append_decimal_inj (by decide) same
  have results := List.append_cancel_left (List.append_cancel_right texts)
  cases first
  cases second
  simp only [DecryptionResult.mk.injEq]
  exact ⟨results, BitVec.eq_of_toNat_eq keys⟩

/-- **What is printed can be read back.** Two lines of a runner are the same only if
they are of the same worker, with the same message and the same key; and of the
same process. -/
theorem report_inj (kind : Kind) (uid uid' : BitVec 16) (pid pid' : Nat)
    (first second : DecryptionResult) :
    kind.line uid pid first.toString = kind.line uid' pid' second.toString ↔
      uid = uid' ∧ first = second ∧ (kind = .process → pid = pid') := by
  constructor
  · intro same
    obtain ⟨uids, texts, pids⟩ := line_inj same
    exact ⟨uids, toString_injective texts, pids⟩
  · rintro ⟨rfl, rfl, pids⟩
    cases kind with
    | process => rw [pids rfl]
    | thread | openmp => rfl

/-- The line of worker `3` of the thread runner for the letter `A` and the key `12`. -/
example : Kind.thread.line 3 0 (DecryptionResult.toString ⟨[0x41], 12⟩) =
    ascii "Result: \"String decrypted: \"A\", encryption key: 12.\" in thread 3;\n" := by
  decide

end ParallelLabs.Decryptor
