import ParallelLabs.Twofish.RoundTrip

/-!
# The cipher as the textbook network

The published cipher has sixteen equal rounds. Each computes two words from the
first half of the state, mixes them into the second half, and swaps the halves.
`encrypt` leaves the swap out: it runs two rounds in a loop iteration, the second
with the roles of the halves exchanged, and it writes the rotation of the second
input word by eight bits into the byte selectors of the macro `g`.

The words of `encrypt` after `n` iterations are the state of the network after
`2 * n` rounds, under the same names (`cycles_eq_rounds`). The names agree
because two swaps cancel.
-/

set_option autoImplicit false

namespace ParallelLabs.Twofish

open Library

namespace Network

/-- The four words of the state. -/
structure State where
  R0 : Word
  R1 : Word
  R2 : Word
  R3 : Word
  deriving DecidableEq, Repr

/-- The word `R[i mod 4]`. -/
def State.word (R : State) (i : Nat) : Word :=
  match i % 4 with
  | 0 => R.R0
  | 1 => R.R1
  | 2 => R.R2
  | _ => R.R3

/-- Round `r` of the network. -/
def round (G : Word → Word) (K : Subkeys) (r : Nat) (R : State) : State :=
  let T0 := G R.R0
  let T1 := G (R.R1.rotateLeft 8)
  let F0 := T0 + T1 + K[2 * r + 8]!
  let F1 := T0 + 2 * T1 + K[2 * r + 9]!
  ⟨(R.R2 ^^^ F0).rotateRight 1, R.R3.rotateLeft 1 ^^^ F1, R.R0, R.R1⟩

/-- The rounds `0` to `n - 1`, in order. -/
def rounds (G : Word → Word) (K : Subkeys) (n : Nat) (R : State) : State :=
  Nat.fold n (fun r _ R => round G K r R) R

/-- Little-endian word `i` of a block, whitened with subkey `i`. -/
def inputWord (K : Subkeys) (p : Block) (i : Nat) : Word :=
  leWord p[4 * i]! p[4 * i + 1]! p[4 * i + 2]! p[4 * i + 3]! ^^^ K[i]!

/-- Output word `i`: the last swap undone, whitened with subkey `i + 4`. -/
def outputWord (K : Subkeys) (R : State) (i : Nat) : Word :=
  R.word (i + 2) ^^^ K[i + 4]!

/-- The published encryption of a block: input whitening, sixteen rounds, output
whitening, and the words written out little-endian. -/
def encrypt (G : Word → Word) (K : Subkeys) (p : Block) : Block :=
  let R : State := ⟨inputWord K p 0, inputWord K p 1, inputWord K p 2, inputWord K p 3⟩
  let R := rounds G K 16 R
  Vector.ofFn fun n => wordByte (outputWord K R (n.val / 4)) (n.val % 4)

end Network

/-! ## The macro at its second rotation -/

/-- Byte `n` of the word rotated left by eight bits is byte `n + 3` of the word.
The shift counts `0`, `8`, `16` and `24` recur in turn, so there are four cases. -/
theorem Bn_rotateLeft_eight (x : Word) (n : Nat) : Bn (x.rotateLeft 8) n = Bn x (n + 3) := by
  have shifts : (8 * n % 32 = 0 ∧ 8 * (n + 3) % 32 = 24) ∨ (8 * n % 32 = 8 ∧ 8 * (n + 3) % 32 = 0) ∨
      (8 * n % 32 = 16 ∧ 8 * (n + 3) % 32 = 8) ∨ (8 * n % 32 = 24 ∧ 8 * (n + 3) % 32 = 16) := by
    omega
  rcases shifts with ⟨here, there⟩ | ⟨here, there⟩ | ⟨here, there⟩ | ⟨here, there⟩ <;>
  · rw [Bn, Bn, here, there, and_byteMask, and_byteMask]
    congr 1
    ext i bound
    simp [BitVec.getLsbD_rotateLeft]
    grind

/-- The macro at rotation `3` reads the word rotated left by eight bits. -/
theorem g_three (sBox : SBox) (x : Word) : g sBox x 3 = g sBox (x.rotateLeft 8) 0 := by
  simp only [g, Bn_rotateLeft_eight]

/-! ## Two rounds in a cycle -/

/-- The words of a cycle as a state of the network. -/
def Cycle.state (s : Cycle) : Network.State := ⟨s.x0, s.x1, s.x2, s.x3⟩

variable (sbox : SBox) (K : Subkeys)

/-- **A cycle is two rounds.** -/
theorem encryptCycle_state (n : Nat) (s : Cycle) (index : s.k = 4 * n + 8) :
    (encryptCycle g sbox K s).state =
      Network.round (fun x => g sbox x 0) K (2 * n + 1)
        (Network.round (fun x => g sbox x 0) K (2 * n) s.state) := by
  have key0 : 2 * (2 * n) + 8 = s.k := by omega
  have key1 : 2 * (2 * n) + 9 = s.k + 1 := by omega
  have key2 : 2 * (2 * n + 1) + 8 = s.k + 2 := by omega
  have key3 : 2 * (2 * n + 1) + 9 = s.k + 3 := by omega
  simp only [encryptCycle, Network.round, Cycle.state, g_three, key0, key1, key2, key3,
    shiftRight_or_shiftLeft_eq_rotateRight, shiftLeft_or_shiftRight_eq_rotateLeft]

/-- The words after `n` cycles are the state of the network after `2 * n`
rounds, and the next subkey is the first one of round `2 * n`. -/
theorem cycles_eq_rounds (n : Nat) (s : Cycle) (start : s.k = 8) :
    ((encryptCycle g sbox K)^[n] s).state =
      Network.rounds (fun x => g sbox x 0) K (2 * n) s.state := by
  induction n with
  | zero => rfl
  | succ n ih =>
      have index : ((encryptCycle g sbox K)^[n] s).k = 4 * n + 8 := by
        rw [encryptCycle_iterate_k, start, Nat.add_comm]
      rw [Function.iterate_succ_apply', encryptCycle_state sbox K n _ index, ih]
      rfl

/-- The words of a block after the input whitening. -/
def startCycle (p : Block) : Cycle :=
  ⟨Network.inputWord K p 0, Network.inputWord K p 1, Network.inputWord K p 2,
    Network.inputWord K p 3, 8⟩

/-- The output words are the second half of the last state, then the first. -/
theorem blockOfWords_outputWord (R : Network.State) :
    blockOfWords (R.R2 ^^^ K[4]!) (R.R3 ^^^ K[5]!) (R.R0 ^^^ K[6]!) (R.R1 ^^^ K[7]!) =
      Vector.ofFn fun n => wordByte (Network.outputWord K R (n.val / 4)) (n.val % 4) := by
  apply Vector.ext
  intro i bound
  rw [Vector.getElem_ofFn]
  show _ = wordByte (Network.outputWord K R (i / 4)) (i % 4)
  match i, bound with
  | 0, _ | 1, _ | 2, _ | 3, _ | 4, _ | 5, _ | 6, _ | 7, _
  | 8, _ | 9, _ | 10, _ | 11, _ | 12, _ | 13, _ | 14, _ | 15, _ => rfl
  | i + 16, bound => omega

/-- `encrypt` in terms of its last state. -/
theorem encrypt_eq_blockOfWords (p : Block) :
    let R := ((encryptCycle g sbox K)^[8] (startCycle K p)).state
    encrypt (sbox, K) p =
      blockOfWords (R.R2 ^^^ K[4]!) (R.R3 ^^^ K[5]!) (R.R0 ^^^ K[6]!) (R.R1 ^^^ K[7]!) :=
  rfl

/-- **`encrypt` is the textbook network** over the macro `g` at rotation `0`. -/
theorem encrypt_eq_network (p : Block) :
    encrypt (sbox, K) p = Network.encrypt (fun x => g sbox x 0) K p := by
  rw [encrypt_eq_blockOfWords, cycles_eq_rounds sbox K 8 (startCycle K p) rfl,
    blockOfWords_outputWord]
  rfl

end ParallelLabs.Twofish
