import ParallelLabs.Twofish.FieldTables

/-!
# The key schedule is the published one

The three loops of `make_session_key`, each with the invariant that says what it
has stored after `n` iterations. The first splits the user key into its even and
odd words and encodes the words for the S-boxes, last first. The second stores
the subkeys two at a time. The third stores, for each byte, the value of each
S-box with its column of the MDS matrix applied.

With the program's `h` and its remainder equal to the published ones, the words
stored are the published schedule (`makeSessionKey_eq_published`).
-/

set_option autoImplicit false

namespace ParallelLabs.Twofish

open Library

/-! ## The loops -/

theorem splitUserKey_eq (m : UserKey) :
    splitUserKey m =
      (#v[Published.M m 0, Published.M m 2, Published.M m 4, Published.M m 6],
        #v[Published.M m 1, Published.M m 3, Published.M m 5, Published.M m 7],
        #v[Published.S m 3, Published.S m 2, Published.S m 1, Published.S m 0]) := by
  rw [← rsMdsEncode_eq m 0, ← rsMdsEncode_eq m 1, ← rsMdsEncode_eq m 2, ← rsMdsEncode_eq m 3]
  rfl

/-- What the second loop stores as subkeys `2 * i` and `2 * i + 1`. -/
def evenSubkey (Me Mo : KVector) (i : Nat) : Word :=
  h (BitVec.ofNat 32 i * SK_STEP) Me + (h (BitVec.ofNat 32 i * SK_STEP + SK_BUMP) Mo).rotateLeft 8

def oddSubkey (Me Mo : KVector) (i : Nat) : Word :=
  (evenSubkey Me Mo i + (h (BitVec.ofNat 32 i * SK_STEP + SK_BUMP) Mo).rotateLeft 8).rotateLeft 9

/-- The state of the second loop after `n` iterations. -/
structure SubkeysUpTo (Me Mo : KVector) (n : Nat) (s : Word × Subkeys) : Prop where
  step : s.1 = BitVec.ofNat 32 n * SK_STEP
  even : ∀ i < n, s.2[2 * i]! = evenSubkey Me Mo i
  odd : ∀ i < n, s.2[2 * i + 1]! = oddSubkey Me Mo i

theorem subkeysUpTo_step (Me Mo : KVector) (n : Nat) (bound : n < 20) (s : Word × Subkeys)
    (upTo : SubkeysUpTo Me Mo n s) : SubkeysUpTo Me Mo (n + 1) (expandStep Me Mo n bound s) := by
  obtain ⟨q, subkeys⟩ := s
  obtain ⟨step, even, odd⟩ := upTo
  dsimp only at step even odd
  subst step
  refine ⟨?_, fun i below => ?_, fun i below => ?_⟩
  · show BitVec.ofNat 32 n * SK_STEP + SK_STEP = BitVec.ofNat 32 (n + 1) * SK_STEP
    rw [BitVec.ofNat_add, BitVec.add_mul]
    simp
  · dsimp only [expandStep]
    rw [getElem!_set _ _ _ _ _ (by omega), if_neg (by omega), getElem!_set _ _ _ _ _ (by omega)]
    rcases Nat.lt_succ_iff_lt_or_eq.mp below with earlier | rfl
    · rw [if_neg (by omega), even i earlier]
    · rw [if_pos rfl]
      rfl
  · dsimp only [expandStep]
    rw [getElem!_set _ _ _ _ _ (by omega)]
    rcases Nat.lt_succ_iff_lt_or_eq.mp below with earlier | rfl
    · rw [if_neg (by omega), getElem!_set _ _ _ _ _ (by omega), if_neg (by omega), odd i earlier]
    · rw [if_pos rfl]
      rfl

theorem subkeysUpTo_expandSubkeys (Me Mo : KVector) :
    SubkeysUpTo Me Mo 20 (Nat.fold 20 (expandStep Me Mo) (0, Vector.replicate 40 0)) :=
  fold_invariant (SubkeysUpTo Me Mo)
    ⟨by simp, fun _ below => absurd below (Nat.not_lt_zero _),
      fun _ below => absurd below (Nat.not_lt_zero _)⟩
    (subkeysUpTo_step Me Mo)

/-! ## The S-boxes -/

/-- The byte that S-box `j` sends `b` to, before the MDS matrix. The program
starts all four boxes of an iteration at the same byte. -/
def keyedByte (S : KVector) (j : Nat) (b : Byte) : Byte :=
  Published.yBytes (leWord b b b b) S[0]! S[1]! S[2]! S[3]! j

theorem promoted_and_byteMask (b : Byte) : b.setWidth 32 &&& 0xFF = b.setWidth 32 := by
  rw [and_byteMask]
  ext i bound
  simp

theorem ofNat_promoted (i : Nat) (bound : i < 256) :
    BitVec.ofNat 32 i = (BitVec.ofNat 8 i).setWidth 32 := by
  apply BitVec.eq_of_toNat_eq
  simp
  omega

/-- One iteration of the third loop writes one entry of each S-box. -/
theorem getElem!_fillStep (S : KVector) (i : Nat) (bound : i < 256) (sBox : SBox) (j : Nat)
    (inside : j < 1024) :
    (fillStep S i bound sBox)[j]! =
      if 0x201 + 2 * i = j then columnMDS 3 (keyedByte S 3 (BitVec.ofNat 8 i))
      else if 0x200 + 2 * i = j then columnMDS 2 (keyedByte S 2 (BitVec.ofNat 8 i))
      else if 1 + 2 * i = j then columnMDS 1 (keyedByte S 1 (BitVec.ofNat 8 i))
      else if 2 * i = j then columnMDS 0 (keyedByte S 0 (BitVec.ofNat 8 i))
      else sBox[j]! := by
  simp only [fillStep, ofNat_promoted i bound, permute_zero, permute_one, promoted_and_byteMask,
    B0_eq, B1_eq, B2_eq, B3_eq, ← BitVec.setWidth_xor, mds_zero, mds_one, mds_two, mds_three]
  rw [getElem!_set _ _ _ _ _ inside, getElem!_set _ _ _ _ _ inside, getElem!_set _ _ _ _ _ inside,
    getElem!_set _ _ _ _ _ inside]
  simp only [keyedByte, Published.yBytes, wordByte_zero_leWord, wordByte_one_leWord,
    wordByte_two_leWord, wordByte_three_leWord]
  rfl

/-- The table after `n` iterations of the third loop. -/
structure SBoxUpTo (S : KVector) (n : Nat) (sBox : SBox) : Prop where
  box0 : ∀ i < n, sBox[2 * i]! = columnMDS 0 (keyedByte S 0 (BitVec.ofNat 8 i))
  box1 : ∀ i < n, sBox[2 * i + 1]! = columnMDS 1 (keyedByte S 1 (BitVec.ofNat 8 i))
  box2 : ∀ i < n, sBox[0x200 + 2 * i]! = columnMDS 2 (keyedByte S 2 (BitVec.ofNat 8 i))
  box3 : ∀ i < n, sBox[0x200 + 2 * i + 1]! = columnMDS 3 (keyedByte S 3 (BitVec.ofNat 8 i))

/-- The four writes of an iteration go to four different residues of the table,
so each box keeps its earlier entries and gains one. -/
theorem sBoxUpTo_step (S : KVector) (n : Nat) (bound : n < 256) (sBox : SBox)
    (upTo : SBoxUpTo S n sBox) : SBoxUpTo S (n + 1) (fillStep S n bound sBox) := by
  obtain ⟨box0, box1, box2, box3⟩ := upTo
  constructor
  all_goals
    intro i below
    rw [getElem!_fillStep S n bound sBox _ (by omega)]
    rcases Nat.lt_succ_iff_lt_or_eq.mp below with earlier | rfl
  · rw [if_neg (by omega), if_neg (by omega), if_neg (by omega), if_neg (by omega),
      box0 i earlier]
  · rw [if_neg (by omega), if_neg (by omega), if_neg (by omega), if_pos (by omega)]
  · rw [if_neg (by omega), if_neg (by omega), if_neg (by omega), if_neg (by omega),
      box1 i earlier]
  · rw [if_neg (by omega), if_neg (by omega), if_pos (by omega)]
  · rw [if_neg (by omega), if_neg (by omega), if_neg (by omega), if_neg (by omega),
      box2 i earlier]
  · rw [if_neg (by omega), if_pos (by omega)]
  · rw [if_neg (by omega), if_neg (by omega), if_neg (by omega), if_neg (by omega),
      box3 i earlier]
  · rw [if_pos (by omega)]

theorem sBoxUpTo_fillSBox (S : KVector) : SBoxUpTo S 256 (fillSBox S) :=
  fold_invariant (SBoxUpTo S)
    ⟨fun _ below => absurd below (Nat.not_lt_zero _),
      fun _ below => absurd below (Nat.not_lt_zero _),
      fun _ below => absurd below (Nat.not_lt_zero _),
      fun _ below => absurd below (Nat.not_lt_zero _)⟩
    (sBoxUpTo_step S)

/-- **The four S-boxes together are the published `h`** keyed with the four words. -/
theorem fillSBox_eq_published (S : KVector) (x : Word) :
    (fillSBox S)[2 * (wordByte x 0).toNat]! ^^^ (fillSBox S)[2 * (wordByte x 1).toNat + 1]! ^^^
        (fillSBox S)[0x200 + 2 * (wordByte x 2).toNat]! ^^^
        (fillSBox S)[0x200 + 2 * (wordByte x 3).toNat + 1]! =
      Published.h x S[0]! S[1]! S[2]! S[3]! := by
  have filled := sBoxUpTo_fillSBox S
  rw [filled.box0 _ (wordByte x 0).isLt, filled.box1 _ (wordByte x 1).isLt,
    filled.box2 _ (wordByte x 2).isLt, filled.box3 _ (wordByte x 3).isLt]
  simp only [BitVec.ofNat_toNat, BitVec.setWidth_eq]
  rw [Published.h, ← columnMDS_sum]
  simp only [keyedByte, Published.yBytes, wordByte_zero_leWord, wordByte_one_leWord,
    wordByte_two_leWord, wordByte_three_leWord]

/-! ## The schedule -/

theorem even_step (i : Nat) :
    BitVec.ofNat 32 i * SK_STEP = BitVec.ofNat 32 (2 * i) * Published.rho := by
  have step : SK_STEP = 2 * Published.rho := by decide
  rw [step, ← BitVec.mul_assoc, BitVec.ofNat_mul, BitVec.mul_comm (BitVec.ofNat 32 i)]
  rfl

theorem odd_step (i : Nat) :
    BitVec.ofNat 32 i * SK_STEP + SK_BUMP = BitVec.ofNat 32 (2 * i + 1) * Published.rho := by
  rw [even_step, BitVec.ofNat_add, BitVec.add_mul]
  simp [SK_BUMP, Published.rho]

section Schedule

variable (m : UserKey)

theorem makeSessionKey_fst :
    (makeSessionKey m).1 =
      fillSBox #v[Published.S m 3, Published.S m 2, Published.S m 1, Published.S m 0] := by
  rw [makeSessionKey, splitUserKey_eq]

theorem makeSessionKey_snd :
    (makeSessionKey m).2 =
      expandSubkeys #v[Published.M m 0, Published.M m 2, Published.M m 4, Published.M m 6]
        #v[Published.M m 1, Published.M m 3, Published.M m 5, Published.M m 7] := by
  rw [makeSessionKey, splitUserKey_eq]

theorem subkey_even (i : Nat) (bound : i < 20) :
    (makeSessionKey m).2[2 * i]! = Published.A m i + Published.B m i := by
  rw [makeSessionKey_snd]
  refine ((subkeysUpTo_expandSubkeys _ _).even i bound).trans ?_
  rw [evenSubkey, h_eq, h_eq, odd_step, even_step]
  rfl

theorem subkey_odd (i : Nat) (bound : i < 20) :
    (makeSessionKey m).2[2 * i + 1]! =
      (Published.A m i + 2 * Published.B m i).rotateLeft 9 := by
  rw [makeSessionKey_snd]
  refine ((subkeysUpTo_expandSubkeys _ _).odd i bound).trans ?_
  have doubled : 2 * Published.B m i = Published.B m i + Published.B m i := BitVec.two_mul
  rw [oddSubkey, evenSubkey, h_eq, h_eq, odd_step, even_step, doubled, ← BitVec.add_assoc]
  rfl

theorem sBox_eq (x : Word) :
    let sBox := (makeSessionKey m).1
    sBox[2 * (wordByte x 0).toNat]! ^^^ sBox[2 * (wordByte x 1).toNat + 1]! ^^^
        sBox[0x200 + 2 * (wordByte x 2).toNat]! ^^^ sBox[0x200 + 2 * (wordByte x 3).toNat + 1]! =
      Published.h x (Published.S m 3) (Published.S m 2) (Published.S m 1) (Published.S m 0) := by
  rw [makeSessionKey_fst]
  exact fillSBox_eq_published _ x

/-- **The key schedule is the published one**, for every user key. -/
theorem makeSessionKey_eq_published :
    (∀ i < 20,
      (makeSessionKey m).2[2 * i]! = Published.A m i + Published.B m i ∧
      (makeSessionKey m).2[2 * i + 1]! = (Published.A m i + 2 * Published.B m i).rotateLeft 9) ∧
    ∀ x : Word,
      let sBox := (makeSessionKey m).1
      sBox[2 * (wordByte x 0).toNat]! ^^^ sBox[2 * (wordByte x 1).toNat + 1]! ^^^
          sBox[0x200 + 2 * (wordByte x 2).toNat]! ^^^
          sBox[0x200 + 2 * (wordByte x 3).toNat + 1]! =
        Published.h x (Published.S m 3) (Published.S m 2) (Published.S m 1) (Published.S m 0) :=
  ⟨fun i bound => ⟨subkey_even m i bound, subkey_odd m i bound⟩, sBox_eq m⟩

end Schedule

end ParallelLabs.Twofish
