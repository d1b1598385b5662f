import Mathlib.Data.List.OfFn
import Mathlib.Data.Nat.Basic
import Mathlib.Tactic.Common

/-!
# Acting on a list block by block

A list is cut into blocks of a fixed size and a function on blocks is applied
to each (`blockwise`). On lists of whole blocks the action is functorial
(`blockwise_blockwise`, `blockwise_id`); a function with a left inverse acts
without loss (`blockwise_left_inverse`). The action on a list after whole blocks does
not depend on them (`blockwise_append`).
-/

set_option autoImplicit false

namespace ParallelLabs.Library

section Blocks

variable {α : Type*} [Inhabited α] {n : Nat}

/-- The `k`-th block of a list. -/
def blockAt (n : Nat) (v : List α) (k : Nat) : Vector α n :=
  Vector.ofFn fun i => v[n * k + i]!

/-- The list whose blocks are the images of those of `v`. -/
def blockwise (f : Vector α n → Vector α n) (v : List α) : List α :=
  List.ofFn fun j : Fin v.length => (f (blockAt n v (j / n)))[j.val % n]!

@[simp] theorem length_blockwise (f : Vector α n → Vector α n) (v : List α) :
    (blockwise f v).length = v.length := by
  simp [blockwise]

theorem getElem?_blockwise (f : Vector α n → Vector α n) {v : List α} {k i : Nat}
    (inside : i < n) (bound : n * k + i < v.length) :
    (blockwise f v)[n * k + i]? = some (f (blockAt n v k))[i] := by
  have block : (n * k + i) / n = k := by
    rw [Nat.mul_add_div (Nat.zero_lt_of_lt inside), Nat.div_eq_of_lt inside, Nat.add_zero]
  have offset : (n * k + i) % n = i := by
    rw [Nat.mul_add_mod, Nat.mod_eq_of_lt inside]
  rw [List.getElem?_eq_getElem (by simpa using bound)]
  simp only [blockwise, List.getElem_ofFn, block, offset]
  rw [getElem!_pos _ i inside]

omit [Inhabited α] in
/-- An index of a list of whole blocks lies in a whole block. -/
theorem whole_block_bound {v : List α} (whole : n ∣ v.length) {j : Nat} (bound : j < v.length)
    {i : Nat} (inside : i < n) : n * (j / n) + i < v.length := by
  obtain ⟨count, length⟩ := whole
  rw [length] at bound ⊢
  have under : j / n < count := Nat.div_lt_of_lt_mul bound
  calc n * (j / n) + i < n * (j / n) + n := Nat.add_lt_add_left inside _
    _ = n * (j / n + 1) := (Nat.mul_succ n (j / n)).symm
    _ ≤ n * count := Nat.mul_le_mul_left n under

theorem blockAt_blockwise (f : Vector α n → Vector α n) {v : List α} (whole : n ∣ v.length)
    {j : Nat} (bound : j < v.length) :
    blockAt n (blockwise f v) (j / n) = f (blockAt n v (j / n)) := by
  apply Vector.ext
  intro i inside
  have within := whole_block_bound whole bound inside
  simp only [blockAt, Vector.getElem_ofFn]
  rw [List.getElem!_eq_getElem?_getD, getElem?_blockwise f inside within]
  rfl

/-- **Block actions compose.** -/
theorem blockwise_blockwise (f f' : Vector α n → Vector α n) {v : List α}
    (whole : n ∣ v.length) : blockwise f' (blockwise f v) = blockwise (f' ∘ f) v := by
  apply List.ext_getElem (by simp)
  intro j bound _
  have within : j < v.length := by simpa using bound
  simp only [blockwise, List.getElem_ofFn]
  have image := blockAt_blockwise f whole within
  rw [blockwise] at image
  rw [image, Function.comp_apply]

theorem blockwise_id {v : List α} (positive : 0 < n) : blockwise (n := n) id v = v := by
  apply List.ext_getElem (by simp)
  intro j bound _
  have within : j < v.length := by simpa using bound
  simp only [blockwise, List.getElem_ofFn, id_eq, blockAt]
  rw [getElem!_pos (Vector.ofFn _) (j % n) (Nat.mod_lt j positive), Vector.getElem_ofFn,
    Nat.div_add_mod, getElem!_pos v j within]

/-- The action on a list that is one block. -/
theorem blockwise_toList (f : Vector α n → Vector α n) (b : Vector α n) :
    blockwise f b.toList = (f b).toList := by
  have one : blockAt n b.toList 0 = b := by
    apply Vector.ext
    intro i inside
    rw [blockAt, Vector.getElem_ofFn, Nat.mul_zero, Nat.zero_add,
      getElem!_pos _ i (by simpa using inside), Vector.getElem_toList]
  apply List.ext_getElem (by simp)
  intro j _ bound
  have inside : j < n := by simpa using bound
  simp only [blockwise, List.getElem_ofFn, Nat.div_eq_of_lt inside, Nat.mod_eq_of_lt inside, one]
  rw [getElem!_pos _ j inside, Vector.getElem_toList]

/-- A block function with a left inverse acts on lists of whole blocks with the
left inverse's action as a left inverse. -/
theorem blockwise_left_inverse {f f' : Vector α n → Vector α n}
    (inverse : Function.LeftInverse f' f) (positive : 0 < n) {v : List α}
    (whole : n ∣ v.length) : blockwise f' (blockwise f v) = v := by
  rw [blockwise_blockwise f f' whole, inverse.comp_eq_id, blockwise_id positive]

theorem blockAt_append_left {v : List α} (whole : n ∣ v.length) (w : List α) {j : Nat}
    (bound : j < v.length) : blockAt n (v ++ w) (j / n) = blockAt n v (j / n) := by
  apply Vector.ext
  intro i inside
  have within := whole_block_bound whole bound inside
  simp only [blockAt, Vector.getElem_ofFn]
  rw [List.getElem!_eq_getElem?_getD, List.getElem!_eq_getElem?_getD,
    List.getElem?_append_left within]

theorem blockAt_append_right {v : List α} {count : Nat} (length : v.length = n * count)
    (w : List α) (k : Nat) : blockAt n (v ++ w) (count + k) = blockAt n w k := by
  apply Vector.ext
  intro i inside
  have after : n * (count + k) + i = v.length + (n * k + i) := by
    rw [length, Nat.mul_add, Nat.add_assoc]
  simp only [blockAt, Vector.getElem_ofFn]
  rw [List.getElem!_eq_getElem?_getD, List.getElem!_eq_getElem?_getD, after,
    List.getElem?_append_right (Nat.le_add_right _ _), Nat.add_sub_cancel_left]

/-- **The block action on lists joined at the end of a block.** -/
theorem blockwise_append (f : Vector α n → Vector α n) {v : List α} (positive : 0 < n)
    (whole : n ∣ v.length) (w : List α) :
    blockwise f (v ++ w) = blockwise f v ++ blockwise f w := by
  apply List.ext_getElem (by simp)
  intro j bound bound'
  rcases Nat.lt_or_ge j v.length with first | second
  · rw [List.getElem_append_left (by rwa [length_blockwise])]
    simp only [blockwise, List.getElem_ofFn, blockAt_append_left whole w first]
  · obtain ⟨count, length⟩ := whole
    obtain ⟨i, rfl⟩ := Nat.exists_eq_add_of_le second
    have block : (v.length + i) / n = count + i / n := by
      rw [length, Nat.mul_add_div positive]
    have offset : (v.length + i) % n = i % n := by
      rw [length, Nat.mul_add_mod]
    rw [List.getElem_append_right (by rw [length_blockwise]; exact second)]
    simp only [blockwise, List.getElem_ofFn, block, offset, blockAt_append_right length,
      List.length_ofFn, Nat.add_sub_cancel_left]

end Blocks

end ParallelLabs.Library
