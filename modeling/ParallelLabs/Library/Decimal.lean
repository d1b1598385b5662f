import Mathlib.Data.BitVec
import Mathlib.Data.List.Basic

/-!
# Texts that end in decimal digits

The bytes of a text and of a number written in decimal. A number is read back
from its digits (`ofDigits_decimal`), and a text that ends in a number after a byte
that is no digit determines the number and what stands before it
(`append_decimal_inj`).
-/

set_option autoImplicit false

namespace ParallelLabs.Library

/-- The bytes of a text of ASCII characters. -/
def ascii (text : String) : List (BitVec 8) := text.toList.map fun c => BitVec.ofNat 8 c.toNat

/-- The bytes of a number written in decimal. -/
def decimal (n : Nat) : List (BitVec 8) :=
  (Nat.toDigits 10 n).map fun digit => BitVec.ofNat 8 digit.toNat

/-- The number that a text of digits writes. -/
def ofDigits (digits : List (BitVec 8)) : Nat :=
  Nat.ofDigitChars 10 (digits.map fun byte => Char.ofNat byte.toNat) 0

/-- The byte of a digit. -/
def IsDigit (byte : BitVec 8) : Prop := 48 ≤ byte.toNat ∧ byte.toNat ≤ 57

instance (byte : BitVec 8) : Decidable (IsDigit byte) :=
  inferInstanceAs (Decidable (_ ∧ _))

theorem toNat_byte_of_isDigit {c : Char} (digit : c.isDigit = true) :
    (BitVec.ofNat 8 c.toNat).toNat = c.toNat ∧ 48 ≤ c.toNat ∧ c.toNat ≤ 57 := by
  have bounds : 48 ≤ c.toNat ∧ c.toNat ≤ 57 := by
    simpa [Char.isDigit, UInt32.le_iff_toNat_le] using digit
  refine ⟨?_, bounds⟩
  rw [BitVec.toNat_ofNat, Nat.mod_eq_of_lt (by omega)]

/-- **A number is read back from its digits.** -/
theorem ofDigits_decimal (n : Nat) : ofDigits (decimal n) = n := by
  have chars : (decimal n).map (fun byte => Char.ofNat byte.toNat) = Nat.toDigits 10 n := by
    rw [decimal, List.map_map]
    refine List.map_congr_left (g := id) (fun c member => ?_) |>.trans (List.map_id _)
    have digit := Nat.isDigit_of_mem_toDigits (by decide) (by decide) member
    show Char.ofNat (BitVec.ofNat 8 c.toNat).toNat = c
    rw [(toNat_byte_of_isDigit digit).1, Char.ofNat_toNat]
  rw [ofDigits, chars, Nat.ofDigitChars_ten_toDigits]

theorem decimal_injective : Function.Injective decimal :=
  Function.LeftInverse.injective ofDigits_decimal

theorem isDigit_of_mem_decimal {n : Nat} {byte : BitVec 8} (member : byte ∈ decimal n) :
    IsDigit byte := by
  obtain ⟨c, digit, rfl⟩ := List.mem_map.mp member
  obtain ⟨same, low, high⟩ := toNat_byte_of_isDigit
    (Nat.isDigit_of_mem_toDigits (by decide) (by decide) digit)
  rw [IsDigit, same]
  exact ⟨low, high⟩

/-- What stands before the first occurrence of an element is determined. -/
theorem eq_of_append_cons_eq {α : Type*} {a : α} {x y u v : List α} (absent : a ∉ x)
    (absent' : a ∉ y) (same : x ++ a :: u = y ++ a :: v) : x = y ∧ u = v := by
  rcases List.append_eq_append_iff.mp same with ⟨c, rfl, rest⟩ | ⟨c, rfl, rest⟩
  · cases c with
    | nil => exact ⟨(List.append_nil _).symm, (List.cons.inj rest).2⟩
    | cons b c =>
        obtain ⟨rfl, -⟩ := List.cons.inj rest
        exact absurd (List.mem_append_right _ (List.mem_cons_self ..)) absent'
  · cases c with
    | nil => exact ⟨List.append_nil _, (List.cons.inj rest).2.symm⟩
    | cons b c =>
        obtain ⟨rfl, -⟩ := List.cons.inj rest
        exact absurd (List.mem_append_right _ (List.mem_cons_self ..)) absent

/-- **The number at the end of a text is determined by the text.** -/
theorem append_decimal_inj {before before' : List (BitVec 8)} {last : BitVec 8} {m n : Nat}
    (noDigit : ¬ IsDigit last)
    (same : before ++ last :: decimal m = before' ++ last :: decimal n) :
    before = before' ∧ m = n := by
  have absent : ∀ k, last ∉ (decimal k).reverse := fun k member =>
    noDigit (isDigit_of_mem_decimal (List.mem_reverse.mp member))
  have reversed := congrArg List.reverse same
  simp only [List.reverse_append, List.reverse_cons, List.append_assoc,
    List.singleton_append] at reversed
  obtain ⟨digits, texts⟩ := eq_of_append_cons_eq (absent m) (absent n) reversed
  exact ⟨List.reverse_injective texts, decimal_injective (List.reverse_injective digits)⟩

end ParallelLabs.Library
