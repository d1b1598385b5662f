import Mathlib.Data.Int.Basic
import Mathlib.Data.List.Basic

/-!
# Expressions of type `int`

The value of an expression is computed in the integers and is a fault when it
does not fit (`checked`). Counters that never go below zero are natural numbers
(`asInt`).
-/

set_option autoImplicit false

namespace ParallelLabs.Library

/-- What a computation does that the language leaves undefined. -/
inductive Fault where
  | outOfBounds
  | intOverflow
  | divisionByZero
  deriving DecidableEq, Repr

/-- A computation in two parts returns when both do. -/
theorem bind_eq_ok {ε α β : Type} {x : Except ε α} {f : α → Except ε β} {b : β} :
    x >>= f = .ok b ↔ ∃ a, x = .ok a ∧ f a = .ok b := by
  constructor
  · intro returned
    cases x with
    | error e => cases returned
    | ok a => exact ⟨a, rfl, returned⟩
  · rintro ⟨a, rfl, returned⟩
    exact returned

def INT_MAX : Nat := 2147483647
def INT_MIN : Int := -2147483648

/-- The value of an `int` expression that is not negative. -/
def asInt (value : Nat) : Except Fault Nat :=
  if value ≤ INT_MAX then .ok value else .error .intOverflow

theorem asInt_cases {value result : Nat} (fits : asInt value = .ok result) :
    result = value ∧ value ≤ INT_MAX := by
  rw [asInt] at fits
  split at fits
  · next within => exact ⟨(Except.ok.inj fits).symm, within⟩
  · cases fits

theorem asInt_of_le {value : Nat} (fits : value ≤ INT_MAX) : asInt value = .ok value :=
  if_pos fits

/-- The value of an `int` expression. -/
def checked (value : Int) : Except Fault Int :=
  if INT_MIN ≤ value ∧ value ≤ INT_MAX then .ok value else .error .intOverflow

theorem checked_cases {value result : Int} (fits : checked value = .ok result) :
    result = value ∧ INT_MIN ≤ value ∧ value ≤ INT_MAX := by
  rw [checked] at fits
  split at fits
  · next within => exact ⟨(Except.ok.inj fits).symm, within⟩
  · cases fits

theorem checked_natCast {value : Nat} (fits : value ≤ INT_MAX) :
    checked (value : Int) = .ok (value : Int) := by
  refine if_pos ⟨?_, Int.ofNat_le.mpr fits⟩
  rw [INT_MIN]
  omega

theorem checked_succ {value : Nat} (fits : value + 1 ≤ INT_MAX) :
    checked ((value : Int) + 1) = .ok ((value + 1 : Nat) : Int) := by
  rw [← checked_natCast fits, Int.natCast_add, Int.natCast_one]

/-- `div` of the C library: quotient and remainder, rounded towards zero. -/
def div (numerator denominator : Int) : Except Fault (Int × Int) :=
  if denominator = 0 then .error .divisionByZero
  else do
    let quot ← checked (numerator.tdiv denominator)
    pure (quot, numerator.tmod denominator)

theorem div_natCast {numerator denominator : Nat} (positive : 0 < denominator)
    (fits : numerator ≤ INT_MAX) :
    div numerator denominator =
      .ok (((numerator / denominator : Nat) : Int), ((numerator % denominator : Nat) : Int)) := by
  have nonzero : (denominator : Int) ≠ 0 := by omega
  rw [div, if_neg nonzero, ← Int.ofNat_tdiv,
    checked_natCast (Nat.le_trans (Nat.div_le_self _ _) fits)]
  rfl

/-- A computation that returns at every element of a list returns on the list. -/
theorem mapM_ok {α β : Type} {f : α → Except Fault β} {g : α → β} {l : List α}
    (returns : ∀ a ∈ l, f a = .ok (g a)) : l.mapM f = .ok (l.map g) := by
  induction l with
  | nil => rfl
  | cons a l ih =>
      rw [List.mapM_cons, returns a (List.mem_cons_self ..),
        ih fun b member => returns b (List.mem_cons_of_mem a member)]
      rfl

/-- A computation that returns what another one returns does so on a list. -/
theorem mapM_of_mapM {α β γ : Type} {f : α → Except Fault γ} {g : β → Except Fault γ} {h : α → β}
    {l : List α} {all : List γ} (returns : ∀ a ∈ l, ∀ c, g (h a) = .ok c → f a = .ok c)
    (mapped : (l.map h).mapM g = .ok all) : l.mapM f = .ok all ∧ all.length = l.length := by
  induction l generalizing all with
  | nil =>
      obtain rfl := Except.ok.inj mapped
      exact ⟨rfl, rfl⟩
  | cons a l ih =>
      rw [List.map_cons, List.mapM_cons] at mapped
      obtain ⟨c, first, mapped⟩ := bind_eq_ok.mp mapped
      obtain ⟨cs, rest, collected⟩ := bind_eq_ok.mp mapped
      obtain rfl := Except.ok.inj collected
      obtain ⟨others, length⟩ :=
        ih (fun b member => returns b (List.mem_cons_of_mem a member)) rest
      rw [List.mapM_cons, returns a (List.mem_cons_self ..) c first, others]
      exact ⟨rfl, congrArg Nat.succ length⟩

/-- The conversion of a small `uint32_t` to `int` keeps its value. -/
theorem toInt_eq_toNat {x : BitVec 32} (fits : x.toNat ≤ INT_MAX) : x.toInt = x.toNat := by
  rw [INT_MAX] at fits
  rw [BitVec.toInt_eq_toNat_cond, if_pos (by omega)]

/-- The conversion of a large one does not. -/
theorem toInt_of_large {x : BitVec 32} (large : INT_MAX < x.toNat) : x.toInt < 0 := by
  have bound := x.isLt
  rw [INT_MAX] at large
  rw [BitVec.toInt_eq_toNat_cond, if_neg (by omega)]
  omega

end ParallelLabs.Library
