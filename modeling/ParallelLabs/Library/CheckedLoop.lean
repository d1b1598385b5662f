import ParallelLabs.Library.CheckedInt
import Mathlib.Data.List.Basic
import Mathlib.Logic.Function.Iterate

/-!
# Counted loops over vectors, with what C++ leaves undefined

A loop `for (int i = start; i < stop; i += stride) body` computes in
`Except Fault`: an `int` that leaves its range and an access past the end of a
vector stop it with a fault. A loop that is shown to return has therefore been
shown to be free of both.

A property of the counter and the state that the iterations carry along makes the
loop return with that property (`forInt_invariant`, and `forInt_total` where the
number of iterations is known). A loop whose iterations settle a target list from
the front, one stretch of `stride` entries each, returns that list
(`forInt_fills`). In a loop that did return, each iteration did (`forInt_returned`), and
what every iteration that returns carries along holds at the end (`forInt_preserves`).

Loops that cannot fault are `Nat.fold` and `Nat.iterate`. The first has the same
invariant rule (`fold_invariant`). For the second, a step `back` undoes a step `forth`
through a change of representation `view` when `back (view (forth a)) = view a`, and
repeating `back` then undoes as many repetitions of `forth` (`iterate_undo`).
-/

set_option autoImplicit false

namespace ParallelLabs.Library

/-! ## Vector accesses -/

section Accesses

variable {α : Type*}

/-- `v[i]`, read. -/
def readAt (v : List α) (i : Nat) : Except Fault α :=
  match v[i]? with
  | some a => .ok a
  | none => .error .outOfBounds

/-- `v[i] = a`. -/
def writeAt (v : List α) (i : Nat) (a : α) : Except Fault (List α) :=
  if i < v.length then .ok (v.set i a) else .error .outOfBounds

theorem readAt_of_lt {v : List α} {i : Nat} (bound : i < v.length) : readAt v i = .ok v[i] := by
  rw [readAt, List.getElem?_eq_getElem bound]

theorem lt_of_readAt {v : List α} {i : Nat} {a : α} (read : readAt v i = .ok a) :
    i < v.length := by
  rw [readAt] at read
  split at read
  · next entry => exact (List.getElem?_eq_some_iff.mp entry).1
  · cases read

theorem writeAt_of_lt {v : List α} {i : Nat} (bound : i < v.length) (a : α) :
    writeAt v i a = .ok (v.set i a) :=
  if_pos bound

theorem getElem!_set [Inhabited α] {n : Nat} (v : Vector α n) (j : Nat) (value : α)
    (bound : j < n) (i : Nat) (within : i < n) :
    (v.set j value bound)[i]! = if j = i then value else v[i]! := by
  rw [getElem!_pos _ i within, getElem!_pos v i within, Vector.getElem_set]

/-- A table whose entries are listed by a function of the index is that function. -/
theorem getElem!_of_toList [Inhabited α] {n : Nat} {v : Vector α n} {f : Nat → α}
    (listed : v.toList = (List.range n).map f) {i : Nat} (bound : i < n) : v[i]! = f i := by
  rw [getElem!_pos v i bound, ← Vector.getElem_toList (by simpa using bound)]
  simp [listed]

end Accesses

/-! ## Loops -/

section Loops

variable {σ : Type*}

/-- `for (int i = start; i < stop; i += stride) body`. The increment is checked. -/
def forInt (stop stride : Nat) (positive : 0 < stride) (body : Nat → σ → Except Fault σ)
    (i : Nat) (s : σ) : Except Fault σ :=
  if i < stop then
    match body i s with
    | .error fault => .error fault
    | .ok s =>
        if i + stride ≤ INT_MAX then forInt stop stride positive body (i + stride) s
        else .error .intOverflow
  else .ok s
termination_by stop - i

variable {stop stride : Nat} {positive : 0 < stride} {body : Nat → σ → Except Fault σ}

theorem forInt_done {i : Nat} (s : σ) (done : stop ≤ i) :
    forInt stop stride positive body i s = .ok s := by
  rw [forInt, if_neg (Nat.not_lt.mpr done)]

theorem forInt_next {i : Nat} {s next : σ} (under : i < stop) (step : body i s = .ok next)
    (fits : i + stride ≤ INT_MAX) :
    forInt stop stride positive body i s = forInt stop stride positive body (i + stride) next := by
  rw [forInt, if_pos under, step]
  exact if_pos fits

/-- **The invariant rule.** A loop whose iterations return, keep the counter within
`int` and carry the invariant along returns with the invariant. -/
theorem forInt_invariant (stop : Nat) (positive : 0 < stride) (body : Nat → σ → Except Fault σ)
    (Inv : Nat → σ → Prop)
    (step : ∀ i < stop, ∀ s, Inv i s →
      i + stride ≤ INT_MAX ∧ ∃ next, body i s = .ok next ∧ Inv (i + stride) next)
    {i : Nat} {s : σ} (holds : Inv i s) :
    ∃ final k, forInt stop stride positive body i s = .ok final ∧ stop ≤ k ∧ Inv k final := by
  -- On the distance that is left.
  induction left : stop - i using Nat.strong_induction_on generalizing i s with
  | _ left ih =>
      rcases Nat.lt_or_ge i stop with under | done
      · obtain ⟨fits, next, made, carried⟩ := step i under s holds
        obtain ⟨final, k, returned, reached⟩ := ih (stop - (i + stride)) (by omega) carried rfl
        exact ⟨final, k, (forInt_next under made fits).trans returned, reached⟩
      · exact ⟨s, i, forInt_done s done, done, holds⟩

/-- The invariant rule for a loop that makes exactly `trips` iterations, with the
invariant indexed by the number of iterations. -/
theorem forInt_total (positive : 0 < stride) (body : Nat → σ → Except Fault σ) (init : σ)
    {trips start : Nat} (Inv : Nat → σ → Prop)
    (length : stop = start + stride * trips) (fits : stop ≤ INT_MAX)
    (step : ∀ k < trips, ∀ s, Inv k s →
      ∃ next, body (start + stride * k) s = .ok next ∧ Inv (k + 1) next) (holds : Inv 0 init) :
    ∃ final, forInt stop stride positive body start init = .ok final ∧ Inv trips final := by
  obtain ⟨final, i, returned, reached, k, rfl, within, done⟩ := forInt_invariant stop
    positive body (fun i s => ∃ k, i = start + stride * k ∧ k ≤ trips ∧ Inv k s)
    (by
      rintro i under s ⟨k, rfl, -, holds⟩
      have before : k < trips := Nat.lt_of_mul_lt_mul_left (a := stride) (by omega)
      have bound : stride * (k + 1) ≤ stride * trips := Nat.mul_le_mul_left stride before
      rw [Nat.mul_succ] at bound
      obtain ⟨next, made, carried⟩ := step k before s holds
      exact ⟨by omega, next, made, k + 1, by rw [Nat.mul_succ, Nat.add_assoc], before, carried⟩)
    ⟨0, by rw [Nat.mul_zero, Nat.add_zero], Nat.zero_le _, holds⟩
  have all : trips ≤ k := Nat.le_of_mul_le_mul_left (by omega) positive
  obtain rfl := Nat.le_antisymm within all
  exact ⟨final, returned, done⟩

/-- The first iteration of a loop that returned, and the loop from there on. -/
theorem forInt_cases {i : Nat} {s final : σ} (under : i < stop)
    (returned : forInt stop stride positive body i s = .ok final) :
    i + stride ≤ INT_MAX ∧ ∃ next, body i s = .ok next ∧
      forInt stop stride positive body (i + stride) next = .ok final := by
  rw [forInt, if_pos under] at returned
  cases made : body i s with
  | error fault =>
      rw [made] at returned
      cases returned
  | ok next =>
      rw [made] at returned
      dsimp only at returned
      split at returned
      · next fits => exact ⟨fits, next, rfl, returned⟩
      · cases returned

/-- **What a loop that returned has done.** Each of its iterations returned, and
the counter stayed within `int`. -/
theorem forInt_returned {i : Nat} {s final : σ}
    (returned : forInt stop stride positive body i s = .ok final) :
    ∀ k, i + stride * k < stop → i + stride * k + stride ≤ INT_MAX ∧
      ∃ before after, body (i + stride * k) before = .ok after := by
  intro k
  induction k generalizing i s with
  | zero =>
      intro under
      obtain ⟨fits, next, made, _⟩ := forInt_cases under returned
      exact ⟨fits, s, next, made⟩
  | succ k ih =>
      intro under
      obtain ⟨_, _, _, rest⟩ := forInt_cases (by omega) returned
      have same : i + stride * (k + 1) = i + stride + stride * k := by
        rw [Nat.mul_succ, Nat.add_assoc, Nat.add_comm stride]
      rw [same] at under ⊢
      exact ih rest under

/-- **The invariant rule for a loop that returned.** It does not ask that the
iterations return. -/
theorem forInt_preserves (Inv : σ → Prop)
    (keeps : ∀ i s next, body i s = .ok next → Inv s → Inv next) {i : Nat} {s final : σ}
    (returned : forInt stop stride positive body i s = .ok final) (holds : Inv s) :
    Inv final := by
  -- On the distance that is left.
  induction left : stop - i using Nat.strong_induction_on generalizing i s with
  | _ left ih =>
      rcases Nat.lt_or_ge i stop with under | done
      · obtain ⟨_, next, made, rest⟩ := forInt_cases under returned
        exact ih (stop - (i + stride)) (by omega) rest (keeps i s next made holds) rfl
      · rw [forInt_done s done] at returned
        exact Except.ok.inj returned ▸ holds

/-- **The filling rule.** When each iteration leaves the list at the length of
the target and extends the stretch on which it agrees with the target by
`stride` entries, the loop returns the target. -/
theorem forInt_fills {α : Type*} {trips : Nat} {body : Nat → List α → Except Fault (List α)}
    (target : List α) (length : target.length = stride * trips) (fits : target.length ≤ INT_MAX)
    (step : ∀ k < trips, ∀ v : List α, v.length = target.length →
      (∀ j < stride * k, v[j]? = target[j]?) →
      ∃ next, body (stride * k) v = .ok next ∧ next.length = target.length ∧
        ∀ j < stride * (k + 1), next[j]? = target[j]?)
    {init : List α} (size : init.length = target.length) :
    forInt target.length stride positive body 0 init = .ok target := by
  obtain ⟨final, returned, sameLength, agrees⟩ := forInt_total positive body init
    (fun k v => v.length = target.length ∧ ∀ j < stride * k, v[j]? = target[j]?)
    (length.trans (Nat.zero_add _).symm) fits
    (fun k under v ⟨sameLength, agrees⟩ => by
      rw [Nat.zero_add]
      exact step k under v sameLength agrees)
    ⟨size, fun j below => absurd below (Nat.not_lt_zero j)⟩
  rw [returned]
  congr 1
  apply List.ext_getElem?
  intro j
  rcases Nat.lt_or_ge j target.length with inside | outside
  · exact agrees j (length ▸ inside)
  · rw [List.getElem?_eq_none outside, List.getElem?_eq_none (sameLength ▸ outside)]

end Loops

/-! ## Loops that cannot fault -/

section Total

/-- **The invariant rule for counted loops.** -/
theorem fold_invariant {α : Type*} {n : Nat} (Inv : Nat → α → Prop)
    {body : (i : Nat) → i < n → α → α} {init : α} (start : Inv 0 init)
    (step : ∀ (i : Nat) (bound : i < n) (a : α), Inv i a → Inv (i + 1) (body i bound a)) :
    Inv n (Nat.fold n body init) := by
  induction n with
  | zero => exact start
  | succ n ih =>
      rw [Nat.fold_succ]
      exact step n (Nat.lt_succ_self n) _
        (ih fun i bound a holds => step i (Nat.lt_succ_of_lt bound) a holds)

variable {α β : Type*} {forth : α → α} {back : β → β} {view : α → β}

/-- **Repeating the undoing step undoes the repetition.** -/
theorem iterate_undo (n : Nat) (a : α)
    (undo : ∀ m < n, back (view (forth (forth^[m] a))) = view (forth^[m] a)) :
    back^[n] (view (forth^[n] a)) = view a := by
  induction n with
  | zero => rfl
  | succ n ih =>
      have last : back (view (forth^[n + 1] a)) = view (forth^[n] a) := by
        rw [Function.iterate_succ_apply']
        exact undo n (Nat.lt_succ_self n)
      rw [Function.iterate_succ_apply, last]
      exact ih fun m below => undo m (Nat.lt_succ_of_lt below)

end Total

end ParallelLabs.Library
