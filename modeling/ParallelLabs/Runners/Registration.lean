import Mathlib.Data.BitVec
import Mathlib.Data.List.Pairwise
import Mathlib.Logic.Function.Basic

/-!
# `AbstractTemplatedParallelRunner.h`: adding callables

`add` makes an entry, numbers it by the entries before it, and sets a handler that
spares the thread of this number. The number is stored in the entry, but the handler
is stored in the callable, and in all callables that it holds. A success is notified
by a `Callable` or `MapCallable` whose `should_call_sighandler` is set, and by every
`MultipleCallable` above the one that had it, each through the handler of its own. So
an `add` takes the handler of an earlier entry away when its callable is, or holds, a
callable that notifies for that entry (`registered_concat`).

After a sequence of calls every entry still has the handler of its own number
exactly when none of them has done so (`registered_iff`).
-/

set_option autoImplicit false

namespace ParallelLabs.Runners

/-- A callable by the address of its object: a `Callable` or `MapCallable` with its flag
`should_call_sighandler`, or a `MultipleCallable` with those that it holds. -/
inductive Callable where
  | single (address : Nat) (shouldCallSighandler : Bool)
  | multiple (address : Nat) (callables : List Callable)

/-- A handler of `get_signal_handler`: the call of `kill_except` for a number. -/
structure Handler where
  innerProcessId : BitVec 16
  deriving DecidableEq, Repr

/-- The fields `_sighandler` of the callables, by address. -/
abbrev Handlers : Type := Nat → Option Handler

/-- An entry of `_proccesses`. -/
structure Entry where
  executable : Callable
  innerUid : BitVec 16

structure Runner where
  processes : List Entry
  sighandlers : Handlers

namespace Callable

mutual
/-- `set_sig_handler`. -/
def setSigHandler (handler : Handler) : Callable → Handlers → Handlers
  | .single address _, sighandlers => Function.update sighandlers address (some handler)
  | .multiple address callables, sighandlers =>
      setSigHandlers handler callables (Function.update sighandlers address (some handler))

def setSigHandlers (handler : Handler) : List Callable → Handlers → Handlers
  | [], sighandlers => sighandlers
  | c :: cs, sighandlers => setSigHandlers handler cs (c.setSigHandler handler sighandlers)
end

mutual
/-- The callable and all that it holds. -/
def addresses : Callable → List Nat
  | .single address _ => [address]
  | .multiple address callables => address :: addressesOf callables

def addressesOf : List Callable → List Nat
  | [] => []
  | c :: cs => c.addresses ++ addressesOf cs
end

mutual
/-- The objects that call `handle_success` in `run`. That of a `MultipleCallable` does so
without a look at `should_call_sighandler`. -/
def notifying : Callable → List Nat
  | .single address shouldCallSighandler => if shouldCallSighandler then [address] else []
  | .multiple address callables => address :: notifyingOf callables

def notifyingOf : List Callable → List Nat
  | [] => []
  | c :: cs => c.notifying ++ notifyingOf cs
end

mutual
theorem notifying_subset : ∀ c : Callable, c.notifying ⊆ c.addresses
  | .single _ true => List.Subset.refl _
  | .single _ false => List.nil_subset _
  | .multiple address callables =>
      List.cons_subset_cons address (notifyingOf_subset callables)

theorem notifyingOf_subset : ∀ cs : List Callable, notifyingOf cs ⊆ addressesOf cs
  | [] => List.Subset.refl _
  | c :: cs => by
      rw [notifyingOf, addressesOf]
      refine List.append_subset.mpr ⟨?_, ?_⟩
      · exact List.subset_append_of_subset_left _ (notifying_subset c)
      · exact List.subset_append_of_subset_right _ (notifyingOf_subset cs)
end

mutual
/-- The handler is set in the callable and all that it holds, and nowhere else. -/
theorem setSigHandler_apply (handler : Handler) : ∀ (c : Callable) (sighandlers : Handlers)
    (a : Nat), c.setSigHandler handler sighandlers a =
      if a ∈ c.addresses then some handler else sighandlers a
  | .single address _, sighandlers, a => by
      rw [setSigHandler, addresses, Function.update_apply]
      simp only [List.mem_singleton]
  | .multiple address callables, sighandlers, a => by
      rw [setSigHandler, addresses, setSigHandlers_apply, Function.update_apply]
      by_cases held : a ∈ addressesOf callables
      · rw [if_pos held, if_pos (List.mem_cons_of_mem _ held)]
      · simp only [List.mem_cons, held, or_false, if_false]

theorem setSigHandlers_apply (handler : Handler) : ∀ (cs : List Callable)
    (sighandlers : Handlers) (a : Nat), setSigHandlers handler cs sighandlers a =
      if a ∈ addressesOf cs then some handler else sighandlers a
  | [], _, _ => rfl
  | c :: cs, sighandlers, a => by
      rw [setSigHandlers, addressesOf, setSigHandlers_apply, setSigHandler_apply]
      by_cases later : a ∈ addressesOf cs
      · rw [if_pos later, if_pos (List.mem_append_right _ later)]
      · simp only [List.mem_append, later, or_false, if_false]
end

end Callable

/-! ## The methods of the runner -/

/-- `get_signal_handler`. -/
def getSignalHandler (process : Entry) : Handler := ⟨process.innerUid⟩

/-- `kill_except`: the threads that it cancels, of those that have the flag. -/
def killExcept (innerProcessId : BitVec 16) (running : List Bool) : List Nat :=
  (List.range running.length).filter fun i =>
    i != innerProcessId.toNat && running.getD i false

namespace Runner

/-- A new runner, with callables that may have been in use before. -/
def make (sighandlers : Handlers) : Runner := ⟨[], sighandlers⟩

/-- `add`. -/
def add (r : Runner) (func : Callable) : Runner :=
  let process : Entry := ⟨func, BitVec.ofNat 16 r.processes.length⟩
  let handler := getSignalHandler process
  ⟨r.processes ++ [process], process.executable.setSigHandler handler r.sighandlers⟩

/-- A sequence of calls of `add`. -/
def addAll (sighandlers : Handlers) (funcs : List Callable) : Runner :=
  funcs.foldl add (make sighandlers)

/-- **An entry is registered** under its index: it has that number, whatever notifies for
it has the handler for that number, and the handler spares exactly the thread of that
index. -/
structure RegisteredAt (r : Runner) (i : Nat) (process : Entry) : Prop where
  innerUid : process.innerUid.toNat = i
  handler : ∀ a ∈ process.executable.notifying,
    r.sighandlers a = some (getSignalHandler process)
  spares : ∀ a ∈ process.executable.notifying, ∀ (handler : Handler) (running : List Bool),
    r.sighandlers a = some handler →
      killExcept handler.innerProcessId running =
        (List.range running.length).filter fun j => j != i && running.getD j false

def Registered (r : Runner) : Prop :=
  ∀ (i : Nat) (process : Entry), r.processes[i]? = some process → r.RegisteredAt i process

end Runner

/-! ## One call of `add` -/

section Add

open Runner

variable (sighandlers : Handlers) (funcs : List Callable)

theorem addAll_concat (func : Callable) :
    addAll sighandlers (funcs ++ [func]) = (addAll sighandlers funcs).add func := by
  rw [addAll, List.foldl_concat, addAll]

/-- The entries are the callables added, each with its number. -/
theorem processes_addAll : (addAll sighandlers funcs).processes =
    funcs.mapIdx fun i func => ⟨func, BitVec.ofNat 16 i⟩ := by
  induction funcs using List.reverseRecOn with
  | nil => rfl
  | append_singleton funcs func ih =>
      rw [addAll_concat, add, ih, List.mapIdx_concat, List.length_mapIdx]

/-- The handlers after one more call. -/
theorem sighandlers_concat (func : Callable) (a : Nat) :
    (addAll sighandlers (funcs ++ [func])).sighandlers a =
      if a ∈ func.addresses then some ⟨BitVec.ofNat 16 funcs.length⟩
      else (addAll sighandlers funcs).sighandlers a := by
  rw [addAll_concat, add, processes_addAll, List.length_mapIdx]
  exact Callable.setSigHandler_apply _ func _ a

variable {sighandlers funcs}

/-- An entry is registered when what notifies for it has the handler of its number. -/
theorem registeredAt_iff {i : Nat} {func : Callable} (few : i < 65536) {r : Runner} :
    r.RegisteredAt i ⟨func, BitVec.ofNat 16 i⟩ ↔
      ∀ a ∈ func.notifying, r.sighandlers a = some ⟨BitVec.ofNat 16 i⟩ := by
  have number : (BitVec.ofNat 16 i).toNat = i := by
    rw [BitVec.toNat_ofNat]
    exact Nat.mod_eq_of_lt few
  constructor
  · exact RegisteredAt.handler
  · refine fun handler => ⟨number, handler, fun a notifies other running same => ?_⟩
    obtain rfl := Option.some.inj ((handler a notifies).symm.trans same)
    rw [killExcept, number]

theorem registered_addAll_iff (few : funcs.length ≤ 65536) :
    (addAll sighandlers funcs).Registered ↔ ∀ (i : Nat) (func : Callable),
      funcs[i]? = some func → ∀ a ∈ func.notifying,
        (addAll sighandlers funcs).sighandlers a = some ⟨BitVec.ofNat 16 i⟩ := by
  rw [Registered, processes_addAll]
  simp only [List.getElem?_mapIdx, Option.map_eq_some_iff]
  constructor
  · intro registered i func at'
    have under := (List.getElem?_eq_some_iff.mp at').1
    exact (registeredAt_iff (by omega)).mp (registered i _ ⟨func, at', rfl⟩)
  · rintro handled i _ ⟨func, at', rfl⟩
    have under := (List.getElem?_eq_some_iff.mp at').1
    exact (registeredAt_iff (by omega)).mpr (handled i func at')

/-- **A call of `add` keeps the entries registered** if and only if the new callable
neither is nor holds a callable that notifies for one of them. -/
theorem registered_concat {func : Callable} (few : (funcs ++ [func]).length ≤ 65536) :
    (addAll sighandlers (funcs ++ [func])).Registered ↔
      (addAll sighandlers funcs).Registered ∧
        ∀ earlier ∈ funcs, ∀ a ∈ earlier.notifying, a ∉ func.addresses := by
  have few' := few
  rw [List.length_append, List.length_singleton] at few'
  rw [registered_addAll_iff few, registered_addAll_iff (by omega)]
  simp only [sighandlers_concat]
  constructor
  · intro handled
    have apart : ∀ (i : Nat) (earlier : Callable), funcs[i]? = some earlier →
        ∀ a ∈ earlier.notifying, a ∉ func.addresses := by
      intro i earlier at' a notifies held
      have under := (List.getElem?_eq_some_iff.mp at').1
      have mine := handled i earlier ((List.getElem?_append_left under).trans at') a notifies
      rw [if_pos held, Option.some.injEq, Handler.mk.injEq] at mine
      have numbers := congrArg BitVec.toNat mine
      rw [BitVec.toNat_ofNat, BitVec.toNat_ofNat, Nat.mod_eq_of_lt (by omega),
        Nat.mod_eq_of_lt (by omega)] at numbers
      omega
    refine ⟨fun i earlier at' a notifies => ?_, fun earlier member => ?_⟩
    · have under := (List.getElem?_eq_some_iff.mp at').1
      have mine := handled i earlier ((List.getElem?_append_left under).trans at') a notifies
      rwa [if_neg (apart i earlier at' a notifies)] at mine
    · obtain ⟨i, at'⟩ := List.mem_iff_getElem?.mp member
      exact apart i earlier at'
  · rintro ⟨handled, apart⟩ i added at' a notifies
    rcases Nat.lt_or_ge i funcs.length with under | last
    · rw [List.getElem?_append_left under] at at'
      rw [if_neg (apart added (List.mem_of_getElem? at') a notifies)]
      exact handled i added at' a notifies
    · rw [List.getElem?_append_right last, List.getElem?_singleton] at at'
      split at at'
      · obtain rfl := Option.some.inj at'
        obtain rfl : i = funcs.length := by omega
        exact if_pos (func.notifying_subset notifies)
      · cases at'

/-- **All entries are registered** after a sequence of calls of `add` if and only if
no later callable is, or holds, a callable that notifies for an earlier entry. -/
theorem registered_iff (sighandlers : Handlers) (funcs : List Callable)
    (few : funcs.length ≤ 65536) :
    (addAll sighandlers funcs).Registered ↔
      funcs.Pairwise fun earlier later =>
        ∀ a ∈ earlier.notifying, a ∉ later.addresses := by
  induction funcs using List.reverseRecOn with
  | nil =>
      refine ⟨fun _ => .nil, fun _ i process at' => ?_⟩
      cases at'
  | append_singleton funcs func ih =>
      have fewer := few
      rw [List.length_append, List.length_singleton] at fewer
      rw [registered_concat few, ih (by omega), List.pairwise_append]
      simp only [List.pairwise_singleton, true_and, List.mem_singleton, forall_eq]

/-- A `MultipleCallable` that holds another one, and a `Callable`. -/
theorem registered_iff_two :
    (addAll (fun _ => none) [.multiple 1 [.multiple 2 [.single 3 false]],
        .single 4 true]).Registered ↔
      [Callable.multiple 1 [.multiple 2 [.single 3 false]], .single 4 true].Pairwise
        fun earlier later => ∀ a ∈ earlier.notifying, a ∉ later.addresses :=
  registered_iff _ _ (by decide)

/-- The inner `MultipleCallable` is added once more, and takes the handler along. -/
example : (addAll (fun _ => none) [.multiple 1 [.multiple 2 [.single 3 false]],
    .multiple 2 [.single 3 false]]).sighandlers 2 = some ⟨1⟩ := by decide

/-- The calls of `add` in the example of the README. -/
def readme : List Callable :=
  [.single 0 true, .single 2 true, .single 3 true, .single 1 true, .single 0 true]

/-- **A callable that is added twice.** After the calls of the README the handler of
the first entry is that of the fifth one. -/
theorem readme_not_registered :
    readme.length ≤ 65536 ∧ ¬ (addAll (fun _ => none) readme).Registered ∧
      (addAll (fun _ => none) readme).sighandlers 0 = some ⟨4⟩ ∧
      killExcept 4 [true, true, true, true, true] = [0, 1, 2, 3] := by
  refine ⟨by decide, fun registered => ?_, by decide, by decide⟩
  have first := (registered 0 ⟨.single 0 true, 0⟩ rfl).handler 0 (List.mem_singleton_self 0)
  revert first
  decide

end Add

end ParallelLabs.Runners
