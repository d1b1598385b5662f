import ParallelLabs.Decryptor.Search

/-!
# The key that a worker reports

A worker tries the keys of its stretch in order and stops at the first one that
decrypts the ciphertext to the message. Several keys may do so, and which of them
is reported by whom depends on nothing but the input: a worker that has returned
reports the first accepted key of its stretch (`result_firstHit`). It reports
nothing only if its stretch has none or if it has been stopped.

At each point all keys before the current one have been rejected (`FirstInv`). This
goes beyond `WorkerInv`, which excludes only the key of the message.
-/

set_option autoImplicit false

namespace ParallelLabs.Decryptor

open Library Twofish Encryptor Callables

variable {Handler : Type}

namespace Search

variable (search : Search)

/-- The keys of a worker, in the order in which it tries them. -/
def keys (i : Nat) : List Nat := stretch (i * search.step) search.step search.rangeEnd.toNat 0

/-- The worker accepts a key. -/
def accepts (key : Nat) : Bool :=
  match decryptWithKey (BitVec.ofNat 32 key) search.encrypted with
  | .ok value => success search.message value
  | .error _ => false

/-- The result of the first accepted key of a worker. -/
def firstHit (i : Nat) : Option DecryptionResult :=
  ((search.keys i).find? search.accepts).map fun key => ⟨search.message, BitVec.ofNat 32 key⟩

/-- The first `j` keys of a worker are rejected. -/
def Rejected (i j : Nat) : Prop := ∀ m < j, search.accepts (i * search.step + m) = false

/-- What holds of the fields of worker `i` at each point, when its generator is at
`j`, given whether it has been stopped. -/
def FirstPoint (stopped : Prop) (i j : Nat) (f : Fields Handler DecryptionResult) :
    Point ArgType → Prop
  | .test | .fetch => search.Rejected i j
  | .poll _ | .invoke _ | .judge => search.Rejected i (j - 1)
  | .notify => f.result = search.firstHit i
  | .idle => (f.hasResultFlag = true → f.result = search.firstHit i) ∧
      (f.hasResultFlag = false → stopped ∨ search.firstHit i = none)

/-- **All keys before the current one are rejected.** -/
def FirstInv (stopped : Prop) (i : Nat) (w : Worker Handler) : Prop :=
  ∀ j : Nat, w.seq.j = j → search.FirstPoint stopped i j w.state.fields w.state.point

/-- A worker's check has returned false or a call of its `run` has thrown. -/
def Stopped {n : Nat} (events : List (Fin n × Event Handler ArgType DecryptionResult))
    (i : Fin n) : Prop :=
  (i, .checkNextSyncCall false) ∈ events ∨ (i, .throws) ∈ events

variable {search}

/-! ## The first accepted key -/

/-- Rejected keys are passed over. -/
theorem Rejected.find? {i j : Nat} (rejected : search.Rejected i j) :
    (search.keys i).find? search.accepts =
      (stretch (i * search.step) search.step search.rangeEnd.toNat j).find? search.accepts := by
  induction j with
  | zero => rfl
  | succ j ih =>
      rw [ih fun m below => rejected m (Nat.lt_succ_of_lt below)]
      by_cases inside : j ≤ search.step ∧ i * search.step + j ≤ search.rangeEnd.toNat
      · rw [stretch_cons inside.1 inside.2, List.find?_cons_of_neg]
        rw [rejected j (Nat.lt_succ_self j)]
        exact Bool.false_ne_true
      · rw [stretch_nil (j := j) (by omega), stretch_nil (j := j + 1) (by omega)]

/-- The first key after rejected ones that is accepted. -/
theorem Rejected.firstHit {i m : Nat} (rejected : search.Rejected i m) (within : m ≤ search.step)
    (below : i * search.step + m ≤ search.rangeEnd.toNat)
    (accepted : search.accepts (i * search.step + m) = true) :
    search.firstHit i = some ⟨search.message, BitVec.ofNat 32 (i * search.step + m)⟩ := by
  rw [Search.firstHit, rejected.find?, stretch_cons within below,
    List.find?_cons_of_pos accepted, Option.map_some]

/-- A stretch of rejected keys. -/
theorem Rejected.firstHit_none {i j : Nat} (rejected : search.Rejected i j)
    (ended : search.step < j ∨ search.rangeEnd.toNat < i * search.step + j) :
    search.firstHit i = none := by
  rw [Search.firstHit, rejected.find?, stretch_nil ended, List.find?_nil, Option.map_none]

/-- One more rejected key. -/
theorem Rejected.succ {i m : Nat} (rejected : search.Rejected i m)
    (next : search.accepts (i * search.step + m) = false) : search.Rejected i (m + 1) := by
  intro m' below
  rcases Nat.lt_succ_iff_lt_or_eq.mp below with earlier | rfl
  · exact rejected m' earlier
  · exact next

/-- The answer of the result checker is whether the key is accepted. -/
theorem Trying.accepts_eq {i m : Nat} {args : ArgType} {value : DecryptionResult}
    (trying : search.Trying i m args) (computed : decryptWithKey args.1 args.2 = .ok value) :
    search.accepts (i * search.step + m) = success search.message value := by
  rw [trying.same] at computed
  rw [accepts, computed]

/-- A result carries the key that it was computed with. -/
theorem key_of_decryptWithKey {key : Word} {encrypted : List Byte} {value : DecryptionResult}
    (computed : decryptWithKey key encrypted = .ok value) : value.key = key := by
  rw [decryptWithKey] at computed
  obtain ⟨_, -, same⟩ := bind_eq_ok.mp computed
  cases same
  rfl

/-! ## One step of one worker -/

theorem FirstInv.mono {stopped stopped' : Prop} (later : stopped → stopped') {i : Nat}
    {w : Worker Handler} (first : search.FirstInv stopped i w) : search.FirstInv stopped' i w := by
  intro j at'
  have point := first j at'
  cases here : w.state.point with
  | idle =>
      rw [here] at point
      exact ⟨point.1, fun unset => (point.2 unset).imp_left later⟩
  | test | fetch | poll args | invoke args | judge | notify =>
      rw [here] at point
      exact point

section WorkerStep

variable {notified notified' : Bool} {stopped : Prop} {i : Nat} {w : Worker Handler}
  {event : Event Handler ArgType DecryptionResult} {state : State Handler ArgType DecryptionResult}
  {seq : DecryptorSequence}

/-- **A step of a worker rejects at most the current key.** -/
theorem FirstInv.step (under : i < search.numThreads.toNat) (inv : search.WorkerInv notified i w)
    (first : search.FirstInv stopped i w) (own : MapCallable.Step w.state event state)
    (answers : Answers search.message notified w.state.point w.seq event seq notified') :
    search.FirstInv (stopped ∨ event = .checkNextSyncCall false ∨ event = .throws) i
      ⟨state, seq⟩ := by
  obtain ⟨notifies, handled, j, generator, point⟩ := inv
  obtain ⟨s, seq₀⟩ := w
  subst generator
  have before := first j rfl
  intro j' at'
  cases own with
  | run f set => cases answers
  | more f =>
      cases answers with
      | hasNext computed =>
          obtain rfl := Int.ofNat_inj.mp at'
          exact before
  | exhausted f =>
      obtain ⟨unset, within, missed⟩ := point
      cases answers with
      | hasNext computed =>
          obtain rfl := Int.ofNat_inj.mp at'
          rw [DecryptorSequence.hasNext_natCast _ _ (fits_of_within under within), Except.ok.injEq,
            Bool.and_eq_false_iff, decide_eq_false_iff_not, decide_eq_false_iff_not] at computed
          have ended := Rejected.firstHit_none before (by omega)
          exact ⟨fun flag => absurd (unset.symm.trans flag) Bool.false_ne_true, fun _ => .inr ended⟩
  | next f args =>
      obtain ⟨unset, within, below, missed⟩ := point
      cases answers with
      | next computed =>
          have room := fits_of_within under (Nat.succ_le_succ within)
          rw [DecryptorSequence.next_natCast _ _ (by omega) (by omega), Except.ok.injEq,
            Prod.mk.injEq] at computed
          obtain ⟨rfl, rfl⟩ := computed
          obtain rfl := Int.ofNat_inj.mp at'
          exact before
  | goOn f args handler set =>
      cases answers with
      | goOn =>
          obtain rfl := Int.ofNat_inj.mp at'
          exact before
  | stop f args handler set =>
      cases answers with
      | stop allowed =>
          exact ⟨fun flag => absurd (point.1.symm.trans flag) Bool.false_ne_true,
            fun _ => .inl (.inr (.inl rfl))⟩
  | call f args value =>
      cases answers with
      | call computed =>
          obtain rfl := Int.ofNat_inj.mp at'
          exact before
  | rejected f value stored =>
      obtain ⟨unset, finished, m, args, value', counted, trying, stored', computed⟩ := point
      obtain rfl : value' = value := Option.some.inj (stored'.symm.trans stored)
      subst counted
      cases answers with
      | resultChecker answered =>
          obtain rfl := Int.ofNat_inj.mp at'
          exact Rejected.succ before ((trying.accepts_eq computed).trans answered)
  | accepted f value stored =>
      obtain ⟨unset, finished, m, args, value', counted, trying, stored', computed⟩ := point
      obtain rfl : value' = value := Option.some.inj (stored'.symm.trans stored)
      subst counted
      cases answers with
      | resultChecker answered =>
          have should : f.should_call_sighandler = true := notifies
          have found : search.firstHit i =
              some ⟨search.message, BitVec.ofNat 32 (i * search.step + m)⟩ :=
            Rejected.firstHit before trying.within trying.below
              ((trying.accepts_eq computed).trans answered)
          have key : value'.key = BitVec.ofNat 32 (i * search.step + m) :=
            (key_of_decryptWithKey computed).trans (congrArg Prod.fst trying.same)
          rw [success, beq_iff_eq] at answered
          rw [if_pos should]
          show f.result = _
          rw [stored, found, ← answered, ← key]
  | handleSuccess f handler set =>
      cases answers with
      | handleSuccess =>
          exact ⟨fun _ => before,
            fun unset => absurd (unset.symm.trans point.2.1) Bool.false_ne_true⟩
  | throws f p running =>
      cases answers with
      | checkThrows allowed polling =>
          subst polling
          exact ⟨fun flag => absurd (point.1.symm.trans flag) Bool.false_ne_true,
            fun _ => .inl (.inr (.inr rfl))⟩
      | handleThrows notifying =>
          subst notifying
          exact ⟨fun _ => before,
            fun unset => absurd (unset.symm.trans point.2.1) Bool.false_ne_true⟩

end WorkerStep

/-! ## All workers -/

theorem stopped_snoc {n : Nat} {events : List (Fin n × Event Handler ArgType DecryptionResult)}
    {i j : Fin n} {event : Event Handler ArgType DecryptionResult} :
    Stopped (events ++ [(j, event)]) i ↔ Stopped events i ∨
      i = j ∧ (event = .checkNextSyncCall false ∨ event = .throws) := by
  simp only [Stopped, List.mem_append, List.mem_singleton, Prod.mk.injEq, eq_comm (b := event)]
  tauto

theorem not_stopped_nil {n : Nat} (i : Fin n) :
    ¬ Stopped ([] : List (Fin n × Event Handler ArgType DecryptionResult)) i := by
  rintro (member | member) <;> cases member

theorem stopped_append {n : Nat}
    {events later : List (Fin n × Event Handler ArgType DecryptionResult)} {i : Fin n} :
    Stopped (events ++ later) i ↔ Stopped events i ∨ Stopped later i := by
  simp only [Stopped, List.mem_append]
  tauto

theorem stopped_singleton {n : Nat} {i j : Fin n} {event : Event Handler ArgType DecryptionResult} :
    Stopped [(j, event)] i ↔ i = j ∧ (event = .checkNextSyncCall false ∨ event = .throws) := by
  simp only [Stopped, List.mem_singleton, Prod.mk.injEq, eq_comm (b := event)]
  tauto

theorem expected_of_prepareMapped (search : Search) {prepared : Prepared DecryptorSequence}
    (prepare : prepareMappedFunctions 0 search.rangeEnd search.numThreads search.message
      search.encrypted = .ok prepared) : prepared.expected = search.message := by
  rw [prepareMappedFunctions_eq (Nat.zero_le _) search.threads (size_fits 0 search.fits),
    Except.ok.injEq] at prepare
  rw [← prepare]

/-- The generators start at their first key. -/
theorem fresh_of_prepareMapped (search : Search) {prepared : Prepared DecryptorSequence}
    (prepare : prepareMappedFunctions 0 search.rangeEnd search.numThreads search.message
      search.encrypted = .ok prepared) : ∀ seq ∈ prepared.workers, seq.j = 0 := by
  rw [prepareMappedFunctions_eq (Nat.zero_le _) search.threads (size_fits 0 search.fits),
    Except.ok.injEq] at prepare
  subst prepare
  intro seq member
  obtain ⟨i, -, rfl⟩ := List.mem_map.mp member
  rfl

/-! ## Stopped before the first call -/

/-- What holds of the fields of a worker at each point, when its generator is at `j`, given
whether it has been stopped: nothing has been stored before the first call. -/
def UntriedPoint (stopped : Prop) (j : Int) (f : Fields Handler DecryptionResult) :
    Point ArgType → Prop
  | .test | .fetch => ¬ stopped ∧ 0 ≤ j ∧ (j = 0 → f.result = none)
  | .poll _ => ¬ stopped ∧ 0 < j ∧ (j = 1 → f.result = none)
  | .invoke _ | .judge => ¬ stopped ∧ 0 < j
  | .notify => ¬ stopped ∧ f.hasResultFlag = true
  | .idle => stopped → f.hasResultFlag = false → j = 1 → f.result = none

/-- **A worker that is stopped at its first tuple has stored nothing.** -/
def UntriedInv (stopped : Prop) (w : Worker Handler) : Prop :=
  UntriedPoint stopped w.seq.j w.state.fields w.state.point

theorem UntriedInv.step {expected : List Byte} {notified notified' : Bool} {stopped : Prop}
    {w : Worker Handler} {event : Event Handler ArgType DecryptionResult}
    {state : State Handler ArgType DecryptionResult} {seq : DecryptorSequence}
    (untried : UntriedInv stopped w) (own : MapCallable.Step w.state event state)
    (answers : Answers expected notified w.state.point w.seq event seq notified') :
    UntriedInv (stopped ∨ event = .checkNextSyncCall false ∨ event = .throws) ⟨state, seq⟩ := by
  obtain ⟨s, seq₀⟩ := w
  -- An event that is no stop.
  have goesOn : ¬ stopped → event ≠ .checkNextSyncCall false → event ≠ .throws →
      ¬ (stopped ∨ event = .checkNextSyncCall false ∨ event = .throws) := by
    rintro free check throws (earlier | now | now)
    · exact free earlier
    · exact check now
    · exact throws now
  cases own with
  | run f set => cases answers
  | more f =>
      cases answers with
      | hasNext computed => exact ⟨goesOn untried.1 nofun nofun, untried.2⟩
  | exhausted f => exact fun stop => absurd stop (goesOn untried.1 nofun nofun)
  | next f args =>
      obtain ⟨free, started, fresh⟩ := untried
      cases answers with
      | next computed =>
          obtain ⟨_, _, counted, _, rfl⟩ := DecryptorSequence.next_cases computed
          refine ⟨goesOn free nofun nofun, Int.lt_add_one_of_le started, fun one => fresh ?_⟩
          have one : seq₀.j + 1 = 1 := one
          show seq₀.j = 0
          omega
  | goOn f args handler set =>
      cases answers with
      | goOn => exact ⟨goesOn untried.1 nofun nofun, untried.2.1⟩
  | stop f args handler set =>
      cases answers with
      | stop allowed => exact fun _ _ => untried.2.2
  | call f args value =>
      cases answers with
      | call computed => exact ⟨goesOn untried.1 nofun nofun, untried.2⟩
  | rejected f value stored =>
      cases answers with
      | resultChecker answered =>
          exact ⟨goesOn untried.1 nofun nofun, Int.le_of_lt untried.2, fun zero =>
            absurd zero (Int.ne_of_gt untried.2)⟩
  | accepted f value stored =>
      cases answers with
      | resultChecker answered =>
          by_cases should : f.should_call_sighandler = true
          · rw [if_pos should]
            exact ⟨goesOn untried.1 nofun nofun, rfl⟩
          · rw [if_neg should]
            exact ⟨goesOn untried.1 nofun nofun, Int.le_of_lt untried.2, fun zero =>
              absurd zero (Int.ne_of_gt untried.2)⟩
  | handleSuccess f handler set => exact fun stop => absurd stop (goesOn untried.1 nofun nofun)
  | throws f p running =>
      cases answers with
      | checkThrows allowed polling =>
          subst polling
          exact fun _ _ => untried.2.2
      | handleThrows notifying =>
          subst notifying
          exact fun _ unset => absurd (unset.symm.trans untried.2) Bool.false_ne_true

theorem untried_of_run {n : Nat} {prepared : Prepared DecryptorSequence}
    (fresh : ∀ seq ∈ prepared.workers, seq.j = 0)
    {events : List (Fin n × Event Handler ArgType DecryptionResult)} {s : System Handler n}
    (run : Run (System.Step prepared.expected) (Entered prepared) events s) (i : Fin n) :
    UntriedInv (Stopped events i) (s.workers i) := by
  induction run with
  | start entered =>
      obtain ⟨⟨handler, state⟩, seq⟩ := entered.2 i
      rw [UntriedInv, fresh _ (List.mem_of_getElem? seq), state]
      exact ⟨not_stopped_nil i, Int.le_refl 0, fun _ => rfl⟩
  | @snoc events s event s' run next ih =>
      cases next with
      | worker k own answers =>
          by_cases same : i = k
          · subst same
            dsimp only
            rw [Function.update_self, stopped_snoc]
            simpa only [true_and] using ih.step own answers
          · dsimp only
            rw [Function.update_of_ne same, stopped_snoc]
            simpa only [same, false_and, or_false] using ih

/-- **The first keys of a run.** -/
theorem firstInv_of_run (search : Search) {prepared : Prepared DecryptorSequence}
    (prepare : prepareMappedFunctions 0 search.rangeEnd search.numThreads search.message
      search.encrypted = .ok prepared)
    {events : List (Fin search.numThreads.toNat × Event Handler ArgType DecryptionResult)}
    {s : System Handler search.numThreads.toNat}
    (run : Run (System.Step prepared.expected) (Entered prepared) events s)
    (i : Fin search.numThreads.toNat) :
    search.FirstInv (Stopped events i) i (s.workers i) := by
  induction run with
  | start entered =>
      rw [prepareMappedFunctions_eq (Nat.zero_le _) search.threads (size_fits 0 search.fits),
        Except.ok.injEq] at prepare
      subst prepare
      obtain ⟨_, workers⟩ := entered
      obtain ⟨⟨handler, state⟩, seq⟩ := workers i
      rw [List.getElem?_map, List.getElem?_range i.isLt, Option.map_some, Option.some.injEq] at seq
      intro j at'
      rw [← seq] at at'
      obtain rfl : 0 = j := Int.ofNat_inj.mp at'
      rw [state]
      exact fun m below => absurd below (Nat.not_lt_zero m)
  | snoc run next ih =>
      have inv := systemInv_of_run search prepare run
      rw [expected_of_prepareMapped search prepare] at next
      cases next with
      | worker k own answers =>
          by_cases same : i = k
          · subst same
            dsimp only
            rw [Function.update_self]
            refine (ih.step i.isLt (inv.workers i) own answers).mono ?_
            rw [stopped_snoc]
            exact Or.imp_right fun stop => ⟨rfl, stop⟩
          · dsimp only
            rw [Function.update_of_ne same]
            exact ih.mono fun earlier => stopped_snoc.mpr (.inl earlier)

end Search

end ParallelLabs.Decryptor
