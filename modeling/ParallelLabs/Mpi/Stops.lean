import ParallelLabs.Library.Termination
import ParallelLabs.Mpi.PointToPoint

/-!
# The stops of the point-to-point interrupter

No stop is lost and none is made twice: the stops on their way to a rank, with those
delivered there, are as many as the successes that were reported, and one more for each
rank that is inside `handle_success` and has sent to that rank (`stops_conserved`).

A stop is heard by one callable at most. A check that returns false is the first one of
its interrupter, and its receive has got a message of its own (`stops_heard`).
-/

set_option autoImplicit false

namespace ParallelLabs.Mpi

open Library Callables

/-- A call of `handle_success` has returned. -/
def Event.succeeded : Event → Bool
  | .handleSuccess _ => true
  | .run _ | .work _ | .checkNextSyncCall _ | .test _ | .send _ | .returns _ | .deliver _ _ => false

/-- A rank inside `handle_success` has sent to rank `t`. -/
def Rank.passed (t : Nat) (rank : Rank) : Nat := if t < rank.sent then 1 else 0

section Conservation

variable {Object : Type} {size count : Nat} {callables : Nat → AbstractCallable Object}
  {w w' : World Object}

/-- The stops for rank `t` that were made. -/
def World.made (w : World Object) (size : Nat) (past : List Event) (t : Nat) : Nat :=
  past.countP Event.succeeded + ∑ r : Fin size, (w.ranks r).passed t

/-- The stops for rank `t` that are on their way or delivered. -/
def World.kept (w : World Object) (t : Nat) : Nat :=
  (w.inFlight t).length + (w.ranks t).messages.length

theorem countP_snoc (past : List Event) (event : Event) :
    (past ++ [event]).countP Event.succeeded =
      past.countP Event.succeeded + event.succeeded.toNat := by
  rw [List.countP_append, List.countP_singleton]
  cases event.succeeded <;> rfl

/-- A rank changes. -/
theorem sum_passed_update (ranks : Nat → Rank) {r : Nat} (below : r < size) (rank : Rank)
    (t : Nat) :
    ∑ r' : Fin size, (Function.update ranks r rank r').passed t + (ranks r).passed t =
      ∑ r' : Fin size, (ranks r').passed t + rank.passed t := by
  have changed := sum_add_of_ne (fun r' : Fin size => (ranks r').passed t)
    (fun r' : Fin size => (Function.update ranks r rank r').passed t) ⟨r, below⟩
    fun r' other => by rw [Function.update_of_ne fun same => other (Fin.ext same)]
  rwa [Function.update_self] at changed

/-- A rank does something other than sending. -/
theorem made_quiet {past : List Event} {event : Event} {r t : Nat} {rank : Rank}
    (below : r < size) (silent : event.succeeded = false)
    (ranks : w'.ranks = Function.update w.ranks r rank) (same : rank.sent = (w.ranks r).sent) :
    w'.made size (past ++ [event]) t = w.made size past t := by
  have sum := sum_passed_update w.ranks below rank t
  have kept : rank.passed t = (w.ranks r).passed t := by rw [Rank.passed, Rank.passed, same]
  rw [World.made, World.made, countP_snoc, silent, ranks, Bool.toNat_false]
  omega

/-- Nothing is sent or delivered. -/
theorem kept_quiet {r t : Nat} {rank : Rank} (inFlight : w'.inFlight = w.inFlight)
    (ranks : w'.ranks = Function.update w.ranks r rank)
    (same : rank.messages = (w.ranks r).messages) : w'.kept t = w.kept t := by
  rw [World.kept, World.kept, inFlight, ranks]
  by_cases here : t = r
  · subst here
    rw [Function.update_self, same]
  · rw [Function.update_of_ne here]

/-- `handle_success` sends one stop to the next rank. -/
theorem made_send {past : List Event} {r : Nat} (below : r < size) (t : Nat) :
    (w.send r).made size (past ++ [.send r]) t =
      w.made size past t + if t = (w.ranks r).sent then 1 else 0 := by
  have sum := sum_passed_update w.ranks below { w.ranks r with sent := (w.ranks r).sent + 1 } t
  rw [World.made, World.made, countP_snoc, World.send]
  simp only [Rank.passed, Event.succeeded, Bool.toNat_false] at sum ⊢
  split_ifs at sum ⊢ <;> omega

theorem kept_send (w : World Object) (r t : Nat) :
    (w.send r).kept t = w.kept t + if t = (w.ranks r).sent then 1 else 0 := by
  have same : ((w.send r).ranks t).messages = (w.ranks t).messages := by
    rw [World.send]
    by_cases here : t = r
    · subst here
      simp
    · simp [Function.update_of_ne here]
  rw [World.kept, World.kept, same, World.send]
  by_cases here : t = (w.ranks r).sent
  · subst here
    simp
    omega
  · simp [here]

/-- All stops of a success have been made. -/
theorem made_handleSuccess {past : List Event} {r : Nat} {rank : Rank} (below : r < size)
    (all : (w.ranks r).sent = size) (ranks : w'.ranks = Function.update w.ranks r rank)
    (none : rank.sent = 0) {t : Nat} (target : t < size) :
    w'.made size (past ++ [.handleSuccess r]) t = w.made size past t := by
  have sum := sum_passed_update w.ranks below rank t
  have before : (w.ranks r).passed t = 1 := by rw [Rank.passed, all, if_pos target]
  have after : rank.passed t = 0 := by rw [Rank.passed, none, if_neg (Nat.not_lt_zero t)]
  rw [World.made, World.made, countP_snoc, ranks, Event.succeeded, Bool.toNat_true]
  omega

theorem kept_deliver {r : Nat} {message : String} (sent : message ∈ w.inFlight r) (t : Nat) :
    (w.deliver r message).kept t = w.kept t := by
  rw [World.kept, World.kept, World.deliver]
  by_cases here : t = r
  · subst here
    have some : 0 < (w.inFlight t).length := List.length_pos_of_mem sent
    simp [List.length_erase_of_mem sent]
    omega
  · simp [Function.update_of_ne here]

/-- **No stop is lost and none is made twice.** At every rank, the stops on their way and
those delivered are one for each success reported, and one for each rank that is inside
`handle_success` and has sent to that rank. -/
theorem stops_conserved {events : List Event}
    (run : Run (World.Step size count callables) (Started callables) events w) {t : Nat}
    (target : t < size) :
    (w.inFlight t).length + (w.ranks t).messages.length =
      events.countP Event.succeeded + ∑ r : Fin size, if t < (w.ranks r).sent then 1 else 0 := by
  show w.kept t = w.made size events t
  induction run with
  | start started =>
      obtain ⟨ranks, -, -, inFlight, -⟩ := started
      rw [World.kept, World.made, inFlight]
      simp [ranks, Rank.passed]
  | snoc run step ih =>
      cases step with
      | run r below more outside own | checkAgain r below running own posted
      | checkFirst r below running own unposted | test r below called own
      | returns r below running own =>
          refine (Eq.trans ?_ ih).trans (Eq.symm ?_)
          · exact kept_quiet rfl rfl rfl
          · exact made_quiet below rfl rfl rfl
      | work r below running own =>
          refine ih.trans (Eq.symm ?_)
          exact made_quiet below rfl (Function.update_eq_self r _).symm rfl
      | send r below inside own next => rw [kept_send, made_send below, ih]
      | handleSuccess r below inside all own =>
          refine (Eq.trans ?_ ih).trans (Eq.symm ?_)
          · exact kept_quiet rfl rfl rfl
          · exact made_handleSuccess below all rfl rfl target
      | deliver r below sent =>
          refine ((kept_deliver sent t).trans ih).trans (Eq.symm ?_)
          exact made_quiet below rfl rfl rfl

end Conservation

/-- A rank that has sent one stop of two. -/
theorem stops_conserved_sending :
    ∃ (events : List Event) (w : World (State Unit Unit Bool)),
      Run (World.Step 2 2 fun id => .ofClass (callableFirst id))
        (Started fun id => .ofClass (callableFirst id)) events w ∧ w.inFlight 0 = [stop] ∧
      (w.inFlight 0).length + (w.ranks 0).messages.length =
        events.countP Event.succeeded + ∑ r : Fin 2, if 0 < (w.ranks r).sent then 1 else 0 := by
  have sending := run_added 2 2 callableFirst
    |>.snoc (.run 0 Nat.two_pos Nat.two_pos rfl (.inr (.run _ rfl)))
    |>.snoc (.work 0 Nat.two_pos ⟨⟨rfl, rfl⟩, rfl⟩ ⟨_, .call _ () true, .inr (.call _ true)⟩)
    |>.snoc (.work 0 Nat.two_pos ⟨⟨rfl, rfl⟩, rfl⟩
      ⟨_, .resultChecker _ true true, .inr (.accepted _ true rfl)⟩)
    |>.snoc (.send 0 Nat.two_pos ⟨rfl, rfl⟩ ⟨_, .inr (.handleSuccess _ () rfl)⟩ Nat.two_pos)
  exact ⟨_, _, sending, rfl, stops_conserved sending Nat.two_pos⟩

/-! ## Steps of another rank -/

/-- The rank of a step. -/
def Event.rank : Event → Nat
  | .run r | .work r | .checkNextSyncCall r | .test r | .send r | .handleSuccess r | .returns r
  | .deliver r _ => r

theorem World.Step.rank_lt {Object : Type} {size count : Nat}
    {callables : Nat → AbstractCallable Object} {w w' : World Object} {event : Event}
    (step : World.Step size count callables w event w') : event.rank < size := by
  cases step with
  | run _ below | work _ below | checkAgain _ below | checkFirst _ below | test _ below
  | send _ below | handleSuccess _ below | returns _ below | deliver _ below => exact below

/-- **A step of another rank** leaves the rank, its callables and their interrupters as
they are. -/
theorem World.Step.elsewhere {Object : Type} {size count : Nat}
    {callables : Nat → AbstractCallable Object} {w w' : World Object} {event : Event}
    (step : World.Step size count callables w event w') (inv : WorldInv size w) {r : Nat}
    (other : r ≠ event.rank) :
    w'.ranks r = w.ranks r ∧ ∀ id, id % size = r →
      w'.objects id = w.objects id ∧ w'.interrupters id = w.interrupters id := by
  have apart : ∀ {id id' : Nat}, event.rank < size → id % size = r → id' % size = event.rank →
      id ≠ id' := by
    rintro id _ below own own' rfl
    exact other (own.symm.trans own')
  cases step with
  | run r' below more outside own | handleSuccess r' below inside all own
  | returns r' below running own | test r' below called own =>
      refine ⟨Function.update_of_ne other _ _, fun id mine => ⟨?_, rfl⟩⟩
      exact Function.update_of_ne (apart below mine (inv.ranks r' below).counter) _ _
  | work r' below running own =>
      refine ⟨rfl, fun id mine => ⟨?_, rfl⟩⟩
      exact Function.update_of_ne (apart below mine (inv.ranks r' below).counter) _ _
  | checkAgain r' below running own posted | checkFirst r' below running own posted =>
      refine ⟨Function.update_of_ne other _ _, fun id mine => ⟨rfl, ?_⟩⟩
      exact Function.update_of_ne (apart below mine (inv.ranks r' below).counter) _ _
  | send r' below inside own next =>
      exact ⟨Function.update_of_ne other _ _, fun _ _ => ⟨rfl, rfl⟩⟩
  | @deliver r' message below sent =>
      refine ⟨Function.update_of_ne other _ _, fun id mine => ⟨rfl, ?_⟩⟩
      have matched := ((inv.ranks r' below).inOrder.deliver message).1
      rw [World.deliver]
      dsimp only
      cases taken : ((w.ranks r').box.deliver message).1 with
      | none => rfl
      | some taker =>
          have owned := (inv.ranks r' below).owned taker
            (List.mem_of_getElem? (matched.symm.trans taken))
          exact Function.update_of_ne (apart below mine owned) _ _

/-- A step adds a check of its rank, or none. -/
theorem World.Step.checks_cases {Object : Type} {size count : Nat}
    {callables : Nat → AbstractCallable Object} {w w' : World Object} {event : Event}
    (step : World.Step size count callables w event w') :
    w'.checks = w.checks ∨
      ∃ check : Check, check.rank = event.rank ∧ w'.checks = w.checks ++ [check] := by
  cases step with
  | test r below called own => exact .inr ⟨_, rfl, rfl⟩
  | run | work | checkAgain | checkFirst | send | handleSuccess | returns | deliver =>
      exact .inl rfl

/-! ## Who hears a stop -/

section Heard

variable {Object : Type} {size count : Nat} {callables : Nat → AbstractCallable Object}
  {w w' : World Object} {r : Nat}

/-- The positions of the receives that the first checks at a rank have tested. -/
def firsts (checks : List Check) (r : Nat) : List Nat :=
  (checks.filter fun check => check.rank = r ∧ check.call = 1).map Check.receives

/-- A rank is inside the first check of an interrupter. -/
def World.pending (w : World Object) (r : Nat) : Nat :=
  if (w.ranks r).checking ≠ none ∧ (w.current r).calls = 1 then 1 else 0

/-- **The first checks have tested receives of their own**, and one that is pending has
posted the last one. -/
structure HeardInv (w : World Object) (r : Nat) : Prop where
  increasing : (firsts w.checks r).Pairwise (· < ·)
  bound : ∀ k ∈ firsts w.checks r, 0 < k ∧ k + w.pending r ≤ (w.ranks r).receives.length
  delivered : ∀ check ∈ w.checks, check.rank = r →
    check.delivered ≤ (w.ranks r).messages.length

theorem firsts_snoc_of_not {checks : List Check} {check : Check}
    (other : ¬ (check.rank = r ∧ check.call = 1)) :
    firsts (checks ++ [check]) r = firsts checks r := by
  simp [firsts, List.filter_append, other]

theorem firsts_snoc {checks : List Check} {check : Check} (own : check.rank = r)
    (first : check.call = 1) :
    firsts (checks ++ [check]) r = firsts checks r ++ [check.receives] := by
  simp [firsts, List.filter_append, own, first]

/-- Nothing is checked at the rank. -/
theorem HeardInv.quiet (inv : HeardInv w r) (checks : w'.checks = w.checks)
    (pending : w'.pending r + (w.ranks r).receives.length ≤
      w.pending r + (w'.ranks r).receives.length)
    (messages : (w.ranks r).messages.length ≤ (w'.ranks r).messages.length) :
    HeardInv w' r := by
  refine ⟨checks ▸ inv.increasing, fun k member => ?_, fun check member own => ?_⟩
  · obtain ⟨positive, bound⟩ := inv.bound k (checks ▸ member)
    exact ⟨positive, by omega⟩
  · exact (inv.delivered check (checks ▸ member) own).trans messages

theorem pending_eq (checking : (w'.ranks r).checking = (w.ranks r).checking)
    (calls : (w'.current r).calls = (w.current r).calls) : w'.pending r = w.pending r := by
  rw [World.pending, World.pending, checking, calls]

theorem pending_of_free (free : (w.ranks r).checking = none) : w.pending r = 0 := by
  rw [World.pending, free]
  exact if_neg fun pending => pending.1 rfl

/-- A step of another rank. -/
theorem HeardInv.elsewhere (inv : HeardInv w r) {event : Event} (world : WorldInv size w)
    (below : r < size) (step : World.Step size count callables w event w')
    (other : r ≠ event.rank) : HeardInv w' r := by
  obtain ⟨rank, owned⟩ := step.elsewhere world other
  have calls : (w'.current r).calls = (w.current r).calls := by
    rw [World.current, World.current, rank, (owned _ (world.ranks r below).counter).2]
  have pending := pending_eq (congrArg Rank.checking rank) calls
  rcases step.checks_cases with same | ⟨check, there, added⟩
  · exact inv.quiet same (by rw [pending, rank]) (by rw [rank])
  · have apart : ¬ (check.rank = r ∧ check.call = 1) := fun own => other (own.1.symm.trans there)
    have firsts' : firsts w'.checks r = firsts w.checks r := by
      rw [added, firsts_snoc_of_not apart]
    refine ⟨firsts' ▸ inv.increasing, ?_, ?_⟩
    · rw [firsts', pending, rank]
      exact inv.bound
    · intro check' member own
      rw [added] at member
      rw [rank]
      rcases List.mem_append.mp member with earlier | last
      · exact inv.delivered check' earlier own
      · rw [List.mem_singleton.mp last] at own
        exact absurd (own.symm.trans there) other

/-- A check at the rank returns. -/
theorem HeardInv.test (inv : HeardInv w r) (world : WorldInv size w) (below : r < size)
    {deliveredBefore : Nat} (called : (w.ranks r).checking = some deliveredBefore)
    (object : Object) : HeardInv (w.test r deliveredBefore object) r := by
  have free : (w.test r deliveredBefore object).pending r = 0 :=
    pending_of_free (by rw [World.test]; simp)
  have receives : ((w.test r deliveredBefore object).ranks r).receives = (w.ranks r).receives := by
    rw [World.test]
    simp
  have messages : ((w.test r deliveredBefore object).ranks r).messages = (w.ranks r).messages := by
    rw [World.test]
    simp
  have busy : (w.ranks r).checking ≠ none := by
    rw [called]
    exact Option.some_ne_none deliveredBefore
  have delivered : ∀ check ∈ (w.test r deliveredBefore object).checks, check.rank = r →
      check.delivered ≤ ((w.test r deliveredBefore object).ranks r).messages.length := by
    intro check member own
    rw [messages]
    rcases List.mem_append.mp member with earlier | last
    · exact inv.delivered check earlier own
    · rw [List.mem_singleton.mp last]
  by_cases first : (w.current r).calls = 1
  · have pending : w.pending r = 1 := if_pos ⟨busy, first⟩
    have last := ((world.ranks r below).checking busy).2 first
    have posted : 0 < (w.ranks r).receives.length := by
      refine List.length_pos_iff.mpr fun nothing => ?_
      rw [nothing] at last
      cases last
    have added : firsts (w.test r deliveredBefore object).checks r =
        firsts w.checks r ++ [(w.ranks r).receives.length] := firsts_snoc rfl first
    refine ⟨?_, ?_, delivered⟩
    · rw [added, List.pairwise_append]
      refine ⟨inv.increasing, List.pairwise_singleton _ _, fun k member k' last => ?_⟩
      rw [List.mem_singleton.mp last]
      have bound := (inv.bound k member).2
      omega
    · intro k member
      rw [added] at member
      rw [free, receives]
      rcases List.mem_append.mp member with earlier | last
      · obtain ⟨positive, bound⟩ := inv.bound k earlier
        exact ⟨positive, by omega⟩
      · rw [List.mem_singleton.mp last]
        exact ⟨posted, Nat.le_refl _⟩
  · have same : firsts (w.test r deliveredBefore object).checks r = firsts w.checks r :=
      firsts_snoc_of_not fun own => first own.2
    refine ⟨same ▸ inv.increasing, fun k member => ?_, delivered⟩
    obtain ⟨positive, bound⟩ := inv.bound k (same ▸ member)
    rw [free, receives]
    exact ⟨positive, by omega⟩

/-- A delivery is no check. -/
theorem calls_deliver (r : Nat) (message : String) (id : Nat) :
    ((w.deliver r message).interrupters id).calls = (w.interrupters id).calls := by
  rw [World.deliver]
  dsimp only
  cases ((w.ranks r).box.deliver message).1 with
  | none => rfl
  | some taker =>
      show (Function.update w.interrupters taker ((w.interrupters taker).receive message)
        id).calls = (w.interrupters id).calls
      by_cases same : id = taker
      · subst same
        rw [Function.update_self, Interrupter.receive]
      · rw [Function.update_of_ne same]

/-- **A step keeps what the first checks have tested.** -/
theorem HeardInv.step (inv : HeardInv w r) (world : WorldInv size w) (below : r < size)
    {event : Event} (step : World.Step size count callables w event w') : HeardInv w' r := by
  by_cases own : r = event.rank
  · cases step with
    | run r' rank more outside moved | send r' rank inside moved next
    | handleSuccess r' rank inside all moved =>
        obtain rfl : r = r' := own
        refine inv.quiet rfl (le_of_eq ?_) (le_of_eq ?_)
        · congr 1
          · exact pending_eq (by simp [World.setRank, World.send])
              (by simp [World.current, World.setRank, World.setObject, World.send])
          · simp [World.setRank, World.send]
        · simp [World.setRank, World.send]
    | work r' rank running moved =>
        exact inv.quiet rfl (le_of_eq rfl) (le_of_eq rfl)
    | checkAgain r' rank running moved posted =>
        obtain rfl : r = r' := own
        have several : 0 < (w.current r).calls := (world.interrupters _).1.mp posted
        have none : (w.checkAgain r).pending r = 0 := by
          refine if_neg fun pending => ?_
          have calls : ((w.checkAgain r).current r).calls = (w.current r).calls + 1 := by
            simp [World.current, World.checkAgain, Interrupter.again]
          omega
        refine inv.quiet rfl ?_ (le_of_eq (by simp [World.checkAgain]))
        rw [none, show ((w.checkAgain r).ranks r).receives = (w.ranks r).receives by
          simp [World.checkAgain]]
        omega
    | checkFirst r' rank running moved unposted =>
        obtain rfl : r = r' := own
        refine inv.quiet rfl ?_ (le_of_eq (by simp [World.checkFirst]))
        have most : (w.checkFirst r).pending r ≤ 1 := by
          rw [World.pending]
          split <;> decide
        have posted : ((w.checkFirst r).ranks r).receives.length =
            (w.ranks r).receives.length + 1 := by
          simp [World.checkFirst]
        omega
    | test r' rank called moved =>
        obtain rfl : r = r' := own
        exact inv.test world rank called _
    | returns r' rank running moved =>
        obtain rfl : r = r' := own
        refine inv.quiet rfl (le_of_eq ?_) (le_of_eq (by simp [World.setRank]))
        rw [pending_of_free running.1.2,
          pending_of_free (by simpa [World.setRank] using running.1.2)]
        simp [World.setRank]
    | @deliver r' message rank sent =>
        obtain rfl : r = r' := own
        refine inv.quiet rfl (le_of_eq ?_) (by simp [World.deliver])
        congr 1
        · refine pending_eq (by simp [World.deliver]) ?_
          have counter : ((w.deliver r message).ranks r).counter = (w.ranks r).counter := by
            simp [World.deliver]
          rw [World.current, counter]
          exact calls_deliver r message _
        · simp [World.deliver]
  · exact inv.elsewhere world below step own

theorem worldInv_of_run {events : List Event}
    (run : Run (World.Step size count callables) (Started callables) events w) :
    WorldInv size w :=
  run.invariant (fun _ w => WorldInv size w) (fun _ started => .of_started started)
    (fun _ _ _ _ inv next => inv.step next)

theorem heardInv_of_run {events : List Event}
    (run : Run (World.Step size count callables) (Started callables) events w)
    (below : r < size) : HeardInv w r := by
  induction run with
  | start started =>
      refine ⟨?_, fun k member => ?_, fun check member => ?_⟩
      · rw [started.2.2.2.2]
        exact .nil
      · rw [started.2.2.2.2] at member
        cases member
      · rw [started.2.2.2.2] at member
        cases member
  | snoc run step ih => exact ih.step (worldInv_of_run run) below step

/-- **A stop is heard by one callable at most.** At every rank, the checks that have
returned false are no more than the stops delivered there, and each was the first check
of its interrupter. -/
theorem stops_heard {events : List Event}
    (run : Run (World.Step size count callables) (Started callables) events w)
    (below : r < size) :
    (w.checks.filter fun check => check.rank = r ∧ check.answer = false).length ≤
        (w.ranks r).messages.length ∧
      ∀ check ∈ w.checks, check.rank = r → check.answer = false → check.call = 1 := by
  have world := worldInv_of_run run
  have heard := heardInv_of_run run below
  have inTime : ∀ check ∈ w.checks, check.answer = false → check.InTime :=
    fun check member => (world.checks check member).mp
  refine ⟨?_, fun check member _ stopped => (inTime check member stopped).1⟩
  -- The checks that returned false tested different receives, all of which had a message.
  have sublist : ((w.checks.filter fun check => check.rank = r ∧ check.answer = false).map
      Check.receives).Sublist (firsts w.checks r) := by
    have among : (w.checks.filter fun check => check.rank = r ∧ check.answer = false) =
        (w.checks.filter fun check => check.rank = r ∧ check.call = 1).filter
          fun check => check.answer = false := by
      rw [List.filter_filter]
      refine List.filter_congr fun check member => ?_
      have first := fun stopped => (inTime check member stopped).1
      rw [← Bool.decide_and, decide_eq_decide]
      exact ⟨fun ⟨own, stopped⟩ => ⟨stopped, own, first stopped⟩,
        fun ⟨stopped, own, _⟩ => ⟨own, stopped⟩⟩
    rw [among]
    exact List.filter_sublist.map _
  have nodup : ((w.checks.filter fun check => check.rank = r ∧ check.answer = false).map
      Check.receives).Nodup :=
    (heard.increasing.imp fun less => Nat.ne_of_lt less).sublist sublist
  have inside : ((w.checks.filter fun check => check.rank = r ∧ check.answer = false).map
      Check.receives) ⊆ List.range' 1 (w.ranks r).messages.length := by
    intro k member
    obtain ⟨check, filtered, rfl⟩ := List.mem_map.mp member
    obtain ⟨checked, kind⟩ := List.mem_filter.mp filtered
    obtain ⟨own, stopped⟩ := of_decide_eq_true kind
    have positive := (heard.bound _ (sublist.subset member)).1
    have enough := (inTime check checked stopped).2
    have delivered := heard.delivered check checked own
    rw [List.mem_range'_1]
    omega
  have few := (nodup.subperm inside).length_le
  rwa [List.length_map, List.length_range'] at few

end Heard

/-- A `Callable` on rank 0 succeeds, and the `MapCallable` on rank 1 is stopped. -/
theorem stops_heard_two :
    ∃ (events : List Event) (w : World (State Unit Unit Bool)),
      Run (World.Step 2 2 fun id => .ofClass (callableFirst id))
        (Started fun id => .ofClass (callableFirst id)) events w ∧
      ⟨1, 1, 1, 1, 1, false⟩ ∈ w.checks ∧
      (w.checks.filter fun check => check.rank = 1 ∧ check.answer = false).length ≤
          (w.ranks 1).messages.length ∧
        ∀ check ∈ w.checks, check.rank = 1 → check.answer = false → check.call = 1 := by
  have stopped := run_added 2 2 callableFirst
    |>.snoc (.run 0 Nat.two_pos Nat.two_pos rfl (.inr (.run _ rfl)))
    |>.snoc (.work 0 Nat.two_pos ⟨⟨rfl, rfl⟩, rfl⟩ ⟨_, .call _ () true, .inr (.call _ true)⟩)
    |>.snoc (.work 0 Nat.two_pos ⟨⟨rfl, rfl⟩, rfl⟩
      ⟨_, .resultChecker _ true true, .inr (.accepted _ true rfl)⟩)
    |>.snoc (.send 0 Nat.two_pos ⟨rfl, rfl⟩ ⟨_, .inr (.handleSuccess _ () rfl)⟩ Nat.two_pos)
    |>.snoc (.send 0 Nat.two_pos ⟨rfl, rfl⟩ ⟨_, .inr (.handleSuccess _ () rfl)⟩ Nat.one_lt_two)
    |>.snoc (.deliver 1 Nat.one_lt_two (List.mem_singleton_self stop))
    |>.snoc (.run 1 Nat.one_lt_two Nat.one_lt_two rfl (.inr (.run _ rfl)))
    |>.snoc (.work 1 Nat.one_lt_two ⟨⟨rfl, rfl⟩, rfl⟩ ⟨_, .hasNext true, .inr (.more _)⟩)
    |>.snoc (.work 1 Nat.one_lt_two ⟨⟨rfl, rfl⟩, rfl⟩ ⟨_, .next (), .inr (.next _ ())⟩)
    |>.snoc (.checkFirst 1 Nat.one_lt_two ⟨⟨rfl, rfl⟩, rfl⟩ ⟨true, _, .inr (.goOn _ () () rfl)⟩ rfl)
    |>.snoc (.test 1 Nat.one_lt_two rfl (.inr (.stop _ () () rfl)))
  exact ⟨_, _, stopped, List.mem_singleton_self _, stops_heard stopped Nat.one_lt_two⟩

end ParallelLabs.Mpi
