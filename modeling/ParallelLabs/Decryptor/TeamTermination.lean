import ParallelLabs.Decryptor.TeamSearch

/-!
# The runners return

A runner on the workers of `prepare_mapped_functions`, with an interrupter that lets
every worker in a method go on (`SystemInterrupter.Responsive`). The runner and the
interrupter fit together (`Coupled`): a worker waits for a method exactly while the
interrupter has it in that method. So the runner gets stuck only when `run` has
returned (`exists_step`), and every step brings it closer to that
(`decreasing_measure`): the runs have a bounded length, and every run can be continued
until `run` returns (`exists_returned`).
-/

set_option autoImplicit false

namespace ParallelLabs.Decryptor

open Library Callables Runners

/-- A worker waits in the method that the interrupter has it in. -/
def Coupled (unit : ConcurrencyUnit (Worker Unit)) : Option Method → Prop
  | none => unit.calling = false
  | some .checkNextSyncCall => unit.phase = .inside ∧ unit.calling = true ∧
      ∃ args, unit.executable.state.point = .poll args
  | some .handleSuccess => unit.phase = .inside ∧ unit.calling = true ∧
      unit.executable.state.point = .notify

/-- A bound on the steps of a worker that neither the search nor the interrupter takes:
the pieces of the line, the start and the end. The steps that its next call causes count
for the worker until it calls. -/
def unitRest (bound : Nat) (unit : ConcurrencyUnit (Worker Unit)) : Nat :=
  match unit.phase with
  | .absent => bound + 25
  | .started => bound + 24
  | .inside =>
      if unit.calling then 22
      else if unit.executable.state.point = .idle then 20 else bound + 23
  | .leaving => 15
  | .printing rest => 1 + rest.length
  | .finished => 0

section Coupling

variable {unit unit' : ConcurrencyUnit (Worker Unit)} {occupation : Option Method}

theorem Coupled.idle (coupled : Coupled unit occupation) (quiet : unit.calling = false) :
    occupation = none := by
  cases occupation with
  | none => rfl
  | some method =>
      have calling : unit.calling = true := by cases method <;> exact coupled.2.1
      rw [quiet] at calling
      cases calling

/-- A worker outside the methods goes on outside. -/
theorem Coupled.outside (coupled : Coupled unit occupation) (quiet : unit.calling = false)
    (quiet' : unit'.calling = false) : Coupled unit' occupation := by
  rw [coupled.idle quiet]
  exact quiet'

end Coupling

section Rest

variable {unit : ConcurrencyUnit (Worker Unit)} {bound : Nat}

theorem unitRest_returned (inside : unit.phase = .inside) (quiet : unit.calling = false)
    (idle : unit.executable.state.point = .idle) : unitRest bound unit = 20 := by
  rw [unitRest, inside]
  simp [quiet, idle]

theorem unitRest_busy (inside : unit.phase = .inside) (quiet : unit.calling = false)
    (busy : unit.executable.state.point ≠ .idle) : unitRest bound unit = bound + 23 := by
  rw [unitRest, inside]
  simp [quiet, busy]

/-- Outside the methods a busy worker has few steps left besides those of the search. -/
theorem unitRest_le (inside : unit.phase = .inside) (quiet : unit.calling = false) :
    unitRest bound unit ≤ bound + 23 := by
  by_cases idle : unit.executable.state.point = .idle
  · rw [unitRest_returned inside quiet idle]
    omega
  · rw [unitRest_busy inside quiet idle]

theorem unitRest_waits (inside : unit.phase = .inside) (calling : unit.calling = true) :
    unitRest bound unit = 22 := by
  rw [unitRest, inside]
  simp [calling]

end Rest

section Team

variable {n : Nat} {kind : Kind} {pid : Fin n → Nat} {prepared : Prepared DecryptorSequence}
  {interrupter : SystemInterrupter (Fin n)} (responsive : interrupter.Responsive)
  {t t' : Team (Worker Unit) n interrupter} {event : TeamEvent n}

/-- Every worker is coupled with the interrupter. -/
def CoupledInv (t : Team (Worker Unit) n interrupter) : Prop :=
  ∀ i, Coupled (t.units i) (responsive.occupation t.interrupter i)

variable {responsive}

/-- A change of one worker and of its part of the interrupter. -/
theorem CoupledInv.update (coupled : CoupledInv responsive t) (i : Fin n)
    {unit : ConcurrencyUnit (Worker Unit)} {occupation : Option Method}
    (own : Coupled unit occupation) (j : Fin n) :
    Coupled (Function.update t.units i unit j)
      (Function.update (responsive.occupation t.interrupter) i occupation j) := by
  by_cases same : j = i
  · subst same
    rwa [Function.update_self, Function.update_self]
  · rw [Function.update_of_ne same, Function.update_of_ne same]
    exact coupled j

/-- A change of one worker outside the methods. -/
theorem CoupledInv.set (coupled : CoupledInv responsive t) (i : Fin n)
    {unit : ConcurrencyUnit (Worker Unit)}
    (own : Coupled unit (responsive.occupation t.interrupter i)) (j : Fin n) :
    Coupled (Function.update t.units i unit j) (responsive.occupation t.interrupter j) := by
  have both := coupled.update i own j
  rwa [Function.update_eq_self] at both

/-- **A step keeps the workers and the interrupter coupled.** -/
theorem CoupledInv.step {talks : List (Option (Fin n × Talk))} (coupled : CoupledInv responsive t)
    (forms : ∀ i, Form (t.units i))
    (run : Run interrupter.step interrupter.initial talks t.interrupter)
    (step : t.Step (searchLoad kind pid prepared) event t') : CoupledInv responsive t' := by
  have quiet : ∀ i, (t.units i).phase ≠ .inside → (t.units i).calling = false := by
    intro i outside
    have form := forms i
    cases phase : (t.units i).phase with
    | inside => exact absurd phase outside
    | absent | started | leaving | printing | finished =>
        rw [Form, phase] at form
        exact form.2
  -- A worker that comes back from a method.
  have left : ∀ {i : Fin n} {state : interrupter.State} (object : Worker Unit),
      responsive.occupation state =
        Function.update (responsive.occupation t.interrupter) i none →
      CoupledInv responsive (t.talk i object false state) := by
    intro i state object now j
    have out : Coupled { t.units i with executable := object, calling := false } none := rfl
    show Coupled _ (responsive.occupation state j)
    rw [now]
    exact coupled.update i out j
  cases step with
  | start i running few next new =>
      have silent := quiet i (by rw [new]; decide)
      exact coupled.set i ((coupled i).outside silent silent)
  | run i here own =>
      have silent := quiet i (by rw [here]; decide)
      exact coupled.set i ((coupled i).outside silent rfl)
  | work i busy own => exact coupled.set i ((coupled i).outside busy.2 busy.2)
  | @checkNextSyncCall i state busy own asked =>
      obtain ⟨answer, object, moved, -⟩ := own
      have asked : interrupter.step t.interrupter
        (some (i, Method.call .checkNextSyncCall)) state := asked
      obtain ⟨now, -⟩ := responsive.entered run asked
      have calls : Coupled { t.units i with calling := true } (some .checkNextSyncCall) :=
        ⟨busy.1, rfl, poll_of_check moved⟩
      intro j
      show Coupled _ (responsive.occupation state j)
      rw [now]
      exact coupled.update i calls j
  | @checkReturns i answer object state waits own answered =>
      have returns : Method.Returns .checkNextSyncCall (.checkReturns answer) := ⟨answer, rfl⟩
      exact left object (responsive.left run returns answered).1
  | @handleSuccess i state busy own told =>
      obtain ⟨object, moved, -⟩ := own
      have told : interrupter.step t.interrupter (some (i, Method.call .handleSuccess)) state :=
        told
      obtain ⟨now, -⟩ := responsive.entered run told
      have calls : Coupled { t.units i with calling := true } (some .handleSuccess) :=
        ⟨busy.1, rfl, (notify_of_handleSuccess moved).1⟩
      intro j
      show Coupled _ (responsive.occupation state j)
      rw [now]
      exact coupled.update i calls j
  | @handleSuccessReturns i object state waits own done =>
      have returns : Method.Returns .handleSuccess .handleSuccessReturns := rfl
      exact left object (responsive.left run returns done).1
  | @interrupter state own =>
      intro j
      show Coupled (t.units j) (responsive.occupation state j)
      rw [(responsive.alone run own).1]
      exact coupled j
  | leave i busy own => exact coupled.set i ((coupled i).outside busy.2 rfl)
  | hasResult i here =>
      have silent := quiet i (by rw [here]; decide)
      exact coupled.set i ((coupled i).outside silent silent)
  | print i here =>
      have silent := quiet i (by rw [here]; exact fun same => by cases same)
      exact coupled.set i ((coupled i).outside silent silent)
  | finish i here =>
      have silent := quiet i (by rw [here]; decide)
      exact coupled.set i ((coupled i).outside silent silent)
  | returns running all => exact coupled

/-! ## The steps that the search does not take -/

/-- The steps that are left besides those of the search. -/
def teamRest (responsive : interrupter.Responsive) (t : Team (Worker Unit) n interrupter) : Nat :=
  ∑ i, unitRest responsive.bound (t.units i) + responsive.rest t.interrupter +
    if t.returned then 0 else 1

/-- The sum after a change of one worker. -/
theorem sum_unitRest_update (bound : Nat) (units : Fin n → ConcurrencyUnit (Worker Unit))
    (i : Fin n) (unit : ConcurrencyUnit (Worker Unit)) :
    ∑ j, unitRest bound (Function.update units i unit j) + unitRest bound (units i) =
      ∑ j, unitRest bound (units j) + unitRest bound unit := by
  have changed := sum_add_of_ne (fun j => unitRest bound (units j))
    (fun j => unitRest bound (Function.update units i unit j)) i
    fun j other => by rw [Function.update_of_ne other]
  rwa [Function.update_self] at changed

/-- A line has at most ten pieces. -/
theorem length_pieces_le (i : Fin n) (w : Worker Unit) :
    ((searchLoad kind pid prepared).pieces i w).length ≤ 10 := by
  rw [Workload.pieces]
  cases (searchLoad kind pid prepared).report w with
  | none => exact Nat.zero_le _
  | some result =>
      show (Kind.pieces kind _ _ _).length ≤ 10
      cases kind <;> simp [Kind.pieces]

/-- **A step that the search does not take brings the runner closer to the end**, and a
step that it takes leaves a bounded number of others. -/
theorem teamRest_step (responsive : interrupter.Responsive) {talks : List (Option (Fin n × Talk))}
    (run : Run interrupter.step interrupter.initial talks t.interrupter)
    (step : t.Step (searchLoad kind pid prepared) event t') :
    (seen event = false → teamRest responsive t' < teamRest responsive t) ∧
      teamRest responsive t' ≤ teamRest responsive t + (responsive.bound + 23) := by
  -- A change of one worker, and of the interrupter with it.
  have change : ∀ {i : Fin n} {unit : ConcurrencyUnit (Worker Unit)} {rest r : Nat},
      unitRest responsive.bound unit + rest <
          unitRest responsive.bound (t.units i) + responsive.rest t.interrupter ∨
          seen event = true ∧ unitRest responsive.bound unit + rest ≤
            unitRest responsive.bound (t.units i) + responsive.rest t.interrupter +
              (responsive.bound + 23) →
        (seen event = false →
          ∑ j, unitRest responsive.bound (Function.update t.units i unit j) + rest + r <
            ∑ j, unitRest responsive.bound (t.units j) + responsive.rest t.interrupter + r) ∧
        ∑ j, unitRest responsive.bound (Function.update t.units i unit j) + rest + r ≤
          ∑ j, unitRest responsive.bound (t.units j) + responsive.rest t.interrupter + r +
            (responsive.bound + 23) := by
    intro i unit rest r own
    have sum := sum_unitRest_update responsive.bound t.units i unit
    rcases own with less | ⟨visible, few⟩
    · exact ⟨fun _ => by omega, by omega⟩
    · exact ⟨fun silent => absurd (visible.symm.trans silent) (by decide), by omega⟩
  have alone : ∀ {i : Fin n} {unit : ConcurrencyUnit (Worker Unit)} {r : Nat},
      unitRest responsive.bound unit < unitRest responsive.bound (t.units i) ∨
          seen event = true ∧ unitRest responsive.bound unit ≤ responsive.bound + 23 →
        (seen event = false →
          ∑ j, unitRest responsive.bound (Function.update t.units i unit j) +
              responsive.rest t.interrupter + r <
            ∑ j, unitRest responsive.bound (t.units j) + responsive.rest t.interrupter + r) ∧
        ∑ j, unitRest responsive.bound (Function.update t.units i unit j) +
            responsive.rest t.interrupter + r ≤
          ∑ j, unitRest responsive.bound (t.units j) + responsive.rest t.interrupter + r +
            (responsive.bound + 23) := by
    intro i unit r own
    refine change (own.imp (fun less => Nat.add_lt_add_right less _) fun ⟨visible, few⟩ => ?_)
    exact ⟨visible, by omega⟩
  cases step with
  | start i running few next new => exact alone (.inl (by simp [unitRest, new]))
  | @run i object here own =>
      have after : unitRest responsive.bound ⟨.inside, object, false⟩ ≤ responsive.bound + 23 :=
        unitRest_le rfl rfl
      have before : unitRest responsive.bound (t.units i) = responsive.bound + 24 := by
        simp [unitRest, here]
      exact alone (.inl (by omega))
  | work i busy own => exact alone (.inr ⟨rfl, unitRest_le busy.1 busy.2⟩)
  | @checkNextSyncCall i state busy own asked =>
      obtain ⟨answer, object, moved, -⟩ := own
      obtain ⟨args, poll⟩ := poll_of_check moved
      have asked : interrupter.step t.interrupter
        (some (i, Method.call .checkNextSyncCall)) state := asked
      have caused := (responsive.entered run asked).2
      have before : unitRest responsive.bound (t.units i) = responsive.bound + 23 :=
        unitRest_busy busy.1 busy.2 (by rw [poll]; exact fun same => by cases same)
      have after : unitRest responsive.bound { t.units i with calling := true } = 22 :=
        unitRest_waits busy.1 rfl
      exact change (.inl (by
        rw [before]; exact (Nat.add_le_add after.le caused).trans_lt (by omega)))
  | @checkReturns i answer object state waits own answered =>
      have returns : Method.Returns .checkNextSyncCall (.checkReturns answer) := ⟨answer, rfl⟩
      have caused := (responsive.left run returns answered).2
      have after : unitRest responsive.bound
          { t.units i with executable := object, calling := false } ≤ responsive.bound + 23 :=
        unitRest_le waits.1 rfl
      exact change (.inr ⟨rfl, (Nat.add_le_add after caused).trans (by omega)⟩)
  | @handleSuccess i state busy own told =>
      have told : interrupter.step t.interrupter (some (i, Method.call .handleSuccess)) state :=
        told
      have caused := (responsive.entered run told).2
      have after : unitRest responsive.bound { t.units i with calling := true } = 22 :=
        unitRest_waits busy.1 rfl
      exact change (.inr ⟨rfl, (Nat.add_le_add after.le caused).trans (by omega)⟩)
  | @handleSuccessReturns i object state waits own done =>
      obtain ⟨moved, -⟩ := own
      have returns : Method.Returns .handleSuccess .handleSuccessReturns := rfl
      have caused := (responsive.left run returns done).2
      have before : unitRest responsive.bound (t.units i) = 22 := unitRest_waits waits.1 waits.2
      have after : unitRest responsive.bound
          { t.units i with executable := object, calling := false } = 20 :=
        unitRest_returned waits.1 rfl (by rw [(notify_of_handleSuccess moved).2])
      exact change (.inl (by
        rw [before]; exact (Nat.add_le_add after.le caused).trans_lt (by omega)))
  | @interrupter state own =>
      have less : teamRest responsive { t with interrupter := state } < teamRest responsive t :=
        Nat.add_lt_add_right (Nat.add_lt_add_left (responsive.alone run own).2 _) _
      exact ⟨fun _ => less, by omega⟩
  | leave i busy own =>
      obtain ⟨idle, rfl⟩ := own
      have before : unitRest responsive.bound (t.units i) = 20 :=
        unitRest_returned busy.1 busy.2 idle
      exact alone (.inl (by rw [before]; exact (by decide : 15 < 20)))
  | hasResult i here =>
      have few : ((searchLoad kind pid prepared).pieces i (t.units i).executable).length ≤ 10 :=
        length_pieces_le i (t.units i).executable
      refine alone (.inl ?_)
      simp only [unitRest, here]
      omega
  | print i here => exact alone (.inl (by simp [unitRest, here]))
  | finish i here => exact alone (.inl (by simp [unitRest, here]))
  | returns running all =>
      have less : teamRest responsive { t with returned := true } < teamRest responsive t := by
        simp [teamRest, running]
      exact ⟨fun _ => less, by omega⟩

/-- At the start every worker has all its steps before it. -/
theorem teamRest_of_started (started : t.Started (searchLoad kind pid prepared)) :
    teamRest responsive t ≤ n * (responsive.bound + 25) + responsive.start + 1 := by
  obtain ⟨_, returned, initial, _, units⟩ := started
  rw [teamRest, returned]
  refine Nat.add_le_add_right (Nat.add_le_add (sum_le_mul _ fun i => ?_)
    (responsive.initially _ initial).2) _
  rw [(units i).2]
  exact Nat.le_refl _

end Team

/-! ## The runs of a runner -/

section Runs

variable {search : Search} {kind : Kind} {pid : Fin search.numThreads.toNat → Nat}
  {prepared : Prepared DecryptorSequence} {past : List (TeamEvent search.numThreads.toNat)}
  {interrupter : SystemInterrupter (Fin search.numThreads.toNat)}
  {responsive : interrupter.Responsive}
  {t t' : Team (Worker Unit) search.numThreads.toNat interrupter}
  {event : TeamEvent search.numThreads.toNat}

/-- The workers and the interrupter stay coupled. -/
theorem CoupledInv.of_run (responsive : interrupter.Responsive) (sound : interrupter.Sound)
    (run : Run (Team.Step (searchLoad kind pid prepared))
      (Team.Started (searchLoad kind pid prepared)) past t) : CoupledInv responsive t := by
  induction run with
  | start started =>
      obtain ⟨_, _, initial, _, units⟩ := started
      intro i
      rw [(responsive.initially _ initial).1 i, (units i).2]
      exact rfl
  | snoc run next ih =>
      obtain ⟨_, _, _, related⟩ := (simulation sound).exists_run run
      exact ih.step related.forms (Team.run_interrupter run) next

/-- The measure of a runner: the steps of the search, and the others. -/
def measure (search : Search) {interrupter : SystemInterrupter (Fin search.numThreads.toNat)}
    (responsive : interrupter.Responsive)
    (t : Team (Worker Unit) search.numThreads.toNat interrupter) : Nat :=
  (responsive.bound + 24) * ∑ i, search.weight (searchUnit (t.units i)) + teamRest responsive t

/-- **Every step of a runner decreases its measure.** -/
theorem decreasing_measure (responsive : interrupter.Responsive) (sound : interrupter.Sound)
    (prepare : prepareMappedFunctions 0 search.rangeEnd search.numThreads search.message
      search.encrypted = .ok prepared) :
    Decreasing (Team.Step (searchLoad kind pid prepared))
      (Team.Started (searchLoad kind pid prepared)) (measure search responsive) := by
  intro past t event t' run step
  obtain ⟨past', s, run', related⟩ := (simulation sound).exists_run run
  obtain ⟨later, s', path, count, related'⟩ := related.step step (heard_of_run sound run step)
  have behind := (Search.decreasing_totalWeight prepare).length_add_le run' path
  rw [related.totalWeight, related'.totalWeight, count] at behind
  obtain ⟨alone, visible⟩ :=
    teamRest_step responsive (Team.run_interrupter run) step
  rw [measure, measure]
  cases sees : seen event with
  | false =>
      have less := alone sees
      rw [sees, Bool.toNat_false, Nat.zero_add] at behind
      exact Nat.add_lt_add_of_le_of_lt (Nat.mul_le_mul_left _ behind) less
  | true =>
      rw [sees, Bool.toNat_true] at behind
      have scaled := Nat.mul_le_mul_left (responsive.bound + 24) behind
      rw [Nat.mul_add, Nat.mul_one] at scaled
      omega

theorem measure_of_started (started : t.Started (searchLoad kind pid prepared)) :
    measure search responsive t ≤ search.numThreads.toNat *
      ((responsive.bound + 24) * search.fullWeight + (responsive.bound + 25)) + 1 +
        responsive.start := by
  have rest : teamRest responsive t ≤
      search.numThreads.toNat * (responsive.bound + 25) + responsive.start + 1 :=
    teamRest_of_started started
  have full := Search.totalWeight_le (related_of_started started).1
  rw [(related_of_started started).2.totalWeight] at full
  rw [measure, Nat.mul_add]
  calc (responsive.bound + 24) * ∑ i, search.weight (searchUnit (t.units i)) +
        teamRest responsive t
      ≤ (responsive.bound + 24) * (search.numThreads.toNat * search.fullWeight) +
          (search.numThreads.toNat * (responsive.bound + 25) + responsive.start + 1) :=
        Nat.add_le_add (Nat.mul_le_mul_left _ full) rest
    _ = search.numThreads.toNat * ((responsive.bound + 24) * search.fullWeight) +
          search.numThreads.toNat * (responsive.bound + 25) + 1 + responsive.start := by
        rw [Nat.mul_left_comm]
        omega

/-- **A run has a bounded length.** -/
theorem length_le_of_run (responsive : interrupter.Responsive) (sound : interrupter.Sound)
    (prepare : prepareMappedFunctions 0 search.rangeEnd search.numThreads search.message
      search.encrypted = .ok prepared)
    (run : Run (Team.Step (searchLoad kind pid prepared))
      (Team.Started (searchLoad kind pid prepared)) past t) :
    past.length ≤ search.numThreads.toNat *
      ((responsive.bound + 24) * search.fullWeight + (responsive.bound + 25)) + 1 +
        responsive.start := by
  obtain ⟨first, started, bound⟩ := run.length_add_le (decreasing_measure responsive sound prepare)
  exact (Nat.le_of_add_right_le bound).trans (measure_of_started started)

/-- A busy worker of a runner can go on. -/
theorem exists_step_of_busy
    (prepare : prepareMappedFunctions 0 search.rangeEnd search.numThreads search.message
      search.encrypted = .ok prepared)
    (i : Fin search.numThreads.toNat) (busy : t.Busy i)
    (outside : responsive.occupation t.interrupter i = none) {notified : Bool}
    (inv : search.WorkerInv notified i (t.units i).executable) :
    ∃ event t', t.Step (searchLoad kind pid prepared) event t' := by
  rcases exists_act search prepare i.isLt inv with idle | ⟨object, works⟩ | checks | notifies
  · exact ⟨_, _, .leave i busy ⟨idle, rfl⟩⟩
  · exact ⟨_, _, .work i busy works⟩
  · obtain ⟨state, asked⟩ := responsive.opens t.interrupter i .checkNextSyncCall outside
    exact ⟨_, _, .checkNextSyncCall i busy ⟨true, checks true⟩ asked⟩
  · obtain ⟨state, told⟩ := responsive.opens t.interrupter i .handleSuccess outside
    exact ⟨_, _, .handleSuccess i busy notifies told⟩

/-- A worker that waits for a method can go on, or the interrupter can. -/
theorem exists_step_of_waits {talks : List (Option (Fin search.numThreads.toNat × Talk))}
    (run : Run interrupter.step interrupter.initial talks t.interrupter)
    (i : Fin search.numThreads.toNat) (waits : t.Waits i)
    (coupled : Coupled (t.units i) (responsive.occupation t.interrupter i))
    (handled : ∃ handler, (t.units i).executable.state.fields.sighandler = some handler) :
    ∃ event t', t.Step (searchLoad kind pid prepared) event t' := by
  obtain ⟨handler, handled⟩ := handled
  cases here : responsive.occupation t.interrupter i with
  | none =>
      rw [here] at coupled
      exact absurd (coupled.symm.trans waits.2) Bool.false_ne_true
  | some method =>
      rw [here] at coupled
      rcases responsive.goes_on run here with ⟨state, own⟩ | ⟨call, state, returns, own⟩
      · exact ⟨_, _, .interrupter own⟩
      cases method with
      | handleSuccess =>
          obtain rfl : call = .handleSuccessReturns := returns
          obtain ⟨object, moved⟩ : (searchCallable prepared i).Notifies (t.units i).executable :=
            notifies_of_notify coupled.2.2 handled
          exact ⟨_, _, .handleSuccessReturns i waits moved own⟩
      | checkNextSyncCall =>
          obtain ⟨answer, rfl⟩ := returns
          obtain ⟨args, poll⟩ := coupled.2.2
          obtain ⟨object, moved⟩ : ∃ object, (searchCallable prepared i).step
              (t.units i).executable (.checkNextSyncCall answer) object :=
            check_of_poll poll handled answer
          exact ⟨_, _, .checkReturns i waits moved own⟩

/-- **A runner does not get stuck** before `run` has returned. -/
theorem exists_step (responsive : interrupter.Responsive) (sound : interrupter.Sound)
    (launching : kind.Launches search.numThreads.toNat)
    (prepare : prepareMappedFunctions 0 search.rangeEnd search.numThreads search.message
      search.encrypted = .ok prepared)
    (run : Run (Team.Step (searchLoad kind pid prepared))
      (Team.Started (searchLoad kind pid prepared)) past t) (running : t.returned = false) :
    ∃ event t', t.Step (searchLoad kind pid prepared) event t' := by
  obtain ⟨past', s, run', related⟩ := (simulation sound).exists_run run
  have coupled := CoupledInv.of_run responsive sound run
  have inv := Search.systemInv_of_run search prepare run'
  by_cases all : ∀ i, (t.units i).phase = .finished
  · exact ⟨_, _, .returns running fun _ => all⟩
  push Not at all
  obtain ⟨i, unfinished⟩ := all
  have form := related.forms i
  have own : search.WorkerInv s.notified i (searchUnit (t.units i)) :=
    related.worker i ▸ inv.workers i
  cases phase : (t.units i).phase with
  | absent =>
      obtain ⟨j, next, new⟩ := (CreatedInv.of_run run).exists_next phase
      exact ⟨_, _, .start j running launching next new⟩
  | started =>
      rw [Form, phase] at form
      have enters : (searchCallable prepared i).step (t.units i).executable .run
          ⟨⟨(t.units i).executable.state.fields, .test⟩, (t.units i).executable.seq⟩ := by
        refine ⟨?_, rfl⟩
        rw [form.1]
        exact .run _ rfl
      exact ⟨_, _, .run i phase enters⟩
  | inside =>
      cases calling : (t.units i).calling with
      | false =>
          rw [searchUnit_busy phase calling] at own
          exact exists_step_of_busy prepare i ⟨phase, calling⟩ ((coupled i).idle calling) own
      | true =>
          refine exists_step_of_waits (Team.run_interrupter run) i ⟨phase, calling⟩ (coupled i) ?_
          rw [← fields_searchUnit]
          exact own.handled
  | leaving => exact ⟨_, _, .hasResult i phase⟩
  | printing rest =>
      cases rest with
      | nil => exact ⟨_, _, .finish i phase⟩
      | cons piece rest => exact ⟨_, _, .print i phase⟩
  | finished => exact absurd phase unfinished

/-- **A runner has a run to its end.** -/
theorem exists_returned (search : Search) {kind : Kind}
    (launching : kind.Launches search.numThreads.toNat)
    (pid : Fin search.numThreads.toNat → Nat)
    {interrupter : SystemInterrupter (Fin search.numThreads.toNat)}
    (responsive : interrupter.Responsive) (sound : interrupter.Sound) {state : interrupter.State}
    (initial : interrupter.initial state) :
    ∃ (prepared : Prepared DecryptorSequence) (events : List (TeamEvent search.numThreads.toNat))
      (t : Team (Worker Unit) search.numThreads.toNat interrupter),
      prepareMappedFunctions 0 search.rangeEnd search.numThreads search.message
        search.encrypted = .ok prepared ∧
      Run (Team.Step (searchLoad kind pid prepared))
        (Team.Started (searchLoad kind pid prepared)) events t ∧ t.returned = true := by
  obtain ⟨prepared, t, prepare, started⟩ := exists_started search kind pid initial
  obtain ⟨later, t', -, run, stuck⟩ :=
    (Run.start started).exists_stuck (decreasing_measure responsive sound prepare)
  refine ⟨prepared, _, t', prepare, run, ?_⟩
  by_contra unfinished
  obtain ⟨event, u, next⟩ := exists_step responsive sound launching prepare run
    (Bool.eq_false_of_not_eq_true unfinished)
  exact stuck event u next

end Runs

end ParallelLabs.Decryptor
