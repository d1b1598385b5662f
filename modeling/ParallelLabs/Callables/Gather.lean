import ParallelLabs.Callables.WorkerKinds

/-!
# `MultipleCallable` whatever the interrupter says

A `MultipleCallable` has no `break` after a success: it stops only if its interrupter
says so. Here nothing is assumed of the interrupter. The worker goes on with every
callable for which the check is true, keeps the result of the last success, and notifies
each of them (`Environment.gather`, `multipleWorker_gather`).

So the two kinds of workers differ under an interrupter that never says stop. A
`MapCallable` ends with the first hit, a `MultipleCallable` calls the function on every
tuple and ends with the last one (`workerKinds_heedless`).
-/

set_option autoImplicit false

namespace ParallelLabs.Callables

open Library

variable {Env Handler Args Ret : Type}

/-- There is one more notification at the beginning. -/
def Outcome.notifying (o : Outcome Args Ret) : Outcome Args Ret :=
  { o with notifications := o.notifications + 1 }

namespace Environment

section Gather

variable (e : Environment Env Args Ret)

/-- A result is judged; the last success is kept, and the loop goes on. -/
def gatherJudge (kept : Option Ret) (value : Ret)
    (later : Option Ret → Env → Outcome Args Ret) (env : Env) : Outcome Args Ret :=
  match e.result_checker env value with
  | (_, none) => ⟨[], kept, 0⟩
  | (env', some false) => later kept env'
  | (env', some true) =>
    match e.handle_success env' with
    | (_, false) => ⟨[], some value, 1⟩
    | (env'', true) => (later (some value) env'').notifying

/-- The function is called. -/
def gatherInvoke (kept : Option Ret) (args : Args)
    (later : Option Ret → Env → Outcome Args Ret) (env : Env) : Outcome Args Ret :=
  match e.function env args with
  | (_, none) => ⟨[args], kept, 0⟩
  | (env', some value) => (e.gatherJudge kept value later env').calling args

/-- The loop of a `MultipleCallable` through a list of tuples. -/
def gather : List Args → Option Ret → Env → Outcome Args Ret
  | [], kept, _ => ⟨[], kept, 0⟩
  | args :: tuples, kept, env =>
    match e.check_next_sync_call env with
    | (_, none) => ⟨[], kept, 0⟩
    | (_, some false) => ⟨[], kept, 0⟩
    | (env', some true) => e.gatherInvoke kept args (gather tuples) env'

end Gather

section Multiple

variable {e : Environment Env Args Ret} {cast : Ret → String}
  {w w' : Worker Env Handler Args Ret} {act : List Nat × Deed Handler Args Ret}
  {o : Outcome Args Ret} {f : MultipleFields Handler} {g : Fields Handler Ret}
  {handler : Handler} {tuples : List Args} {cs : List (Tree Handler Args Ret)} {i : Nat}
  {args : Args} {kept : Option Ret}

/-- A call of `handle_success`, in the middle of a run. -/
theorem Completes.notifying (rest : e.Completes cast w' o) (step : e.Step cast w act w')
    (noCall : act.2.calledWith = none) (notification : act.2.isNotification = true) :
    e.Completes cast w o.notifying := by
  obtain ⟨events, final, path, ended⟩ := rest
  refine ⟨act :: events, final, .cons step path, ended.idle, ended.has, ended.string, ?_, ?_⟩
  · simp only [List.filterMap_cons, noCall, ended.called, Outcome.notifying]
  · simp only [List.countP_cons, notification, ended.notified, if_true, Outcome.notifying]

/-- What a `MultipleCallable` has kept of its successes. -/
structure Keeps (cast : Ret → String) (f : MultipleFields Handler) (handler : Handler)
    (kept : Option Ret) : Prop where
  set : f.sighandler = some handler
  has : f.hasResult = kept.isSome
  string : f.hasResult = true → some f.resultString = kept.map cast

theorem Keeps.store (keeps : Keeps cast f handler kept) (value : Ret) :
    Keeps cast (f.store (cast value)) handler (some value) :=
  ⟨keeps.set, rfl, fun _ => rfl⟩

/-- It ends with what it has kept. -/
theorem Keeps.ended {outside : List Args × Env} (keeps : Keeps cast f handler kept) :
    e.Completes cast ⟨.multiple f .idle cs, outside⟩ ⟨[], kept, 0⟩ :=
  .ended rfl keeps.has keeps.string

/-- It notifies, and goes on if `handle_success` returns. -/
theorem Keeps.notify {value : Ret} {later : Option Ret → Env → Outcome Args Ret}
    (keeps : Keeps cast f handler (some value)) (goesOn : ∀ env,
      e.Completes cast ⟨.multiple f (.poll (i + 1)) cs, (tuples, env)⟩ (later (some value) env))
    (env : Env) :
    e.Completes cast ⟨.multiple f (.notify i) cs, (tuples, env)⟩
      (match e.handle_success env with
        | (_, false) => ⟨[], some value, 1⟩
        | (env', true) => (later (some value) env').notifying) := by
  rcases notified : e.handle_success env with ⟨env', _ | _⟩
  · exact keeps.ended.notify
      (loop_step (by simp) (.handleThrows _ i cs keeps.set) (answers_notify notified)) rfl rfl
  · exact (goesOn env').notifying
      (loop_step (by simp) (.handleSuccess _ i cs keeps.set) (answers_notify notified)) rfl rfl

/-- A callable judges its result. -/
theorem Keeps.judge {value : Ret} {later : Option Ret → Env → Outcome Args Ret}
    (keeps : Keeps cast f handler kept) (single : Single g) (stored : g.result = some value)
    (finished : g.finished = true)
    (current : cs[i]? = some (.leaf (.callable args) ⟨g, .judge⟩))
    (goesOn : ∀ f kept t env, Keeps cast f handler kept →
      e.Completes cast ⟨.multiple f (.poll (i + 1)) (cs.set i t), (tuples, env)⟩
        (later kept env)) (env : Env) :
    e.Completes cast ⟨.multiple f (.inside i) cs, (tuples, env)⟩
      (e.gatherJudge kept value later env) := by
  have judging : (⟨g, .judge⟩ : State Handler Args Ret).point ≠ .idle := fun same => by
    cases same
  rw [gatherJudge]
  rcases judged : e.result_checker env value with ⟨env', _ | _ | _⟩
  · have answered : e.event ⟨g, .judge⟩ (tuples, env) = (.throws, tuples, env') := by
      simp only [event, stored, judged]
    exact keeps.ended.step
      (inside_throws current judging (.throws g .judge judging) answered) rfl rfl
  · have answered : e.event ⟨g, .judge⟩ (tuples, env) =
        (.resultChecker value false, tuples, env') := by
      simp only [event, stored, judged]
    have none : (Tree.leaf (.callable args) ⟨g, .idle⟩ : Tree Handler Args Ret).hasResult =
        false := by
      rw [Tree.hasResult, Fields.hasResult, single.unset, Bool.and_false]
    refine Completes.step ?_
      (inside_step current judging (.rejected g value stored) rfl answered) rfl rfl
    exact (goesOn f kept _ env' keeps).step
      (loop_step (by simp) (.returned f i _ (getElem?_set_current current _) rfl none) rfl) rfl rfl
  · have answered : e.event ⟨g, .judge⟩ (tuples, env) =
        (.resultChecker value true, tuples, env') := by
      simp only [event, stored, judged]
    have accepted : Callable.Step args ⟨g, .judge⟩ _ _ := .accepted g value stored
    rw [single.silent, if_neg Bool.false_ne_true] at accepted
    have read := Fields.getResult_accept stored finished
    have converted : (Tree.leaf (.callable args) ⟨g.accept, .idle⟩ : Tree Handler Args Ret).toString
        cast = some (cast value) := by
      rw [Tree.toString, read]
      rfl
    have there := getElem?_set_current current (.leaf (.callable args) ⟨g.accept, .idle⟩)
    have copied := Tree.Step.returnedResult f i _ there rfl (Fields.hasResult_of_getResult read)
      converted
    refine Completes.step ?_ (inside_step current judging accepted rfl answered) rfl rfl
    refine Completes.step ?_ (loop_step (by simp) copied rfl) rfl rfl
    exact (keeps.store value).notify (fun env => goesOn _ _ _ env (keeps.store value)) env'

/-- A callable calls its function. -/
theorem Keeps.invoke {later : Option Ret → Env → Outcome Args Ret}
    (keeps : Keeps cast f handler kept) (single : Single g)
    (current : cs[i]? = some (.leaf (.callable args) ⟨g, .invoke args⟩))
    (goesOn : ∀ f kept t env, Keeps cast f handler kept →
      e.Completes cast ⟨.multiple f (.poll (i + 1)) (cs.set i t), (tuples, env)⟩
        (later kept env)) (env : Env) :
    e.Completes cast ⟨.multiple f (.inside i) cs, (tuples, env)⟩
      (e.gatherInvoke kept args later env) := by
  rw [gatherInvoke]
  rcases called : e.function env args with ⟨env', _ | value⟩
  · have answered : e.event ⟨g, .invoke args⟩ (tuples, env) = (.throws, tuples, env') := by
      simp only [event, called]
    exact keeps.ended.call
      (inside_throws current (by simp) (.throws g (.invoke args) (by simp)) answered) rfl rfl
  · have answered : e.event ⟨g, .invoke args⟩ (tuples, env) = (.call args value, tuples, env') := by
      simp only [event, called]
    refine Completes.call ?_ (inside_step current (by simp) (.call g value) rfl answered) rfl rfl
    have after : Single (g.store value) := ⟨single.silent, single.unset⟩
    refine keeps.judge after rfl rfl (getElem?_set_current current _)
      (fun f kept t env keeps => ?_) env'
    rw [List.set_set]
    exact goesOn f kept t env keeps

/-- **The loop of a `MultipleCallable`.** -/
theorem Keeps.gather (keeps : Keeps cast f handler kept) (later : List Args)
    (waiting : Waiting handler i cs later) (env : Env) :
    e.Completes cast ⟨.multiple f (.poll i) cs, (tuples, env)⟩ (e.gather later kept env) := by
  induction later generalizing i cs f kept env with
  | nil =>
      have last : cs.length ≤ i := List.drop_eq_nil_iff.mp waiting
      exact keeps.ended.step (loop_step (by simp) (.exhausted f i cs last) rfl) rfl rfl
  | cons args later ih =>
      have next : cs[i]? = some (newCallable (some handler) args) := by
        rw [← List.head?_drop, show cs.drop i = _ from waiting]
        rfl
      have behind : Waiting handler (i + 1) cs later := by
        rw [Waiting, ← List.tail_drop, show cs.drop i = _ from waiting]
        rfl
      rw [Environment.gather]
      rcases answer : e.check_next_sync_call env with ⟨env', _ | _ | _⟩
      · exact keeps.ended.step
          (loop_step (by simp) (.checkThrows f i cs next keeps.set) (answers_check answer)) rfl rfl
      · exact keeps.ended.step
          (loop_step (by simp) (.stop f i cs next keeps.set) (answers_check answer)) rfl rfl
      · refine Completes.step ?_
          (loop_step (by simp) (.goOn f i cs next keeps.set) (answers_check answer)) rfl rfl
        have entered : e.Step cast ⟨.multiple f (.enter i) cs, (tuples, env')⟩
            ([i], .leaf (.callable args) .idle .run) ⟨.multiple f (.inside i) (cs.set i
              (.leaf (.callable args) ⟨(Fields.make true).addTo (some handler), .invoke args⟩)),
              (tuples, env')⟩ :=
          ⟨(fun idle => by cases idle), _,
            .enter f i cs next (.leaf (.callable args) (Callable.Step.run _ rfl)), _, next, rfl⟩
        refine Completes.step ?_ entered rfl rfl
        refine keeps.invoke ⟨rfl, rfl⟩ (getElem?_set_current next _)
          (fun f kept t env keeps => ?_) env'
        rw [List.set_set]
        exact ih keeps (behind.set t) env

end Multiple

theorem multipleWorker_gathers (e : Environment Env Args Ret) (cast : Ret → String)
    (handler : Handler) (tuples : List Args) (env : Env) :
    ∃ entered, Entered cast (multipleWorker handler tuples) ([], env) entered ∧
      e.Completes cast entered (e.gather tuples none env) := by
  rw [multipleWorker_eq]
  have waiting : Waiting handler 0
      (tuples.map (newCallable (some handler) : Args → Tree Handler Args Ret)) tuples := rfl
  have keeps : Keeps cast (.withHandler handler) handler none :=
    ⟨rfl, rfl, fun has => absurd has Bool.false_ne_true⟩
  exact ⟨⟨.multiple (.withHandler handler) (.poll 0) _, ([], env)⟩, ⟨_, rfl, .run _ _ rfl, rfl⟩,
    keeps.gather tuples waiting env⟩

/-- The calls are made in the order of the tuples. -/
theorem called_gather_prefix (e : Environment Env Args Ret) (tuples : List Args)
    (kept : Option Ret) (env : Env) : (e.gather tuples kept env).called <+: tuples := by
  induction tuples generalizing kept env with
  | nil => exact List.prefix_refl []
  | cons args tuples ih =>
      rw [gather]
      rcases e.check_next_sync_call env with ⟨env', _ | _ | _⟩
      · exact List.nil_prefix
      · exact List.nil_prefix
      · show (e.gatherInvoke kept args (e.gather tuples) env').called <+: _
        rw [gatherInvoke]
        rcases e.function env' args with ⟨env'', _ | value⟩
        · exact (List.prefix_cons_inj args).mpr List.nil_prefix
        · refine (List.prefix_cons_inj args).mpr ?_
          rw [gatherJudge]
          rcases e.result_checker env'' value with ⟨env₃, _ | _ | _⟩
          · exact List.nil_prefix
          · exact ih kept env₃
          · show (match e.handle_success env₃ with
              | (_, false) => (⟨[], some value, 1⟩ : Outcome Args Ret)
              | (env₄, true) => (e.gather tuples (some value) env₄).notifying).called <+: _
            rcases e.handle_success env₃ with ⟨env₄, _ | _⟩
            · exact List.nil_prefix
            · exact ih (some value) env₄

/-- There is a result in the end if there was one before or a notification is made. -/
theorem isSome_gather (e : Environment Env Args Ret) (tuples : List Args) (kept : Option Ret)
    (env : Env) : (e.gather tuples kept env).result.isSome = true ↔
      kept.isSome = true ∨ 0 < (e.gather tuples kept env).notifications := by
  have nothing : kept.isSome = true ↔ kept.isSome = true ∨ 0 < 0 := by simp
  induction tuples generalizing kept env with
  | nil => exact nothing
  | cons args tuples ih =>
      rw [gather]
      rcases e.check_next_sync_call env with ⟨env', _ | _ | _⟩
      · exact nothing
      · exact nothing
      · show (e.gatherInvoke kept args (e.gather tuples) env').result.isSome = true ↔
          kept.isSome = true ∨ 0 < (e.gatherInvoke kept args (e.gather tuples) env').notifications
        rw [gatherInvoke]
        rcases e.function env' args with ⟨env'', _ | value⟩
        · exact nothing
        · show (e.gatherJudge kept value (e.gather tuples) env'').result.isSome = true ↔
            kept.isSome = true ∨
              0 < (e.gatherJudge kept value (e.gather tuples) env'').notifications
          rw [gatherJudge]
          rcases e.result_checker env'' value with ⟨env₃, _ | _ | _⟩
          · exact nothing
          · exact ih kept env₃ (by simp)
          · rcases notified : e.handle_success env₃ with ⟨env₄, _ | _⟩
            · simp [notified]
            · have later := ih (some value) env₄ (by simp)
              simp only [notified, Outcome.notifying, later, Option.isSome_some, true_or, true_iff]
              exact Or.inr (Nat.succ_pos _)

/-- **A `MultipleCallable` in any environment**, whatever its interrupter answers and
whatever throws. It ends, and every run to its end is the loop `gather`: it calls the
function on the tuples in their order, and has a result if and only if it has called
`handle_success`. -/
theorem multipleWorker_gather (e : Environment Env Args Ret) (cast : Ret → String)
    (handler : Handler) (tuples : List Args) (env : Env) :
    (∃ events w, e.Finishes cast (multipleWorker handler tuples) ([], env) events w) ∧
    ∀ events w, e.Finishes cast (multipleWorker handler tuples) ([], env) events w →
      Ended cast events w.callable (e.gather tuples none env) ∧
        events.filterMap (·.2.calledWith) <+: tuples ∧
        (w.callable.hasResult = true ↔ 0 < events.countP (·.2.isNotification)) := by
  obtain ⟨entered, enters, completes⟩ := multipleWorker_gathers e cast handler tuples env
  refine ⟨completes.finishes enters, fun events w finishes => ?_⟩
  have ended := finishes.ended enters completes
  refine ⟨ended, ?_, ?_⟩
  · rw [ended.called]
    exact e.called_gather_prefix tuples none env
  · rw [ended.has, ended.notified, e.isSome_gather]
    simp

/-- Stopped by the flag of its interrupter after the first one. -/
theorem multipleWorker_gather_flagged :
    ∃ events w,
      flagged.Finishes (fun _ => "") (multipleWorker () [0, 1, 1]) ([], false) events w ∧
      events.filterMap (·.2.calledWith) = [0, 1] := by
  obtain ⟨⟨events, w, finishes⟩, gathers⟩ :=
    multipleWorker_gather flagged (fun _ => "") () [0, 1, 1] false
  exact ⟨events, w, finishes, (gathers events w finishes).1.called⟩

/-! ## An interrupter that never says stop -/

/-- Nothing throws and the check is always true, as with `OpenMpSystemInterrupter`. -/
def heedless (function : Args → Ret) (success : Ret → Bool) : Environment Unit Args Ret where
  function env args := (env, some (function args))
  result_checker env value := (env, some (success value))
  check_next_sync_call env := (env, some true)
  handle_success env := (env, true)

section Heedless

variable (function : Args → Ret) (success : Ret → Bool)

/-- A tuple whose result is not accepted is passed over. -/
theorem gather_heedless_rejected {args : Args} (rejected : success (function args) = false)
    (tuples : List Args) (kept : Option Ret) (env : Unit) :
    (heedless function success).gather (args :: tuples) kept env =
      ((heedless function success).gather tuples kept env).calling args := by
  simp only [gather, gatherInvoke, gatherJudge]
  simp only [heedless, rejected]

/-- A result that is accepted takes the place of the one before. -/
theorem gather_heedless_accepted {args : Args} (accepted : success (function args) = true)
    (tuples : List Args) (kept : Option Ret) (env : Unit) :
    (heedless function success).gather (args :: tuples) kept env =
      (((heedless function success).gather tuples (some (function args)) env).notifying).calling
        args := by
  simp only [gather, gatherInvoke, gatherJudge]
  simp only [heedless, accepted]

/-- The loop is never left: the last accepted result remains. -/
theorem gather_heedless (tuples : List Args) (kept : Option Ret) (env : Unit) :
    (heedless function success).gather tuples kept env =
      ⟨tuples, ((tuples.map function).filter success).getLast?.or kept,
        (tuples.map function).countP success⟩ := by
  induction tuples generalizing kept env with
  | nil => rfl
  | cons args tuples ih =>
      cases accepted : success (function args) with
      | false =>
          rw [gather_heedless_rejected function success accepted, ih]
          simp [Outcome.calling, accepted]
      | true =>
          rw [gather_heedless_accepted function success accepted, ih]
          simp [Outcome.calling, Outcome.notifying, accepted, List.getLast?_cons]

/-- The `break` of a `MapCallable`: the first accepted result is the last. -/
theorem search_heedless (tuples : List Args) (env : Unit) :
    (heedless function success).search tuples env =
      ⟨tuples.take (tuples.findIdx (success ∘ function) + 1), (tuples.map function).find? success,
        if (tuples.map function).any success then 1 else 0⟩ := by
  induction tuples generalizing env with
  | nil => rfl
  | cons args tuples ih =>
      simp only [search, invoke, judge]
      cases accepted : success (function args) with
      | false =>
          have later := ih env
          simp only [heedless] at later
          simp [heedless, accepted, later, Outcome.calling, List.findIdx_cons]
      | true => simp [heedless, accepted, Outcome.calling, List.findIdx_cons]

end Heedless

/-- **Without stops the two kinds of workers differ.** Under a check that is always true
a `MultipleCallable` calls the function on every tuple, calls `handle_success` for each
accepted result and ends with the last one. A `MapCallable` calls it up to the first
accepted result, which it notifies once and ends with. -/
theorem workerKinds_heedless (function : Args → Ret) (success : Ret → Bool)
    (cast : Ret → String) (handler : Handler) (tuples : List Args) :
    (∃ events w, (heedless function success).Finishes cast (multipleWorker handler tuples)
      ([], ()) events w) ∧
    (∃ events w, (heedless function success).Finishes cast (mapWorker handler) (tuples, ())
      events w) ∧
    (∀ events w, (heedless function success).Finishes cast (multipleWorker handler tuples)
        ([], ()) events w →
      Ended cast events w.callable ⟨tuples, ((tuples.map function).filter success).getLast?,
        (tuples.map function).countP success⟩) ∧
    ∀ events w, (heedless function success).Finishes cast (mapWorker handler) (tuples, ())
        events w →
      Ended cast events w.callable ⟨tuples.take (tuples.findIdx (success ∘ function) + 1),
        (tuples.map function).find? success,
        if (tuples.map function).any success then 1 else 0⟩ := by
  obtain ⟨multiple, entersMultiple, completesMultiple⟩ :=
    multipleWorker_gathers (heedless function success) cast handler tuples ()
  obtain ⟨map, entersMap, completesMap⟩ :=
    mapWorker_completes (heedless function success) cast handler tuples ()
  refine ⟨completesMultiple.finishes entersMultiple, completesMap.finishes entersMap, ?_, ?_⟩
  · intro events w finishes
    have ended := finishes.ended entersMultiple completesMultiple
    rwa [gather_heedless, Option.or_none] at ended
  · intro events w finishes
    have ended := finishes.ended entersMap completesMap
    rwa [search_heedless] at ended

/-- Odd numbers are looked for: the one worker ends with `3`, the other with `1`. -/
theorem workerKinds_heedless_odd :
    ∃ events w events' w',
      (heedless id fun n => n % 2 == 1).Finishes toString (multipleWorker () [0, 1, 2, 3, 4])
        ([], ()) events w ∧
      (heedless id fun n => n % 2 == 1).Finishes toString (mapWorker ()) ([0, 1, 2, 3, 4], ())
        events' w' ∧
      Ended toString events w.callable ⟨[0, 1, 2, 3, 4], some 3, 2⟩ ∧
      Ended toString events' w'.callable ⟨[0, 1], some 1, 1⟩ := by
  obtain ⟨⟨events, w, finishes⟩, ⟨events', w', finishes'⟩, multiple, map⟩ :=
    workerKinds_heedless id (fun n => n % 2 == 1) toString () [0, 1, 2, 3, 4]
  exact ⟨events, w, events', w', finishes, finishes', multiple events w finishes,
    map events' w' finishes'⟩

end Environment

end ParallelLabs.Callables
