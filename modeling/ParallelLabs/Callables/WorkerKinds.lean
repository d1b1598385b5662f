import ParallelLabs.Callables.Environment
import ParallelLabs.Callables.FirstHit
import ParallelLabs.Callables.HandlerPropagation

/-!
# The two kinds of workers agree

A search through a list of tuples can be given to a worker as a `MultipleCallable`
with one `Callable` for each tuple, or as a `MapCallable` whose generator yields
the tuples. The first has the loop in the object above the calls, copies the
result and notifies there, and has no `break`; the second has all in one loop.

Both carry out the same search (`Environment.search`): check, call, judge, and
stop at the first hit, at an answer that says so, or at an exception. The
`MultipleCallable` makes one check more after its notification, and an
interrupter that keeps its contract answers it with false. So the two agree
(`workerKinds_agree`).
-/

set_option autoImplicit false

namespace ParallelLabs.Callables

open Library

variable {Env Handler Args Ret : Type}

/-- The arguments of a call of the function, which returns or throws. -/
def Deed.calledWith : Deed Handler Args Ret → Option Args
  | .leaf _ (.invoke args) _ => some args
  | _ => none

/-- A leaf whose result can be read has one. -/
theorem Fields.hasResult_of_getResult {f : Fields Handler Ret} {value : Ret}
    (read : f.getResult = some value) : f.hasResult = true := by
  rw [getResult] at read
  split at read
  · assumption
  · cases read

/-- The result after an accepted call. -/
theorem Fields.getResult_accept {f : Fields Handler Ret} {value : Ret}
    (stored : f.result = some value) (finished : f.finished = true) :
    f.accept.getResult = some value := by
  rw [getResult, accept, finished]
  exact stored

/-- A new `Callable` that was added to a `MultipleCallable`. -/
def newCallable (handler : Option Handler) (args : Args) : Tree Handler Args Ret :=
  .leaf (.callable args) ⟨(Fields.make true).addTo handler, .idle⟩

/-! ## The search -/

/-- What a worker brings about: the calls, the result and how often
`handle_success` is called. -/
structure Outcome (Args Ret : Type) where
  called : List Args
  result : Option Ret
  notifications : Nat

/-- There is one more call at the beginning. -/
def Outcome.calling (args : Args) (o : Outcome Args Ret) : Outcome Args Ret :=
  { o with called := args :: o.called }

namespace Environment

/-- After `handle_success` the next check is false. -/
def Honest (e : Environment Env Args Ret) : Prop :=
  ∀ env env', e.handle_success env = (env', true) →
    (e.check_next_sync_call env').2 = some false

section Search

variable (e : Environment Env Args Ret)

/-- The result of a call is judged. -/
def judge (value : Ret) (later : Env → Outcome Args Ret) (env : Env) : Outcome Args Ret :=
  match e.result_checker env value with
  | (_, none) => ⟨[], none, 0⟩
  | (env', some false) => later env'
  | (_, some true) => ⟨[], some value, 1⟩

/-- The function is called. -/
def invoke (args : Args) (later : Env → Outcome Args Ret) (env : Env) : Outcome Args Ret :=
  match e.function env args with
  | (_, none) => ⟨[args], none, 0⟩
  | (env', some value) => (e.judge value later env').calling args

/-- The search through a list of tuples. -/
def search : List Args → Env → Outcome Args Ret
  | [], _ => ⟨[], none, 0⟩
  | args :: tuples, env =>
    match e.check_next_sync_call env with
    | (_, none) => ⟨[], none, 0⟩
    | (_, some false) => ⟨[], none, 0⟩
    | (env', some true) => e.invoke args (search tuples) env'

/-- There is at most one notification. -/
theorem notifications_search_le (tuples : List Args) (env : Env) :
    (e.search tuples env).notifications ≤ 1 := by
  induction tuples generalizing env with
  | nil => exact Nat.zero_le 1
  | cons args tuples ih =>
      rw [search]
      rcases e.check_next_sync_call env with ⟨env', _ | _ | _⟩
      · exact Nat.zero_le 1
      · exact Nat.zero_le 1
      · show (e.invoke args (e.search tuples) env').notifications ≤ 1
        rw [invoke]
        rcases e.function env' args with ⟨env'', _ | value⟩
        · exact Nat.zero_le 1
        · show (e.judge value (e.search tuples) env'').notifications ≤ 1
          rw [judge]
          rcases e.result_checker env'' value with ⟨env₃, _ | _ | _⟩
          · exact Nat.zero_le 1
          · exact ih env₃
          · exact Nat.le_refl 1

end Search

/-! ## Completing a run -/

/-- A worker has ended with an outcome. -/
structure Ended (cast : Ret → String) (events : List (List Nat × Deed Handler Args Ret))
    (t : Tree Handler Args Ret) (o : Outcome Args Ret) : Prop where
  idle : t.Idle
  has : t.hasResult = o.result.isSome
  string : t.hasResult = true → t.toString cast = o.result.map cast
  called : events.filterMap (·.2.calledWith) = o.called
  notified : events.countP (·.2.isNotification) = o.notifications

/-- From a state the worker ends with an outcome. -/
def Completes (e : Environment Env Args Ret) (cast : Ret → String)
    (w : Worker Env Handler Args Ret) (o : Outcome Args Ret) : Prop :=
  ∃ events w', Path (e.Step cast) w events w' ∧ Ended cast events w'.callable o

variable {e : Environment Env Args Ret} {cast : Ret → String}

theorem Completes.ended {t : Tree Handler Args Ret} {outside : List Args × Env}
    {result : Option Ret} (idle : t.Idle) (has : t.hasResult = result.isSome)
    (string : t.hasResult = true → t.toString cast = result.map cast) :
    e.Completes cast ⟨t, outside⟩ ⟨[], result, 0⟩ :=
  ⟨[], _, .done _, idle, has, string, rfl, rfl⟩

section Compose

variable {w w' : Worker Env Handler Args Ret} {act : List Nat × Deed Handler Args Ret}
  {o : Outcome Args Ret}

/-- A step without a call. -/
theorem Completes.step (rest : e.Completes cast w' o) (step : e.Step cast w act w')
    (noCall : act.2.calledWith = none) (noNotification : act.2.isNotification = false) :
    e.Completes cast w o := by
  obtain ⟨events, final, path, ended⟩ := rest
  refine ⟨act :: events, final, .cons step path, ended.idle, ended.has, ended.string, ?_, ?_⟩
  · simp only [List.filterMap_cons, noCall, ended.called]
  · simp only [List.countP_cons, noNotification, ended.notified, Bool.false_eq_true, if_false,
      Nat.add_zero]

/-- A call of the function. -/
theorem Completes.call {args : Args} (rest : e.Completes cast w' o) (step : e.Step cast w act w')
    (call : act.2.calledWith = some args) (noNotification : act.2.isNotification = false) :
    e.Completes cast w (o.calling args) := by
  obtain ⟨events, final, path, ended⟩ := rest
  refine ⟨act :: events, final, .cons step path, ended.idle, ended.has, ended.string, ?_, ?_⟩
  · simp only [List.filterMap_cons, call, ended.called, Outcome.calling]
  · simp only [List.countP_cons, noNotification, ended.notified, Outcome.calling,
      Bool.false_eq_true, if_false, Nat.add_zero]

/-- A call of `handle_success`. -/
theorem Completes.notify {result : Option Ret} (rest : e.Completes cast w' ⟨[], result, 0⟩)
    (step : e.Step cast w act w') (noCall : act.2.calledWith = none)
    (notification : act.2.isNotification = true) : e.Completes cast w ⟨[], result, 1⟩ := by
  obtain ⟨events, final, path, ended⟩ := rest
  refine ⟨act :: events, final, .cons step path, ended.idle, ended.has, ended.string, ?_, ?_⟩
  · simp only [List.filterMap_cons, noCall, ended.called]
  · simp only [List.countP_cons, notification, ended.notified, if_true]

end Compose

/-! ## `MapCallable` -/

section Map

variable {f : Fields Handler Ret} {handler : Handler} {tuples : List Args}

/-- A `MapCallable` in its default mode, without a result. -/
structure Mapping (handler : Handler) (f : Fields Handler Ret) : Prop where
  notifies : f.should_call_sighandler = true
  set : f.sighandler = some handler
  unset : f.hasResultFlag = false

theorem Mapping.hasResult (mapping : Mapping handler f) : f.hasResult = false := by
  rw [Fields.hasResult, mapping.unset, Bool.and_false]

/-- It ends without a result. -/
theorem Mapping.ended {outside : List Args × Env} (mapping : Mapping handler f) :
    e.Completes cast ⟨.leaf .mapCallable ⟨f, .idle⟩, outside⟩ ⟨[], none, 0⟩ := by
  refine .ended rfl mapping.hasResult fun has => ?_
  rw [show (Tree.leaf .mapCallable ⟨f, .idle⟩ : Tree Handler Args Ret).hasResult = false from
    mapping.hasResult] at has
  cases has

/-- A step of it. -/
theorem Mapping.step {s s' : State Handler Args Ret} {event : Event Handler Args Ret}
    {outside outside' : List Args × Env} (own : MapCallable.Step s event s')
    (running : s.point ≠ .idle) (answered : e.event s outside = (event, outside')) :
    e.Step cast ⟨.leaf .mapCallable s, outside⟩ ([], .leaf .mapCallable s.point event)
      ⟨.leaf .mapCallable s', outside'⟩ :=
  ⟨running, _, .leaf .mapCallable own, answered.symm⟩

/-- It notifies its hit. -/
theorem Mapping.notify {value : Ret} (set : f.sighandler = some handler)
    (has : f.getResult = some value) (env : Env) :
    e.Completes cast ⟨.leaf .mapCallable ⟨f, .notify⟩, (tuples, env)⟩ ⟨[], some value, 1⟩ := by
  have ended : ∀ env', e.Completes cast ⟨.leaf .mapCallable ⟨f, .idle⟩, (tuples, env')⟩
      ⟨[], some value, 0⟩ := fun env' => by
    refine .ended rfl (Fields.hasResult_of_getResult has) fun _ => ?_
    rw [Tree.toString, has]
  rcases notified : e.handle_success env with ⟨env', _ | _⟩
  · have answered : e.event ⟨f, .notify⟩ (tuples, env) = (.throws, tuples, env') := by
      simp only [event, notified]
    exact (ended env').notify (Mapping.step (.throws f .notify nofun) nofun answered) rfl rfl
  · have answered : e.event ⟨f, .notify⟩ (tuples, env) = (.handleSuccess, tuples, env') := by
      simp only [event, notified]
    exact (ended env').notify (Mapping.step (.handleSuccess f handler set) nofun answered) rfl rfl

/-- It judges a result. -/
theorem Mapping.judge {value : Ret} {later : Env → Outcome Args Ret} (mapping : Mapping handler f)
    (stored : f.result = some value) (finished : f.finished = true)
    (goesOn : ∀ env, e.Completes cast ⟨.leaf .mapCallable ⟨f, .test⟩, (tuples, env)⟩ (later env))
    (env : Env) :
    e.Completes cast ⟨.leaf .mapCallable ⟨f, .judge⟩, (tuples, env)⟩ (e.judge value later env) := by
  rw [Environment.judge]
  rcases judged : e.result_checker env value with ⟨env', _ | _ | _⟩
  · have answered : e.event ⟨f, .judge⟩ (tuples, env) = (.throws, tuples, env') := by
      simp only [event, stored, judged]
    exact mapping.ended.step (Mapping.step (.throws f .judge nofun) nofun answered) rfl rfl
  · have answered : e.event ⟨f, .judge⟩ (tuples, env) =
        (.resultChecker value false, tuples, env') := by
      simp only [event, stored, judged]
    exact (goesOn env').step (Mapping.step (.rejected f value stored) nofun answered) rfl rfl
  · have answered : e.event ⟨f, .judge⟩ (tuples, env) =
        (.resultChecker value true, tuples, env') := by
      simp only [event, stored, judged]
    have accepted : MapCallable.Step (⟨f, .judge⟩ : State Handler Args Ret) _ _ :=
      .accepted f value stored
    rw [mapping.notifies, if_pos rfl] at accepted
    have set : f.accept.sighandler = some handler := mapping.set
    exact (Mapping.notify set (Fields.getResult_accept stored finished) env').step
      (Mapping.step accepted nofun answered) rfl rfl

/-- It calls the function. -/
theorem Mapping.invoke {args : Args} {later : Env → Outcome Args Ret} (mapping : Mapping handler f)
    (goesOn : ∀ f env, Mapping handler f →
      e.Completes cast ⟨.leaf .mapCallable ⟨f, .test⟩, (tuples, env)⟩ (later env))
    (env : Env) :
    e.Completes cast ⟨.leaf .mapCallable ⟨f, .invoke args⟩, (tuples, env)⟩
      (e.invoke args later env) := by
  rw [Environment.invoke]
  rcases called : e.function env args with ⟨env', _ | value⟩
  · have answered : e.event ⟨f, .invoke args⟩ (tuples, env) = (.throws, tuples, env') := by
      simp only [event, called]
    exact mapping.ended.call (Mapping.step (.throws f (.invoke args) nofun) nofun answered) rfl rfl
  · have answered : e.event ⟨f, .invoke args⟩ (tuples, env) = (.call args value, tuples, env') := by
      simp only [event, called]
    have after : Mapping handler (f.store value) := ⟨mapping.notifies, mapping.set, mapping.unset⟩
    exact (after.judge rfl rfl (fun env => goesOn _ env after) env').call
      (Mapping.step (.call f args value) nofun answered) rfl rfl

/-- **A `MapCallable` carries out the search** through the tuples of its generator. -/
theorem Mapping.search (mapping : Mapping handler f) (tuples : List Args) (env : Env) :
    e.Completes cast ⟨.leaf .mapCallable ⟨f, .test⟩, (tuples, env)⟩ (e.search tuples env) := by
  induction tuples generalizing f env with
  | nil => exact mapping.ended.step (Mapping.step (.exhausted f) nofun rfl) rfl rfl
  | cons args tuples ih =>
      -- The generator has been asked and has moved on before the check.
      suffices checked : e.Completes cast ⟨.leaf .mapCallable ⟨f, .poll args⟩, (tuples, env)⟩
          (e.search (args :: tuples) env) by
        refine Completes.step ?_ (Mapping.step (.more f) nofun rfl) rfl rfl
        exact checked.step (Mapping.step (.next f args) nofun rfl) rfl rfl
      rw [Environment.search]
      rcases answer : e.check_next_sync_call env with ⟨env', _ | _ | _⟩
      · have answered : e.event ⟨f, .poll args⟩ (tuples, env) = (.throws, tuples, env') := by
          simp only [event, answer]
        exact mapping.ended.step (Mapping.step (.throws f (.poll args) nofun) nofun answered)
          rfl rfl
      · have answered : e.event ⟨f, .poll args⟩ (tuples, env) =
            (.checkNextSyncCall false, tuples, env') := by
          simp only [event, answer]
        exact mapping.ended.step (Mapping.step (.stop f args handler mapping.set) nofun answered)
          rfl rfl
      · have answered : e.event ⟨f, .poll args⟩ (tuples, env) =
            (.checkNextSyncCall true, tuples, env') := by
          simp only [event, answer]
        exact (mapping.invoke (fun _ env mapping => ih mapping env) env').step
          (Mapping.step (.goOn f args handler mapping.set) nofun answered) rfl rfl

end Map

/-! ## `MultipleCallable` -/

section Multiple

variable {f : MultipleFields Handler} {g : Fields Handler Ret} {handler : Handler}
  {tuples : List Args} {cs : List (Tree Handler Args Ret)} {i : Nat} {args : Args}

/-- A `Callable` of a `MultipleCallable`, without a result. -/
structure Single (g : Fields Handler Ret) : Prop where
  silent : g.should_call_sighandler = false
  unset : g.hasResultFlag = false

/-- The callables behind an index have not been run. -/
def Waiting (handler : Handler) (i : Nat) (cs : List (Tree Handler Args Ret)) (later : List Args) :
    Prop :=
  cs.drop i = later.map (newCallable (some handler))

theorem Waiting.set {later : List Args} (waiting : Waiting handler (i + 1) cs later)
    (t : Tree Handler Args Ret) : Waiting handler (i + 1) (cs.set i t) later := by
  rw [Waiting, List.drop_set_of_lt (Nat.lt_succ_self i)]
  exact waiting

theorem getElem?_set_current {t : Tree Handler Args Ret} (current : cs[i]? = some t)
    (t' : Tree Handler Args Ret) : (cs.set i t')[i]? = some t' :=
  List.getElem?_set_self (List.getElem?_eq_some_iff.mp current).1

/-- A step of the loop. -/
theorem loop_step {point : MultiplePoint} {t' : Tree Handler Args Ret}
    {deed : Deed Handler Args Ret} {outside outside' : List Args × Env} (running : point ≠ .idle)
    (step : (Tree.multiple f point cs).Step cast [] deed false t')
    (answered : e.Answers [] (.multiple f point cs) deed outside outside') :
    e.Step cast ⟨.multiple f point cs, outside⟩ ([], deed) ⟨t', outside'⟩ :=
  ⟨running, _, step, answered⟩

/-- A check of the loop, with its answer. -/
theorem answers_check {point : MultiplePoint} {callable : Bool} {env env' : Env}
    {answer : Option Bool} (checked : e.check_next_sync_call env = (env', answer)) :
    e.Answers [] (.multiple f point cs) (.checkNextSyncCall callable answer) (tuples, env)
      (tuples, env') := by
  rw [Answers, checked]

/-- A call of `handle_success` in the loop. -/
theorem answers_notify {point : MultiplePoint} {env env' : Env} {returns : Bool}
    (notified : e.handle_success env = (env', returns)) :
    e.Answers [] (.multiple f point cs) (.handleSuccess returns) (tuples, env) (tuples, env') := by
  rw [Answers, notified]

/-- A step of the callable that the loop is inside of. -/
theorem inside_step {s s' : State Handler Args Ret} {event : Event Handler Args Ret}
    {outside outside' : List Args × Env} (current : cs[i]? = some (.leaf (.callable args) s))
    (running : s.point ≠ .idle) (own : Callable.Step args s event s')
    (stays : (Class.callable args).escapes event = false)
    (answered : e.event s outside = (event, outside')) :
    e.Step cast ⟨.multiple f (.inside i) cs, outside⟩ ([i], .leaf (.callable args) s.point event)
      ⟨.multiple f (.inside i) (cs.set i (.leaf (.callable args) s')), outside'⟩ := by
  have step : Tree.Step cast (.leaf (.callable args) s) [] (.leaf (.callable args) s.point event)
      ((Class.callable args).escapes event) (.leaf (.callable args) s') :=
    .leaf (.callable args) own
  rw [stays] at step
  exact ⟨nofun, _, .inside f i cs current running step, _, current, answered.symm⟩

/-- It throws. -/
theorem inside_throws {s s' : State Handler Args Ret} {outside outside' : List Args × Env}
    (current : cs[i]? = some (.leaf (.callable args) s)) (running : s.point ≠ .idle)
    (own : Callable.Step args s .throws s')
    (answered : e.event s outside = (.throws, outside')) :
    e.Step cast ⟨.multiple f (.inside i) cs, outside⟩ ([i], .leaf (.callable args) s.point .throws)
      ⟨.multiple f .idle (cs.set i (.leaf (.callable args) s')), outside'⟩ :=
  ⟨nofun, _, .insideThrows f i cs current running (.leaf (.callable args) own), _, current,
    answered.symm⟩

/-- A `MultipleCallable` ends without a result. -/
theorem multiple_ended {outside : List Args × Env} (unset : f.hasResultFlag = false) :
    e.Completes cast ⟨.multiple f .idle cs, outside⟩ ⟨[], none, 0⟩ := by
  have none : (Tree.multiple f .idle cs).hasResult = false := by
    rw [Tree.hasResult, MultipleFields.hasResult, unset, Bool.false_and]
  refine .ended rfl none fun has => ?_
  rw [none] at has
  cases has

/-- It ends with the result that was copied. -/
theorem multiple_endedResult {outside : List Args × Env} (value : Ret) :
    e.Completes cast ⟨.multiple (f.store (cast value)) .idle cs, outside⟩ ⟨[], some value, 0⟩ :=
  .ended rfl rfl fun _ => rfl

/-- After the notification the loop ends. -/
theorem multiple_stops {env : Env} (set : f.sighandler = some handler) (value : Ret)
    (stop : (e.check_next_sync_call env).2 = some false) :
    e.Completes cast ⟨.multiple (f.store (cast value)) (.poll i) cs, (tuples, env)⟩
      ⟨[], some value, 0⟩ := by
  cases next : cs[i]? with
  | none =>
      have last := List.getElem?_eq_none_iff.mp next
      exact (multiple_endedResult value).step (loop_step nofun (.exhausted _ i cs last) rfl) rfl rfl
  | some t =>
      have checked : e.check_next_sync_call env = ((e.check_next_sync_call env).1, some false) :=
        Prod.ext rfl stop
      exact (multiple_endedResult value).step
        (loop_step nofun (.stop _ i cs next set) (answers_check checked)) rfl rfl

/-- It notifies its hit. -/
theorem multiple_notify (honest : e.Honest) (set : f.sighandler = some handler) (value : Ret)
    (env : Env) :
    e.Completes cast ⟨.multiple (f.store (cast value)) (.notify i) cs, (tuples, env)⟩
      ⟨[], some value, 1⟩ := by
  rcases notified : e.handle_success env with ⟨env', _ | _⟩
  · exact (multiple_endedResult value).notify
      (loop_step nofun (.handleThrows _ i cs set) (answers_notify notified)) rfl rfl
  · exact (multiple_stops set value (honest env env' notified)).notify
      (loop_step nofun (.handleSuccess _ i cs set) (answers_notify notified)) rfl rfl

/-- A callable judges its result. -/
theorem multiple_judge {value : Ret} {later : Env → Outcome Args Ret} (honest : e.Honest)
    (set : f.sighandler = some handler) (unset : f.hasResultFlag = false) (single : Single g)
    (stored : g.result = some value) (finished : g.finished = true)
    (current : cs[i]? = some (.leaf (.callable args) ⟨g, .judge⟩))
    (goesOn : ∀ t env, e.Completes cast ⟨.multiple f (.poll (i + 1)) (cs.set i t), (tuples, env)⟩
      (later env)) (env : Env) :
    e.Completes cast ⟨.multiple f (.inside i) cs, (tuples, env)⟩ (e.judge value later env) := by
  have judging : (⟨g, .judge⟩ : State Handler Args Ret).point ≠ .idle := by
    intro same
    cases same
  have within : MultiplePoint.inside i ≠ .idle := by
    intro same
    cases same
  rw [judge]
  rcases judged : e.result_checker env value with ⟨env', _ | _ | _⟩
  · have answered : e.event ⟨g, .judge⟩ (tuples, env) = (.throws, tuples, env') := by
      simp only [event, stored, judged]
    exact (multiple_ended unset).step
      (inside_throws current judging (.throws g .judge judging) answered) rfl rfl
  · have answered : e.event ⟨g, .judge⟩ (tuples, env) =
        (.resultChecker value false, tuples, env') := by
      simp only [event, stored, judged]
    have none : (Tree.leaf (.callable args) ⟨g, .idle⟩ : Tree Handler Args Ret).hasResult =
        false := by
      rw [Tree.hasResult, Fields.hasResult, single.unset, Bool.and_false]
    refine Completes.step ?_
      (inside_step current judging (.rejected g value stored) rfl answered) rfl rfl
    exact (goesOn _ env').step
      (loop_step within (.returned f i _ (getElem?_set_current current _) rfl none) rfl) rfl rfl
  · have answered : e.event ⟨g, .judge⟩ (tuples, env) =
        (.resultChecker value true, tuples, env') := by
      simp only [event, stored, judged]
    have accepted : Callable.Step args ⟨g, .judge⟩ _ _ := .accepted g value stored
    rw [single.silent, if_neg Bool.false_ne_true] at accepted
    have read := Fields.getResult_accept stored finished
    have converted : (Tree.leaf (.callable args) ⟨g.accept, .idle⟩ : Tree Handler Args Ret).toString
        cast = some (cast value) := by
      rw [Tree.toString, read]
      rfl
    have there := getElem?_set_current current (.leaf (.callable args) ⟨g.accept, .idle⟩)
    have copied := Tree.Step.returnedResult f i _ there rfl (Fields.hasResult_of_getResult read)
      converted
    refine Completes.step ?_ (inside_step current judging accepted rfl answered) rfl rfl
    exact (multiple_notify honest set value env').step (loop_step within copied rfl) rfl rfl

/-- A callable calls its function. -/
theorem multiple_invoke {later : Env → Outcome Args Ret} (honest : e.Honest)
    (set : f.sighandler = some handler) (unset : f.hasResultFlag = false) (single : Single g)
    (current : cs[i]? = some (.leaf (.callable args) ⟨g, .invoke args⟩))
    (goesOn : ∀ t env, e.Completes cast ⟨.multiple f (.poll (i + 1)) (cs.set i t), (tuples, env)⟩
      (later env)) (env : Env) :
    e.Completes cast ⟨.multiple f (.inside i) cs, (tuples, env)⟩ (e.invoke args later env) := by
  rw [invoke]
  rcases called : e.function env args with ⟨env', _ | value⟩
  · have answered : e.event ⟨g, .invoke args⟩ (tuples, env) = (.throws, tuples, env') := by
      simp only [event, called]
    exact (multiple_ended unset).call
      (inside_throws current nofun (.throws g (.invoke args) nofun) answered) rfl rfl
  · have answered : e.event ⟨g, .invoke args⟩ (tuples, env) = (.call args value, tuples, env') := by
      simp only [event, called]
    have after : Single (g.store value) := ⟨single.silent, single.unset⟩
    refine Completes.call ?_ (inside_step current nofun (.call g value) rfl answered) rfl rfl
    refine multiple_judge honest set unset after rfl rfl (getElem?_set_current current _)
      (fun t env => ?_) env'
    rw [List.set_set]
    exact goesOn t env

/-- **A `MultipleCallable` carries out the search** through the tuples of its callables. -/
theorem multiple_search (honest : e.Honest) (set : f.sighandler = some handler)
    (unset : f.hasResultFlag = false) (later : List Args) (waiting : Waiting handler i cs later)
    (env : Env) :
    e.Completes cast ⟨.multiple f (.poll i) cs, (tuples, env)⟩ (e.search later env) := by
  induction later generalizing i cs env with
  | nil =>
      have last : cs.length ≤ i := List.drop_eq_nil_iff.mp waiting
      exact (multiple_ended unset).step (loop_step nofun (.exhausted f i cs last) rfl) rfl rfl
  | cons args later ih =>
      have next : cs[i]? = some (newCallable (some handler) args) := by
        rw [← List.head?_drop, show cs.drop i = _ from waiting]
        rfl
      have behind : Waiting handler (i + 1) cs later := by
        rw [Waiting, ← List.tail_drop, show cs.drop i = _ from waiting]
        rfl
      rw [search]
      rcases answer : e.check_next_sync_call env with ⟨env', _ | _ | _⟩
      · exact (multiple_ended unset).step
          (loop_step nofun (.checkThrows f i cs next set) (answers_check answer)) rfl rfl
      · exact (multiple_ended unset).step
          (loop_step nofun (.stop f i cs next set) (answers_check answer)) rfl rfl
      · refine Completes.step ?_
          (loop_step nofun (.goOn f i cs next set) (answers_check answer)) rfl rfl
        have entered : e.Step cast ⟨.multiple f (.enter i) cs, (tuples, env')⟩
            ([i], .leaf (.callable args) .idle .run) ⟨.multiple f (.inside i) (cs.set i
              (.leaf (.callable args) ⟨(Fields.make true).addTo (some handler), .invoke args⟩)),
              (tuples, env')⟩ :=
          ⟨nofun, _, .enter f i cs next (.leaf (.callable args) (Callable.Step.run _ rfl)), _, next,
            rfl⟩
        refine Completes.step ?_ entered rfl rfl
        refine multiple_invoke honest set unset ⟨rfl, rfl⟩ (getElem?_set_current next _)
          (fun t env => ?_) env'
        rw [List.set_set]
        exact ih (behind.set t) env

end Multiple

end Environment

/-! ## The two workers -/

/-- `add_single_callable` of a new `Callable` for a tuple. -/
def pushCallable (t : Tree Handler Args Ret) (args : Args) : Tree Handler Args Ret :=
  (t.addSingleCallable (.leaf (.callable args) ⟨.make true, .idle⟩) []).getD t

/-- A `MultipleCallable` with a `Callable` for each tuple, which got a handler. -/
def multipleWorker (handler : Handler) (tuples : List Args) : Tree Handler Args Ret :=
  (tuples.foldl pushCallable (.multiple .make .idle [])).setSigHandler (some handler)

/-- A `MapCallable` that got a handler. -/
def mapWorker (handler : Handler) : Tree Handler Args Ret :=
  (Tree.leaf .mapCallable ⟨.make true, .idle⟩).setSigHandler (some handler)

theorem foldl_pushCallable (f : MultipleFields Handler) (tuples : List Args)
    (cs : List (Tree Handler Args Ret)) :
    tuples.foldl pushCallable (.multiple f .idle cs) =
      .multiple f .idle (cs ++ tuples.map (newCallable f.sighandler)) := by
  induction tuples generalizing cs with
  | nil => rw [List.foldl_nil, List.map_nil, List.append_nil]
  | cons args tuples ih =>
      rw [List.foldl_cons, List.map_cons, List.append_cons]
      exact ih _

theorem setSigHandlers_newCallable (handler : Handler) (tuples : List Args) :
    Tree.setSigHandlers (some handler)
        (tuples.map (newCallable none : Args → Tree Handler Args Ret)) =
      tuples.map (newCallable (some handler)) := by
  induction tuples with
  | nil => rfl
  | cons args tuples ih =>
      rw [List.map_cons, Tree.setSigHandlers, ih]
      rfl

theorem multipleWorker_eq (handler : Handler) (tuples : List Args) :
    (multipleWorker handler tuples : Tree Handler Args Ret) =
      .multiple (.withHandler handler) .idle (tuples.map (newCallable (some handler))) := by
  rw [multipleWorker, foldl_pushCallable, List.nil_append, Tree.setSigHandler,
    show (MultipleFields.make : MultipleFields Handler).sighandler = none from rfl,
    setSigHandlers_newCallable]
  rfl

namespace Environment

/-- A run of a callable that has ended. -/
structure Finishes (e : Environment Env Args Ret) (cast : Ret → String)
    (t : Tree Handler Args Ret) (outside : List Args × Env)
    (events : List (List Nat × Deed Handler Args Ret)) (w : Worker Env Handler Args Ret) :
    Prop where
  run : Run (e.Step cast) (Entered cast t outside) events w
  idle : w.callable.Idle

variable {e : Environment Env Args Ret} {cast : Ret → String}

/-- A worker that has a way to an outcome has no other. -/
theorem Finishes.ended {t : Tree Handler Args Ret} {outside : List Args × Env}
    {entered w : Worker Env Handler Args Ret} {o : Outcome Args Ret}
    {events : List (List Nat × Deed Handler Args Ret)}
    (finishes : e.Finishes cast t outside events w) (enters : Entered cast t outside entered)
    (completes : e.Completes cast entered o) : Ended cast events w.callable o := by
  obtain ⟨others, w', path, ended⟩ := completes
  have start : Run (e.Step cast) (Entered cast t outside) [] entered := .start enters
  have run := start.append path
  obtain ⟨same, rfl⟩ := (e.deterministic cast).eq_of_stuck entered_unique finishes.run
    (fun _ _ step => step.1 finishes.idle) run (fun _ _ step => step.1 ended.idle)
  rw [same, List.nil_append]
  exact ended

/-- A way to an outcome is a run. -/
theorem Completes.finishes {t : Tree Handler Args Ret} {outside : List Args × Env}
    {entered : Worker Env Handler Args Ret} {o : Outcome Args Ret}
    (completes : e.Completes cast entered o) (enters : Entered cast t outside entered) :
    ∃ events w, e.Finishes cast t outside events w := by
  obtain ⟨events, w, path, ended⟩ := completes
  have start : Run (e.Step cast) (Entered cast t outside) [] entered := .start enters
  exact ⟨_, w, start.append path, ended.idle⟩

theorem multipleWorker_completes (e : Environment Env Args Ret) (honest : e.Honest)
    (cast : Ret → String) (handler : Handler) (tuples : List Args) (env : Env) :
    ∃ entered, Entered cast (multipleWorker handler tuples) ([], env) entered ∧
      e.Completes cast entered (e.search tuples env) := by
  rw [multipleWorker_eq]
  have waiting : Waiting handler 0
      (tuples.map (newCallable (some handler) : Args → Tree Handler Args Ret)) tuples := rfl
  exact ⟨⟨.multiple (.withHandler handler) (.poll 0) _, ([], env)⟩, ⟨_, rfl, .run _ _ rfl, rfl⟩,
    multiple_search honest rfl rfl tuples waiting env⟩

theorem mapWorker_completes (e : Environment Env Args Ret) (cast : Ret → String)
    (handler : Handler) (tuples : List Args) (env : Env) :
    ∃ entered, Entered cast (mapWorker handler) (tuples, env) entered ∧
      e.Completes cast entered (e.search tuples env) := by
  have mapping : Mapping handler ((Fields.make true : Fields Handler Ret).setSigHandler
      (some handler)) := ⟨rfl, rfl, rfl⟩
  exact ⟨_, ⟨_, rfl, .leaf .mapCallable (MapCallable.Step.run _ rfl), rfl⟩,
    mapping.search tuples env⟩

/-- **The two kinds of workers agree.** On the same tuples, in the same environment
with an interrupter that keeps its contract, both end, with the same result, the
same calls and the same number of notifications. -/
theorem workerKinds_agree (e : Environment Env Args Ret) (honest : e.Honest) (cast : Ret → String)
    (handler : Handler) (tuples : List Args) (env : Env) :
    (∃ events w, e.Finishes cast (multipleWorker handler tuples) ([], env) events w) ∧
    (∃ events w, e.Finishes cast (mapWorker handler) (tuples, env) events w) ∧
    ∀ events w events' w',
      e.Finishes cast (multipleWorker handler tuples) ([], env) events w →
      e.Finishes cast (mapWorker handler) (tuples, env) events' w' →
      w.callable.hasResult = w'.callable.hasResult ∧
        (w.callable.hasResult = true → w.callable.toString cast = w'.callable.toString cast) ∧
        events.filterMap (·.2.calledWith) = events'.filterMap (·.2.calledWith) ∧
        events.countP (·.2.isNotification) = events'.countP (·.2.isNotification) ∧
        events.countP (·.2.isNotification) ≤ 1 := by
  obtain ⟨multiple, entersMultiple, completesMultiple⟩ :=
    multipleWorker_completes e honest cast handler tuples env
  obtain ⟨map, entersMap, completesMap⟩ := mapWorker_completes e cast handler tuples env
  refine ⟨completesMultiple.finishes entersMultiple, completesMap.finishes entersMap, ?_⟩
  intro events w events' w' finishes finishes'
  have ended := finishes.ended entersMultiple completesMultiple
  have ended' := finishes'.ended entersMap completesMap
  have same := ended.has.trans ended'.has.symm
  refine ⟨same, fun has => ?_, ended.called.trans ended'.called.symm,
    ended.notified.trans ended'.notified.symm, ?_⟩
  · exact (ended.string has).trans (ended'.string (same ▸ has)).symm
  · rw [ended.notified]
    exact e.notifications_search_le tuples env

/-- Numbers are looked through for a one; the interrupter says stop when it has been
notified. -/
def flagged : Environment Bool Nat Nat where
  function env args := (env, some args)
  result_checker env value := (env, some (value == 1))
  check_next_sync_call env := (env, some !env)
  handle_success _ := (true, true)

theorem workerKinds_agree_flagged :
    ∃ events w events' w',
      flagged.Finishes (fun _ => "") (multipleWorker () [0, 1, 2]) ([], false) events w ∧
      flagged.Finishes (fun _ => "") (mapWorker ()) ([0, 1, 2], false) events' w' ∧
      w.callable.hasResult = w'.callable.hasResult ∧
      events.filterMap (·.2.calledWith) = events'.filterMap (·.2.calledWith) := by
  have honest : flagged.Honest := fun env env' notified => by
    obtain ⟨rfl, _⟩ := Prod.mk.inj notified
    rfl
  obtain ⟨⟨events, w, finishes⟩, ⟨events', w', finishes'⟩, agree⟩ :=
    workerKinds_agree flagged honest (fun _ => "") () [0, 1, 2] false
  obtain ⟨has, _, called, _⟩ := agree events w events' w' finishes finishes'
  exact ⟨events, w, events', w', finishes, finishes', has, called⟩

end Environment

end ParallelLabs.Callables
