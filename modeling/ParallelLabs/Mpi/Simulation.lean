import ParallelLabs.Decryptor.SearchUnits
import ParallelLabs.Library.Simulation
import ParallelLabs.Mpi.Slots

/-!
# The search on the ranks

`MPIParallelRunner` on the workers of `prepare_mapped_functions` with the point-to-point
interrupter. A run of the ranks is a run of the search (`mpiSimulation`): a callable
that waits stands at the test of its loop there, and one that has sent its first stop has
returned. The messages take their time and may come in any order.

A check that says stop is the first of its callable. So a callable that is stopped has
tried no key at all; every other one goes on to its first accepted key, whatever stops
reach its rank.
-/

set_option autoImplicit false

namespace ParallelLabs.Mpi

open Library Twofish Callables Decryptor Runners

/-- The callable of a number. The numbers from the count on are not used. -/
def rankCallable (prepared : Prepared DecryptorSequence) (id : Nat) :
    AbstractCallable (Decryptor.Worker Unit) :=
  { searchCallable prepared id with
    initial := fun w => w.state = ⟨(Fields.make true).setSigHandler (some ()), .idle⟩ ∧
      ∀ seq, prepared.workers[id]? = some seq → w.seq = seq }

/-- The slots of the search. -/
abbrev SearchSlot := Slot (Decryptor.Worker Unit)

/-- A callable as the search sees it. -/
def searchSlot (slot : SearchSlot) : Decryptor.Worker Unit :=
  if slot.turn = .waiting then ⟨⟨slot.object.state.fields, .test⟩, slot.object.seq⟩
  else if 0 < slot.sent then ⟨⟨slot.object.state.fields, .idle⟩, slot.object.seq⟩
  else slot.object

/-- At the check of an argument. -/
def AtCheck (point : Point ArgType) : Prop := ∃ args, point = .poll args

/-- What the turn says about a callable. Every tuple of its generator is checked once. -/
def SlotForm (slot : SearchSlot) : Prop :=
  match slot.turn with
  | .waiting => slot.object.state = ⟨(Fields.make true).setSigHandler (some ()), .idle⟩ ∧
      slot.sent = 0 ∧ slot.calls = 0 ∧ slot.object.seq.j = 0
  | .inside => (slot.checking = true → AtCheck slot.object.state.point) ∧
      (0 < slot.sent → slot.object.state.point = .notify) ∧
      (AtCheck slot.object.state.point → slot.checking = false →
        slot.object.seq.j = slot.calls + 1) ∧
      (¬ AtCheck slot.object.state.point ∨ slot.checking = true →
        slot.object.seq.j = slot.calls)
  | .returned => slot.object.state.point = .idle ∧ slot.sent = 0

/-- The callable has returned after the check of its first tuple. -/
def Refused (slot : SearchSlot) : Prop :=
  slot.turn ≠ .waiting ∧ slot.object.state.point = .idle ∧ slot.object.seq.j = 1

/-- Some rank has sent a stop. -/
def Sending (past : List Event) : Prop := ∃ r, .send r ∈ past

variable {size n : Nat} {prepared : Prepared DecryptorSequence}

/-- **The ranks and the search behind them.** -/
structure SlotsRelated (past : List Event) (slots : Nat → SearchSlot)
    (past' : List (Fin n × SearchEvent)) (s : System Unit n) : Prop
    extends Behind searchSlot SlotForm (fun _ => Refused) (fun i : Fin n => slots i) past' s where
  notified : Sending past → s.notified = true
  begun : ∀ i : Fin n, 0 < (slots i).sent → Sending past

/-- The search takes a step when the slot does. -/
def Move.seen (sent : Nat) : Move → Bool
  | .work | .test _ => true
  | .send => sent = 0
  | .run | .check | .handleSuccess | .returns => false

/-- The slots of the callables, with one of them changed. -/
theorem update_slots (slots : Nat → SearchSlot) (i : Fin n) (slot : SearchSlot) :
    (fun j : Fin n => Function.update slots i slot j) =
      Function.update (fun j : Fin n => slots j) i slot :=
  Function.update_comp_eq_of_injective slots Fin.val_injective i slot

namespace SlotsRelated

variable {past : List Event} {slots : Nat → SearchSlot} {past' : List (Fin n × SearchEvent)}
  {s : System Unit n} {event : Event} {i : Fin n} {slot : SearchSlot}

theorem begun_update (related : SlotsRelated past slots past' s)
    (begun : 0 < slot.sent → Sending (past ++ [event])) (j : Fin n)
    (some : 0 < (Function.update slots i slot j).sent) : Sending (past ++ [event]) := by
  by_cases same : j = i
  · subst same
    rw [Function.update_self] at some
    exact begun some
  · rw [Function.update_of_ne fun here => same (Fin.ext here)] at some
    exact (related.begun j some).imp fun _ => List.mem_append_left _

/-- A step that the search does not see. -/
theorem stutter (related : SlotsRelated past slots past' s)
    (quiet : Sending (past ++ [event]) → Sending past)
    (form : SlotForm slot) (same : searchSlot slot = searchSlot (slots i))
    (kept : Refused (slots i) → Refused slot)
    (begun : 0 < slot.sent → Sending (past ++ [event])) :
    SlotsRelated (past ++ [event]) (Function.update slots i slot) past' s := by
  refine ⟨?_, fun sending => related.notified (quiet sending), related.begun_update begun⟩
  rw [update_slots]
  exact related.toBehind.stutter form same kept

/-- A step that the search takes too. -/
theorem move (related : SlotsRelated past slots past' s) (form : SlotForm slot)
    {w w' : Decryptor.Worker Unit} (before : searchSlot (slots i) = w)
    (after : searchSlot slot = w') {own : SearchEvent} {notified : Bool}
    (step : MapCallable.Step w.state own w'.state)
    (answers : Answers prepared.expected s.notified w.state.point w.seq own w'.seq notified)
    (told : Sending (past ++ [event]) → Sending past ∨ notified = true)
    (kept : Refused (slots i) → Refused slot)
    (begun : 0 < slot.sent → Sending (past ++ [event]))
    (stops : own = .checkNextSyncCall false ∨ own = .throws → Refused slot) :
    ∃ t', Path (System.Step prepared.expected) s [(i, own)] t' ∧
      SlotsRelated (past ++ [event]) (Function.update slots i slot) (past' ++ [(i, own)]) t' := by
  obtain ⟨t', next, rfl, behind⟩ :=
    related.toBehind.move form before after step answers kept stops
  refine ⟨t', .single next, ?_, fun sending => ?_, related.begun_update begun⟩
  · rw [update_slots]
    exact behind
  · exact (told sending).elim (fun earlier => answers.later (related.notified earlier)) id

end SlotsRelated

/-! ## The steps of a callable -/

section Seen

variable {o : Decryptor.Worker Unit} {k sent : Nat} {checking : Bool}

theorem slotForm_waiting : SlotForm ⟨.waiting, o, k, checking, sent⟩ ↔
    o.state = ⟨(Fields.make true).setSigHandler (some ()), .idle⟩ ∧ sent = 0 ∧ k = 0 ∧
      o.seq.j = 0 :=
  Iff.rfl

theorem slotForm_inside : SlotForm ⟨.inside, o, k, checking, sent⟩ ↔
    (checking = true → AtCheck o.state.point) ∧ (0 < sent → o.state.point = .notify) ∧
      (AtCheck o.state.point → checking = false → o.seq.j = k + 1) ∧
      (¬ AtCheck o.state.point ∨ checking = true → o.seq.j = k) :=
  Iff.rfl

/-- The search sees the fields as they are. -/
theorem fields_searchSlot (slot : SearchSlot) :
    (searchSlot slot).state.fields = slot.object.state.fields := by
  rw [searchSlot]
  split
  · rfl
  · split <;> rfl

/-- A callable inside a check has sent nothing. -/
theorem sent_of_checking (form : SlotForm ⟨.inside, o, k, true, sent⟩) : sent = 0 := by
  obtain ⟨atCheck, notify, -, -⟩ := slotForm_inside.mp form
  obtain ⟨args, poll⟩ := atCheck rfl
  rcases Nat.eq_zero_or_pos sent with none | some
  · exact none
  · exact absurd (poll.symm.trans (notify some)) nofun

/-- A callable that has sent a stop is seen as returned. -/
theorem searchSlot_sending (some : 0 < sent) :
    searchSlot ⟨.inside, o, k, checking, sent⟩ = ⟨⟨o.state.fields, .idle⟩, o.seq⟩ := by
  simp [searchSlot, some]

theorem not_atCheck_of_ne {point point' : Point ArgType} (here : point = point')
    (other : ∀ args, point' ≠ .poll args) : ¬ AtCheck point := by
  rintro ⟨args, poll⟩
  exact other args (here.symm.trans poll)

/-- After a check the object is at another point. -/
theorem not_atCheck_of_check {state state' : State Unit ArgType DecryptionResult} {answer : Bool}
    (step : MapCallable.Step state (.checkNextSyncCall answer) state') :
    ¬ AtCheck state'.point ∧ (answer = false → state'.point = .idle) := by
  cases step with
  | goOn f args handler set => exact ⟨not_atCheck_of_ne rfl nofun, nofun⟩
  | stop f args handler set => exact ⟨not_atCheck_of_ne rfl nofun, fun _ => rfl⟩

/-- Only a tuple that is fetched is counted. -/
theorem count_of_work {expected : List Byte} {own : SearchEvent}
    {state : State Unit ArgType DecryptionResult} {seq : DecryptorSequence}
    (step : MapCallable.Step o.state own state)
    (answers : Answers expected false o.state.point o.seq own seq false) :
    (AtCheck state.point → seq.j = o.seq.j + 1) ∧ (¬ AtCheck state.point → seq.j = o.seq.j) := by
  obtain ⟨⟨f, point⟩, seq₀⟩ := o
  cases step with
  | run f set => cases answers
  | more f | exhausted f =>
      cases answers with
      | hasNext computed => exact ⟨fun ⟨_, same⟩ => (by cases same), fun _ => rfl⟩
  | next f args =>
      cases answers with
      | next computed =>
          refine ⟨fun _ => ?_, fun other => absurd ⟨args, rfl⟩ other⟩
          rw [DecryptorSequence.eq_of_next computed]
  | goOn f args handler set =>
      cases answers with
      | goOn => exact ⟨fun ⟨_, same⟩ => (by cases same), fun _ => rfl⟩
  | stop f args handler set =>
      cases answers with
      | stop allowed => cases allowed
  | call f args value =>
      cases answers with
      | call computed => exact ⟨fun ⟨_, same⟩ => (by cases same), fun _ => rfl⟩
  | rejected f value stored =>
      cases answers with
      | resultChecker computed => exact ⟨fun ⟨_, same⟩ => (by cases same), fun _ => rfl⟩
  | accepted f value stored =>
      cases answers with
      | resultChecker computed =>
          refine ⟨fun ⟨_, same⟩ => ?_, fun _ => rfl⟩
          dsimp only at same
          split at same <;> cases same
  | handleSuccess f handler set => cases answers
  | throws f point running =>
      cases answers with
      | checkThrows allowed polling => cases allowed

end Seen

section Steps

variable {past : List Event} {slots : Nat → SearchSlot} {past' : List (Fin n × SearchEvent)}
  {s : System Unit n} {i : Fin n} {r : Nat} {move : Move} {slot : SearchSlot}

/-- A rank does something other than sending. -/
theorem not_sending (quiet : move ≠ .send) (sending : Sending (past ++ [move.event r])) :
    Sending past := by
  obtain ⟨r', member⟩ := sending
  rcases List.mem_append.mp member with earlier | last
  · exact ⟨r', earlier⟩
  · have same := List.mem_singleton.mp last
    cases move with
    | send => exact absurd rfl quiet
    | run | work | check | test | handleSuccess | returns => cases same

/-- **A move of a callable is a step of the search or none.** The search stops a worker
only when its check says so. -/
theorem SlotsRelated.step (related : SlotsRelated past slots past' s)
    (step : Slot.Step size (rankCallable prepared i) (slots i) move slot) (ranks : 0 < size)
    (heard : move = .test false → (slots i).calls = 1 ∧ Sending past) :
    ∃ later t', Path (System.Step prepared.expected) s later t' ∧
      later.length = (move.seen (slots i).sent).toNat ∧
      (∀ j, Search.Stopped later j → move = .test false) ∧
      SlotsRelated (past ++ [move.event r]) (Function.update slots i slot) (past' ++ later) t' := by
  have still : SlotsRelated (past ++ [move.event r]) (Function.update slots i slot) past' s →
      move.seen (slots i).sent = false →
      ∃ later t', Path (System.Step prepared.expected) s later t' ∧
        later.length = (move.seen (slots i).sent).toNat ∧
        (∀ j, Search.Stopped later j → move = .test false) ∧
        SlotsRelated (past ++ [move.event r]) (Function.update slots i slot) (past' ++ later)
          t' := fun related silent =>
    ⟨[], s, .done s, by rw [silent]; rfl, fun _ stop => absurd stop (Search.not_stopped_nil _),
      by rwa [List.append_nil]⟩
  have quiet : move ≠ .send → Sending (past ++ [move.event r]) → Sending past := not_sending
  have form := related.forms i
  have begun := related.begun i
  generalize here : slots i = before at step form heard begun still
  cases step with
  | @run o o' k own =>
      obtain ⟨moved, same⟩ := own
      obtain ⟨fresh, -, rfl, none⟩ := slotForm_waiting.mp form
      have seen : o'.state = ⟨o.state.fields, .test⟩ := run_cases moved
      have other : ¬ AtCheck o'.state.point :=
        not_atCheck_of_ne (congrArg State.point seen) nofun
      refine still (related.stutter (quiet nofun)
        (slotForm_inside.mpr ⟨nofun, nofun, fun check => absurd check other, fun _ => ?_⟩)
        ?_ (fun refused => absurd (congrArg Slot.turn here) refused.1) nofun) rfl
      · rw [same, none]
        rfl
      · rw [here]
        show o' = ⟨⟨o.state.fields, .test⟩, o.seq⟩
        rw [← seen, ← same]
  | @work o o' k own =>
      obtain ⟨own, unasked, moved, answers⟩ := own
      obtain ⟨answers', -, noThrow⟩ := answers_of_work unasked answers s.notified
      obtain ⟨noPoll, busy, -⟩ := busy_of_work unasked moved answers
      obtain ⟨-, -, -, count⟩ := slotForm_inside.mp form
      have counted := count (.inl fun ⟨args, poll⟩ => noPoll args poll)
      obtain ⟨fetched, kept⟩ := count_of_work moved answers
      have form' : SlotForm ⟨.inside, o', k, false, 0⟩ := slotForm_inside.mpr ⟨nofun, nofun,
        fun check _ => (fetched check).trans (by rw [counted]),
        fun other => (kept (other.resolve_right nofun)).trans counted⟩
      have idle : ¬ Refused (slots i) := fun refused => by
        rw [here] at refused
        exact busy refused.2.1
      obtain ⟨t', path, related'⟩ := related.move form' (congrArg searchSlot here) rfl moved
        answers' (fun sending => .inl (quiet nofun sending))
        (fun refused => absurd refused idle) nofun
        (Or.rec (fun check => absurd check (unasked false)) fun throws => absurd throws noThrow)
      exact ⟨_, t', path, rfl, fun j stop => (Search.stopped_singleton.mp stop).2.elim
        (fun check => absurd check (unasked false)) fun throws => absurd throws noThrow, related'⟩
  | @check o k own =>
      obtain ⟨answer, o', moved, -⟩ := own
      have atCheck : AtCheck o.state.point := poll_of_check moved
      obtain ⟨-, -, count, -⟩ := slotForm_inside.mp form
      refine still (related.stutter (quiet nofun)
        (slotForm_inside.mpr ⟨fun _ => atCheck, nofun, nofun, fun _ => count atCheck rfl⟩)
        (congrArg searchSlot here).symm (fun refused => ?_) nofun) rfl
      rw [here] at refused
      obtain ⟨args, poll⟩ := atCheck
      exact absurd (poll.symm.trans refused.2.1) nofun
  | @test o o' k sent answer own =>
      obtain ⟨moved, same⟩ := own
      obtain ⟨args, poll⟩ := poll_of_check moved
      obtain ⟨-, -, -, count⟩ := slotForm_inside.mp form
      obtain rfl : sent = 0 := sent_of_checking form
      have counted : o'.seq.j = k := (congrArg DecryptorSequence.j same).trans (count (.inr rfl))
      have answers : Answers prepared.expected s.notified o.state.point o.seq
          (.checkNextSyncCall answer : SearchEvent) o'.seq s.notified := by
        rw [same]
        cases answer with
        | true => exact .goOn
        | false => exact .stop (related.notified (heard rfl).2)
      obtain ⟨other, idle⟩ := not_atCheck_of_check moved
      have form' : SlotForm ⟨.inside, o', k, false, 0⟩ := slotForm_inside.mpr ⟨nofun, nofun,
        fun check => absurd check other, fun _ => counted⟩
      have busy : ¬ Refused (slots i) := fun refused => by
        rw [here] at refused
        exact absurd (poll.symm.trans refused.2.1) nofun
      obtain ⟨t', path, related'⟩ := related.move form' (congrArg searchSlot here) rfl moved
        answers (fun sending => .inl (quiet nofun sending))
        (fun refused => absurd refused busy) nofun (by
          rintro (check | throws)
          · cases check
            refine ⟨nofun, idle rfl, ?_⟩
            show o'.seq.j = 1
            rw [counted, show k = 1 from (heard rfl).1]
            rfl
          · cases throws)
      refine ⟨_, t', path, rfl, fun j stop => ?_, related'⟩
      rcases (Search.stopped_singleton.mp stop).2 with check | throws
      · cases check
        rfl
      · cases throws
  | @send o k sent own next =>
      obtain ⟨o', moved, -⟩ := own
      obtain ⟨notify, left⟩ := notify_of_handleSuccess moved
      obtain ⟨-, -, noCheck, count⟩ := slotForm_inside.mp form
      have other : ¬ AtCheck o.state.point := not_atCheck_of_ne notify nofun
      have form' : SlotForm ⟨.inside, o, k, false, sent + 1⟩ := slotForm_inside.mpr
        ⟨nofun, fun _ => notify, fun check => absurd check other, fun _ => count (.inl other)⟩
      have busy : ¬ Refused (slots i) := fun refused => by
        rw [here] at refused
        exact absurd (notify.symm.trans refused.2.1) nofun
      have sending : Sending (past ++ [Move.send.event r]) :=
        ⟨r, List.mem_append_right _ (List.mem_singleton_self _)⟩
      have after : searchSlot ⟨.inside, o, k, false, sent + 1⟩ = _ :=
        searchSlot_sending (Nat.succ_pos sent)
      rcases Nat.eq_zero_or_pos sent with rfl | some
      · rw [left] at moved
        obtain ⟨t', path, related'⟩ := related.move form' (congrArg searchSlot here) after moved
          (.handleSuccess : Answers prepared.expected s.notified o.state.point o.seq
            (.handleSuccess : SearchEvent) o.seq true) (fun _ => .inr rfl)
          (fun refused => absurd refused busy) (fun _ => sending)
          (Or.rec (fun check => by cases check) fun throws => by cases throws)
        refine ⟨_, t', path, rfl, fun j stop => ?_, related'⟩
        rcases (Search.stopped_singleton.mp stop).2 with check | throws
        · cases check
        · cases throws
      · have before : searchSlot (slots i) = _ :=
          (congrArg searchSlot here).trans (searchSlot_sending some)
        exact still (related.stutter (fun _ => begun some) form' (after.trans before.symm)
          (fun refused => absurd refused busy) fun _ => sending) (by
            simpa [Move.seen] using Nat.ne_of_gt some)
  | @handleSuccess o o' k own =>
      obtain ⟨moved, same⟩ := own
      obtain ⟨notify, left⟩ := notify_of_handleSuccess moved
      obtain ⟨-, -, -, count⟩ := slotForm_inside.mp form
      have before : ¬ AtCheck o.state.point := not_atCheck_of_ne notify nofun
      have other : ¬ AtCheck o'.state.point :=
        not_atCheck_of_ne (congrArg State.point left) nofun
      refine still (related.stutter (quiet nofun)
        (slotForm_inside.mpr ⟨nofun, nofun, fun check => absurd check other, fun _ => ?_⟩)
        ?_ (fun refused => ?_) nofun) rfl
      · rw [same]
        exact count (.inl before)
      · refine Eq.trans ?_ ((congrArg searchSlot here).trans (searchSlot_sending ranks)).symm
        show o' = _
        rw [← left, ← same]
      · rw [here] at refused
        exact absurd (notify.symm.trans refused.2.1) nofun
  | @returns o o' k own =>
      obtain ⟨idle, rfl⟩ := own
      refine still (related.stutter (quiet nofun)
        ⟨idle, rfl⟩ (congrArg searchSlot here).symm (fun refused => ?_) nofun) rfl
      rw [here] at refused
      exact ⟨nofun, refused.2⟩

end Steps

/-! ## The ranks -/

section Worlds

variable {Object : Type} {count : Nat} {callables : Nat → AbstractCallable Object}
  {past : List Event}

/-- A message is there because some rank has sent it. -/
theorem sending_of_run {w : World Object}
    (run : Run (World.Step size count callables) (Started callables) past w) (t : Nat)
    (message : w.inFlight t ≠ [] ∨ (w.ranks t).messages ≠ []) : Sending past := by
  induction run with
  | start started =>
      obtain ⟨ranks, -, -, inFlight, -⟩ := started
      rw [ranks, inFlight] at message
      rcases message with none | none <;> exact absurd rfl none
  | @snoc past w w' event run step ih =>
      by_cases sending : ∃ r, event = .send r
      · obtain ⟨r, rfl⟩ := sending
        exact ⟨r, List.mem_append_right _ (List.mem_singleton_self _)⟩
      suffices earlier : w.inFlight t ≠ [] ∨ (w.ranks t).messages ≠ [] from
        (ih earlier).imp fun _ => List.mem_append_left _
      have messages : ∀ {r : Nat} {rank : Rank}, w'.ranks = Function.update w.ranks r rank →
          rank.messages = (w.ranks r).messages →
          (w'.ranks t).messages = (w.ranks t).messages := by
        intro r rank ranks same
        rw [ranks]
        by_cases here : t = r
        · subst here
          rw [Function.update_self, same]
        · rw [Function.update_of_ne here]
      cases step with
      | run r | checkAgain r | checkFirst r | test r | handleSuccess r | returns r =>
          refine message.imp_right fun some => Eq.trans_ne (Eq.symm ?_) some
          exact messages rfl rfl
      | work r => exact message
      | send r => exact absurd ⟨r, rfl⟩ sending
      | @deliver r m below sent =>
          by_cases here : t = r
          · subst here
            exact .inl (List.ne_nil_of_mem sent)
          · refine message.imp (fun some => ?_) fun some => ?_
            · have same : (w.deliver r m).inFlight t = w.inFlight t :=
                Function.update_of_ne here _ _
              rwa [same] at some
            · have same : (w.deliver r m).ranks t = w.ranks t := Function.update_of_ne here _ _
              rwa [same] at some

end Worlds

section Simulates

variable {search : Search} {w : World (Decryptor.Worker Unit)}

/-- Callables that wait stand at the test of their loops. -/
theorem slotsRelated_of_waiting
    (prepare : prepareMappedFunctions 0 search.rangeEnd search.numThreads search.message
      search.encrypted = .ok prepared) {slots : Nat → SearchSlot}
    {objects : Nat → Decryptor.Worker Unit}
    (slot : ∀ id, slots id = ⟨.waiting, objects id, 0, false, 0⟩)
    (initial : ∀ id, (rankCallable prepared id).initial (objects id)) :
    ∃ s : System Unit search.numThreads.toNat, Entered prepared s ∧ SlotsRelated [] slots [] s := by
  have worker : ∀ i : Fin search.numThreads.toNat, prepared.workers[i.val]? =
      some (objects i).seq ∧ (objects i).seq.j = 0 := by
    intro i
    rw [prepareMappedFunctions_eq (Nat.zero_le _) search.threads (size_fits 0 search.fits),
      Except.ok.injEq] at prepare
    subst prepare
    have own : ((List.range search.numThreads.toNat).map fun i : Nat =>
        DecryptorSequence.make i search.step search.rangeEnd search.encrypted)[i.val]? =
          some (.make i.val search.step search.rangeEnd search.encrypted) := by
      rw [List.getElem?_map, List.getElem?_range i.isLt, Option.map_some]
    have same := (initial i).2 _ own
    exact ⟨own.trans (congrArg some same.symm), by rw [same]; rfl⟩
  have view : ∀ i : Fin search.numThreads.toNat, searchSlot (slots i) =
      ⟨⟨(objects i).state.fields, .test⟩, (objects i).seq⟩ := by
    intro i
    rw [slot]
    rfl
  refine ⟨⟨fun i => searchSlot (slots i), false⟩, ⟨rfl, fun i => ?_⟩, ⟨rfl, fun i => ?_, ?_⟩,
    ?_, fun i some => ?_⟩
  · dsimp only
    rw [view]
    exact ⟨⟨(), by rw [(initial i).1]⟩, (worker i).1⟩
  · rw [slot]
    exact slotForm_waiting.mpr ⟨(initial i).1, rfl, rfl, (worker i).2⟩
  · rintro i (member | member) <;> cases member
  · rintro ⟨_, member⟩
    cases member
  · rw [slot] at some
    exact absurd some (Nat.lt_irrefl 0)

/-- The callables of the ranks wait when the loops begin. -/
theorem slotsRelated_of_started (size : Nat)
    (prepare : prepareMappedFunctions 0 search.rangeEnd search.numThreads search.message
      search.encrypted = .ok prepared) (started : Started (rankCallable prepared) w) :
    ∃ s : System Unit search.numThreads.toNat, Entered prepared s ∧
      SlotsRelated [] (w.slot size) [] s := by
  obtain ⟨ranks, objects, interrupters, -, -⟩ := started
  refine slotsRelated_of_waiting prepare (fun id => ?_) objects
  have reached := Nat.not_lt.mpr (Nat.mod_le id size)
  simp [World.slot, ranks, interrupters, reached, Interrupter.make]

/-- **A step of the ranks is a step of the search or none.** -/
theorem SlotsRelated.stepRanks {past : List Event} {event : Event}
    {w' : World (Decryptor.Worker Unit)} {past' : List (Fin n × SearchEvent)} {s : System Unit n}
    (related : SlotsRelated past (w.slot size) past' s)
    (run : Run (World.Step size n (rankCallable prepared)) (Started (rankCallable prepared))
      past w)
    (step : World.Step size n (rankCallable prepared) w event w') :
    ∃ later t', Path (System.Step prepared.expected) s later t' ∧
      SlotsRelated (past ++ [event]) (w'.slot size) (past' ++ later) t' := by
  rcases step.slot_cases (worldInv_of_run run) (tidy_of_run run) with
    ⟨⟨r, message, rfl⟩, same⟩ | ⟨r, move, slot', moved⟩
  · refine ⟨[], s, .done s, ?_⟩
    rw [same, List.append_nil]
    refine ⟨related.toBehind, fun sending => related.notified ?_,
      fun i some => (related.begun i some).imp fun _ => List.mem_append_left _⟩
    obtain ⟨r', member⟩ := sending
    rcases List.mem_append.mp member with earlier | last
    · exact ⟨r', earlier⟩
    · cases List.mem_singleton.mp last
  · obtain ⟨rfl, below, more, own, slots, heard⟩ := moved
    obtain ⟨later, t', path, -, -, related'⟩ := related.step (i := ⟨(w.ranks r).counter, more⟩)
      (r := r) own (Nat.zero_lt_of_lt below)
      fun stopped => ⟨(heard stopped).1, sending_of_run run r (.inr (heard stopped).2)⟩
    exact ⟨later, t', path, slots ▸ related'⟩

/-- **A run of the ranks is a run of the search.** -/
theorem mpiSimulation
    (prepare : prepareMappedFunctions 0 search.rangeEnd search.numThreads search.message
      search.encrypted = .ok prepared) :
    Simulation (World.Step size search.numThreads.toNat (rankCallable prepared))
      (Started (rankCallable prepared)) (System.Step prepared.expected) (Entered prepared)
      fun past (w : World (Decryptor.Worker Unit)) past'
        (s : System Unit search.numThreads.toNat) =>
          SlotsRelated past (w.slot size) past' s where
  initially _ started := slotsRelated_of_started size prepare started
  preserved _ _ _ _ _ _ run related step := related.stepRanks run step

end Simulates

end ParallelLabs.Mpi
