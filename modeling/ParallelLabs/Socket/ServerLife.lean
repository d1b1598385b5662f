import ParallelLabs.Library.Runs
import Mathlib.Data.List.Basic
import Mathlib.Logic.Function.Basic

/-!
# `SocketServerSystemInterrupter.h`: the life of the server

The first constructor in a process forks the server and keeps its pid in its own
object; a static variable `created` remembers that this was done and is never
reset. Every other object has pid `0`. Each constructor then connects, trying
until a server answers. Each destructor sends a signal to the pid of its object,
and `kill` with pid `0` signals the whole process group of the caller.

So the only destructor that signals the server is that of the object that forked
it. After it no server exists, and none is forked again: an object that is still
there has lost its server, and a further constructor never returns. The life
cycle is in order exactly as long as the only object destroyed is the one that
forked the server, with no other object there (`served_iff`).
-/

set_option autoImplicit false

namespace ParallelLabs.Socket

open Library

/-- A `kill` of a destructor: its argument `pid`, and the servers that existed. -/
structure Kill where
  pid : Nat
  servers : List Nat
  deriving DecidableEq, Repr

/-- The signal goes to the server and to nobody else. Pid `0` is the process
group of the caller. -/
def Kill.AtServer (kill : Kill) : Prop := kill.pid ≠ 0 ∧ kill.servers = [kill.pid]

/-- The process: the static variable `created`, the member `pid` of each object
whose constructor has returned, the servers forked and alive, the kills, and
whether a constructor is trying to connect for good. -/
structure Host (Object : Type) where
  created : Bool
  pid : Object → Option Nat
  servers : List Nat
  kills : List Kill
  connecting : Bool

inductive Life (Object : Type) where
  | construct (object : Object)
  | destroy (object : Object)

namespace Host

variable {Object : Type} [DecidableEq Object]

/-- An object whose constructor returns. -/
def add (h : Host Object) (object : Object) (pid : Nat) : Host Object :=
  { h with pid := Function.update h.pid object (some pid) }

/-- `run`: the server is forked. -/
def fork (h : Host Object) (server : Nat) : Host Object :=
  { h with created := true, servers := server :: h.servers }

/-- `kill(pid, SIGSEGV)`. A server has a session of its own, so that a signal to
the group of the caller does not reach it. -/
def kill (h : Host Object) (pid : Nat) : Host Object :=
  { h with
    servers := if pid = 0 then h.servers else h.servers.erase pid
    kills := h.kills ++ [⟨pid, h.servers⟩] }

/-- The destructor of an object. -/
def remove (h : Host Object) (object : Object) (pid : Nat) : Host Object :=
  { h with pid := Function.update h.pid object none }.kill pid

inductive Step (h : Host Object) : Life Object → Host Object → Prop where
  /-- The first constructor forks the server and connects to it. -/
  | constructFirst (object : Object) (server : Nat) (calm : h.connecting = false)
      (new : h.pid object = none) (first : h.created = false) (positive : server ≠ 0)
      (unused : server ∉ h.servers) :
      Step h (.construct object) ((h.fork server).add object server)
  /-- A later constructor connects to a server that answers. -/
  | constructNext (object : Object) (calm : h.connecting = false) (new : h.pid object = none)
      (later : h.created = true) (answered : h.servers ≠ []) :
      Step h (.construct object) (h.add object 0)
  /-- A later constructor has no server to connect to. -/
  | constructHangs (object : Object) (calm : h.connecting = false) (new : h.pid object = none)
      (later : h.created = true) (unanswered : h.servers = []) :
      Step h (.construct object) { h with connecting := true }
  | destroy (object : Object) {pid : Nat} (calm : h.connecting = false)
      (there : h.pid object = some pid) :
      Step h (.destroy object) (h.remove object pid)

/-- A new process. -/
def Started (h : Host Object) : Prop := h = ⟨false, fun _ => none, [], [], false⟩

end Host

open Host

variable {Object : Type}

/-- Some object is there. -/
def Host.InUse (h : Host Object) : Prop := ∃ object, h.pid object ≠ none

/-- Whenever an object is there, exactly one server is alive, and every signal of
a destructor goes to the server. -/
def Served (past : List (Host Object × Life Object)) (h : Host Object) : Prop :=
  Always (fun h => h.InUse → h.servers.length = 1) past h ∧ ∀ kill ∈ h.kills, kill.AtServer

/-- The object destroyed is the one that forked the server, and no other is there. -/
def ForkerAlone (h : Host Object) (life : Life Object) : Prop :=
  ∀ object, life = .destroy object →
    h.pid object ≠ some 0 ∧ ∀ other, other ≠ object → h.pid other = none

/-- The states of a process whose life cycle is in order: no object yet; the
server and its objects, of which one has its pid; after the end of both. -/
inductive InOrder (h : Host Object) : Prop where
  | unused (created : h.created = false) (none : ∀ object, h.pid object = none)
      (empty : h.servers = [])
  | serving (server : Nat) (forker : Object) (created : h.created = true) (positive : server ≠ 0)
      (one : h.servers = [server]) (keeps : h.pid forker = some server)
      (others : ∀ object, object ≠ forker → h.pid object = none ∨ h.pid object = some 0)
  | ended (created : h.created = true) (none : ∀ object, h.pid object = none)
      (empty : h.servers = [])

theorem InOrder.served {h : Host Object} (order : InOrder h) : h.InUse → h.servers.length = 1 := by
  rintro ⟨object, there⟩
  cases order with
  | unused created none empty => exact absurd (none object) there
  | serving server forker created positive one keeps others => rw [one, List.length_singleton]
  | ended created none empty => exact absurd (none object) there

/-- **The invariant of the process.** -/
def HostInv (past : List (Host Object × Life Object)) (h : Host Object) : Prop :=
  EveryStep ForkerAlone past ∧ Served past h ∧ InOrder h ∨
    ¬ EveryStep ForkerAlone past ∧ ¬ Served past h

namespace HostInv

variable {past : List (Host Object × Life Object)} {h h' : Host Object} {life : Life Object}

theorem started (start : Host.Started h) : HostInv [] h := by
  cases start
  refine .inl ⟨everyStep_nil _, ⟨⟨fun _ member => absurd member List.not_mem_nil, ?_⟩,
    fun _ member => absurd member List.not_mem_nil⟩, .unused rfl (fun _ => rfl) rfl⟩
  rintro ⟨object, there⟩
  exact absurd rfl there

/-- A constructor takes a process in order to a process in order. -/
theorem constructed (all : EveryStep ForkerAlone past) (served : Served past h) {object : Object}
    (kills : h'.kills = h.kills) (order : InOrder h') :
    HostInv (past ++ [(h, .construct object)]) h' := by
  refine .inl ⟨everyStep_snoc.mpr ⟨all, fun _ same => by cases same⟩,
    ⟨always_snoc.mpr ⟨served.1, order.served⟩, ?_⟩, order⟩
  rw [kills]
  exact served.2

variable [DecidableEq Object]

/-- What went wrong stays in the past. -/
theorem broken (wrong : ¬ EveryStep ForkerAlone past ∧ ¬ Served past h) (step : h.Step life h') :
    HostInv (past ++ [(h, life)]) h' := by
  refine .inr ⟨fun all => wrong.1 (everyStep_snoc.mp all).1, fun served => wrong.2 ?_⟩
  refine ⟨(always_snoc.mp served.1).1, fun kill member => served.2 kill ?_⟩
  cases step with
  | constructFirst | constructNext | constructHangs => exact member
  | destroy => exact List.mem_append_left _ member

/-- A destructor of an object that did not fork the server signals the group. -/
theorem not_served_of_zero {object : Object} :
    ¬ Served (past ++ [(h, life)]) (h.remove object 0) := by
  intro served
  have last := served.2 ⟨0, h.servers⟩ (List.mem_append_right _ (List.mem_singleton_self _))
  exact last.1 rfl

/-- A destructor of the object that forked the server takes it from the others. -/
theorem not_served_of_other {object other : Object} {server : Nat} (positive : server ≠ 0)
    (one : h.servers = [server]) (different : other ≠ object) (there : h.pid other ≠ none) :
    ¬ Served (past ++ [(h, life)]) (h.remove object server) := by
  intro served
  have empty : (h.remove object server).servers = [] := by
    show (if server = 0 then h.servers else h.servers.erase server) = []
    rw [if_neg positive, one, List.erase_cons_head]
  have inUse : (h.remove object server).InUse :=
    ⟨other, by rwa [show (h.remove object server).pid other = h.pid other from
      Function.update_of_ne different _ _]⟩
  have length := (always_snoc.mp served.1).2 inUse
  rw [empty] at length
  cases length

/-- The destructor of the object that forked the server, with no other there. -/
theorem afterLast (all : EveryStep ForkerAlone past) (served : Served past h) {object : Object}
    {server : Nat} (created : h.created = true) (positive : server ≠ 0)
    (one : h.servers = [server]) (keeps : h.pid object = some server)
    (alone : ∀ other, other ≠ object → h.pid other = none) :
    HostInv (past ++ [(h, .destroy object)]) (h.remove object server) := by
  have order : InOrder (h.remove object server) := by
    refine .ended created (fun other => ?_) ?_
    · show Function.update h.pid object none other = none
      by_cases same : other = object
      · rw [same, Function.update_self]
      · rw [Function.update_of_ne same, alone other same]
    · show (if server = 0 then h.servers else h.servers.erase server) = []
      rw [if_neg positive, one, List.erase_cons_head]
  refine .inl ⟨everyStep_snoc.mpr ⟨all, fun destroyed same => ?_⟩,
    ⟨always_snoc.mpr ⟨served.1, order.served⟩, fun kill member => ?_⟩, order⟩
  · cases same
    refine ⟨fun zero => ?_, alone⟩
    rw [keeps, Option.some.injEq] at zero
    exact positive zero
  · rcases List.mem_append.mp member with before | last
    · exact served.2 kill before
    · rw [List.mem_singleton.mp last]
      exact ⟨positive, one⟩

/-- **A step of the process keeps the invariant.** -/
theorem step (inv : HostInv past h) (step : h.Step life h') : HostInv (past ++ [(h, life)]) h' := by
  rcases inv with ⟨all, served, order⟩ | wrong
  case inr => exact broken wrong step
  cases step with
  | constructFirst object server calm new first positive unused =>
      cases order with
      | unused created none empty =>
          refine constructed all served rfl (.serving server object rfl positive
            (congrArg (server :: ·) empty) (Function.update_self _ _ _) fun other different => ?_)
          exact .inl ((Function.update_of_ne different _ _).trans (none other))
      | serving _ _ created | ended created =>
          rw [first] at created
          cases created
  | constructNext object calm new later answered =>
      cases order with
      | unused created none empty =>
          rw [later] at created
          cases created
      | serving server forker created positive one keeps others =>
          have different : forker ≠ object := by
            intro same
            rw [same, new] at keeps
            cases keeps
          refine constructed all served rfl (.serving server forker created positive one
            ((Function.update_of_ne different _ _).trans keeps) fun other away => ?_)
          show Function.update h.pid object (some 0) other = none ∨
            Function.update h.pid object (some 0) other = some 0
          by_cases same : other = object
          · rw [same, Function.update_self]
            exact .inr rfl
          · rw [Function.update_of_ne same]
            exact others other away
      | ended created none empty => exact absurd empty answered
  | constructHangs object calm new later unanswered =>
      cases order with
      | unused created none empty =>
          rw [later] at created
          cases created
      | serving server forker created positive one keeps others =>
          rw [one] at unanswered
          cases unanswered
      | ended created none empty => exact constructed all served rfl (.ended created none empty)
  | destroy object calm there =>
      cases order with
      | unused created none empty | ended created none empty =>
          rw [none object] at there
          cases there
      | serving server forker created positive one keeps others =>
          by_cases same : object = forker
          · subst same
            rw [keeps, Option.some.injEq] at there
            subst there
            by_cases alone : ∀ other, other ≠ object → h.pid other = none
            · exact afterLast all served created positive one keeps alone
            · push Not at alone
              obtain ⟨other, different, present⟩ := alone
              refine .inr ⟨fun every => ?_, not_served_of_other positive one different present⟩
              exact present (((everyStep_snoc.mp every).2 object rfl).2 other different)
          · rcases others object same with gone | zero
            · rw [gone] at there
              cases there
            · rw [zero, Option.some.injEq] at there
              subst there
              refine .inr ⟨fun every => ?_, not_served_of_zero⟩
              exact ((everyStep_snoc.mp every).2 object rfl).1 zero

end HostInv

/-- **The server lives as long as its clients**, and no destructor signals anything
else, exactly as long as the only object destroyed is the one that forked the
server, with no other object there. -/
theorem served_iff [DecidableEq Object] {past : List (Host Object × Life Object)}
    {h : Host Object} (trace : Trace Host.Step Host.Started past h) :
    Served past h ↔ EveryStep ForkerAlone past := by
  have inv : HostInv past h := trace.invariant HostInv (fun _ => HostInv.started)
    fun _ _ _ _ inv next => inv.step next
  rcases inv with ⟨all, served, _⟩ | ⟨other, wrong⟩
  · exact iff_of_true served all
  · exact iff_of_false wrong other

/-- One object, constructed and destroyed. -/
theorem served_iff_single :
    Served [((⟨false, fun _ => none, [], [], false⟩ : Host Unit), .construct ()),
      (⟨true, Function.update (fun _ => none) () (some 5), [5], [], false⟩, .destroy ())]
      ⟨true, Function.update (Function.update (fun _ => none) () (some 5)) () none, [],
        [⟨5, [5]⟩], false⟩ :=
  (served_iff (.snoc (.snoc (.start rfl) (.constructFirst () 5 rfl rfl rfl (by decide)
      List.not_mem_nil)) (.destroy () rfl rfl))).mpr
    (everyStep_snoc.mpr ⟨everyStep_snoc.mpr ⟨everyStep_nil _, fun _ same => by cases same⟩,
      fun () _ => ⟨by decide, fun _ different => absurd rfl different⟩⟩)

/-- **A client without its server, and a signal to the process group.** Two objects
are constructed. The one that forked the server is destroyed first, and the other
is left without a server; its own destructor signals the group. -/
theorem server_lost :
    ∃ (past : List (Host Bool × Life Bool)) (h : Host Bool),
      Trace Host.Step Host.Started past h ∧ ¬ Served past h ∧
        (∃ entry ∈ past, entry.1.InUse ∧ entry.1.servers = []) ∧
        h.kills = [⟨7, [7]⟩, ⟨0, []⟩] := by
  refine ⟨_, _, .snoc (.snoc (.snoc (.snoc (.start rfl)
    (.constructFirst true 7 rfl rfl rfl (by decide) List.not_mem_nil))
    (.constructNext false rfl rfl rfl (by decide))) (.destroy true rfl rfl))
    (.destroy false rfl rfl), fun served => ?_,
    ⟨_, List.mem_append_right _ (List.mem_singleton_self _), ⟨false, by decide⟩, rfl⟩, rfl⟩
  exact (served.2 ⟨0, []⟩ (List.mem_append_right _ (List.mem_singleton_self _))).1 rfl

end ParallelLabs.Socket
