import Mathlib.Data.Finset.Card
import SocksProxy.Main.Layout

/-!
# Both halves of the process

The invariant of the process as a whole. The SOCKS5 side is in a state that its
event loop can reach, the management connections are where the sessions of the
management service are, and the two agree on users, settings, metrics and log
and on who holds which descriptor.
-/

namespace SocksProxy

open Prog

/-! ## What sessions do -/

/-- What has become of the shared resources is what commands of the administrator make of them on
the SOCKS5 side. -/
structure Commanded (deps deps' : MgmtDeps) : Prop where
  metrics : deps'.metrics = deps.metrics
  accessLog : deps'.accessLog = deps.accessLog
  logOpens : deps'.logOpens = deps.logOpens
  commands : ∃ commands : List AdminCommand, ∀ sh : Shared, sh.users = deps.users →
    sh.config = deps.config → commands.foldl World.applyAdmin sh =
      { sh with users := deps'.users, config := deps'.config }

namespace Commanded

variable {deps deps' deps'' : MgmtDeps}

theorem of_same (metrics : deps'.metrics = deps.metrics)
    (accessLog : deps'.accessLog = deps.accessLog) (logOpens : deps'.logOpens = deps.logOpens)
    (users : deps'.users = deps.users) (config : deps'.config = deps.config) :
    Commanded deps deps' := by
  refine ⟨metrics, accessLog, logOpens, [], fun sh sameUsers sameConfig => ?_⟩
  rw [users, config, ← sameUsers, ← sameConfig]
  rfl

theorem refl (deps : MgmtDeps) : Commanded deps deps := of_same rfl rfl rfl rfl rfl

theorem trans (first : Commanded deps deps') (second : Commanded deps' deps'') :
    Commanded deps deps'' := by
  rcases first with ⟨metrics, accessLog, logOpens, commands, first⟩
  rcases second with ⟨metrics', accessLog', logOpens', later, second⟩
  refine ⟨metrics'.trans metrics, accessLog'.trans accessLog, logOpens'.trans logOpens,
    commands ++ later, fun sh users config => ?_⟩
  rw [List.foldl_append, first sh users config]
  exact second _ rfl rfl

theorem cmdAddUser (deps : MgmtDeps) (args : List CString) :
    Commanded deps (SocksProxy.cmdAddUser deps args).1 := by
  unfold SocksProxy.cmdAddUser
  split
  · next name pass =>
      split
      · exact refl deps
      split
      · exact refl deps
      split
      · next users added =>
          refine ⟨rfl, rfl, rfl, [.addUser name pass], fun sh same config => ?_⟩
          simp [World.applyAdmin, same, added, ← config]
      · exact refl deps
  · exact refl deps

theorem cmdDelUser (deps : MgmtDeps) (args : List CString) :
    Commanded deps (SocksProxy.cmdDelUser deps args).1 := by
  unfold SocksProxy.cmdDelUser
  split
  · next name =>
      split
      · next users removed =>
          refine ⟨rfl, rfl, rfl, [.delUser name], fun sh same config => ?_⟩
          simp [World.applyAdmin, same, removed, ← config]
      · exact refl deps
  · exact refl deps

theorem configSet {key : CString} {v : UInt32} {config : Config}
    (changed : SocksProxy.configSet deps.config key v = some config) :
    Commanded deps { deps with config } := by
  unfold SocksProxy.configSet at changed
  split at changed
  · refine ⟨rfl, rfl, rfl, [.setConnTimeout v], fun sh users same => ?_⟩
    simp [World.applyAdmin, same, changed, ← users]
  split at changed
  · refine ⟨rfl, rfl, rfl, [.setIoBufferSize v], fun sh users same => ?_⟩
    simp [World.applyAdmin, same, changed, ← users]
  · refine ⟨rfl, rfl, rfl, [.setMaxConnections v], fun sh users same => ?_⟩
    simp [World.applyAdmin, same, changed, ← users]

theorem cmdSet (deps : MgmtDeps) (args : List CString) :
    Commanded deps (SocksProxy.cmdSet deps args).1 := by
  unfold SocksProxy.cmdSet
  split
  · split
    · split
      · exact refl deps
      · split
        · next changed => exact configSet changed
        · exact refl deps
    · exact refl deps
  · exact refl deps

theorem cmdPasswd (deps : MgmtDeps) (args : List CString) :
    Commanded deps (SocksProxy.cmdPasswd deps args).1 := by
  unfold SocksProxy.cmdPasswd
  split
  · split
    · exact of_same rfl rfl rfl rfl rfl
    · exact refl deps
  · exact refl deps

theorem mgmtCommand (deps : MgmtDeps) (cmd : CString) (args : List CString) :
    Commanded deps (SocksProxy.mgmtCommand deps cmd args).1 := by
  unfold SocksProxy.mgmtCommand
  iterate 3
    split
    · exact refl deps
  split
  · exact cmdAddUser deps args
  split
  · exact cmdDelUser deps args
  split
  · exact refl deps
  split
  · exact cmdSet deps args
  split
  · exact refl deps
  split
  · exact cmdPasswd deps args
  · exact refl deps

theorem line (session : MgmtSession) (deps : MgmtDeps) (line : Line) :
    Commanded deps (line.answer session deps).deps := by
  cases line with
  | tooLong | invalid => exact refl deps
  | ready text =>
      simp only [Line.answer, mgmtHandleLine]
      split
      · exact refl deps
      iterate 5
        split
        · exact refl deps
      exact mgmtCommand deps _ _

theorem answerAll (s : Sequential) (lines : List Line) :
    Commanded s.deps (s.answerAll lines).deps := by
  induction lines generalizing s with
  | nil => exact refl s.deps
  | cons next lines ih =>
      have answered : Commanded s.deps (s.answer next).deps := by
        unfold Sequential.answer
        split
        · exact refl s.deps
        · exact line s.session s.deps next
      exact answered.trans (ih (s.answer next))

end Commanded

namespace MgmtServer

theorem run_lines (server : MgmtServer) (id : Nat) (lines : List Line) :
    (server.run (lines.map (.line id))).view id = (server.view id).answerAll lines ∧
      ∀ other, other ≠ id →
        (server.run (lines.map (.line id))).sessions other = server.sessions other := by
  induction lines generalizing server with
  | nil => exact ⟨rfl, fun _ _ => rfl⟩
  | cons line lines ih =>
      rcases ih (server.step (.line id line)) with ⟨mine, others⟩
      have answered : (server.step (.line id line)).view id = (server.view id).answer line := by
        simp [view, step]
      refine ⟨?_, fun other differs => ?_⟩
      · rw [answered] at mine
        exact mine
      · refine (others other differs).trans ?_
        simp [step, differs]

theorem run_append (server : MgmtServer) (first second : List ServiceEvent) :
    server.run (first ++ second) = (server.run first).run second := List.foldl_append

end MgmtServer

/-! ## The invariant -/

/-- The management service after some events. -/
abbrev service (deps : MgmtDeps) (events : List ServiceEvent) : MgmtServer :=
  (MgmtServer.start deps).run events

/-- The store is one that the service has had. -/
def Known (deps : MgmtDeps) (events : List ServiceEvent) (store : Users) : Prop :=
  ∃ earlier, earlier <+: events ∧ (service deps earlier).deps.users = store

/-- A decision was made by a store that the service has had. -/
def Informed (deps : MgmtDeps) (events : List ServiceEvent) (what : Obs) : Prop :=
  ∀ store, what.consulted = some store → Known deps events store

theorem known_current {deps : MgmtDeps} {events : List ServiceEvent} {store : Users}
    (current : (service deps events).deps.users = store) : Known deps events store :=
  ⟨events, List.prefix_rfl, current⟩

theorem Known.later {deps : MgmtDeps} {events : List ServiceEvent} {store : Users}
    (known : Known deps events store) (more : List ServiceEvent) :
    Known deps (events ++ more) store := by
  rcases known with ⟨earlier, begins, same⟩
  exact ⟨earlier, begins.trans (List.prefix_append _ _), same⟩

theorem Informed.of_consults {deps : MgmtDeps} {events : List ServiceEvent} {users : Users}
    (known : Known deps events users) {what : Obs} (consults : what.Consults users) :
    Informed deps events what := by
  intro store asked
  rcases consults with none | same
  · rw [none] at asked
    cases asked
  · rw [same] at asked
    cases asked
    exact known

/-- The line of an event, if it is one of the session `id`. -/
def ServiceEvent.lineOf (id : Nat) : ServiceEvent → Option Line
  | .line other text => if other = id then some text else none
  | .proxy _ _ _ => none

/-- The lines of one session. -/
def linesOf (id : Nat) (events : List ServiceEvent) : List Line :=
  events.filterMap (ServiceEvent.lineOf id)

theorem linesOf_append (id : Nat) (events more : List ServiceEvent) :
    linesOf id (events ++ more) = linesOf id events ++ linesOf id more := List.filterMap_append

theorem linesOf_lines (id other : Nat) (lines : List Line) :
    linesOf id (lines.map (.line other)) = if other = id then lines else [] := by
  induction lines with
  | nil => simp [linesOf]
  | cons line lines ih =>
      rw [List.map_cons, linesOf, List.filterMap_cons, ← linesOf, ih]
      by_cases same : other = id
      · simp [ServiceEvent.lineOf, same]
      · simp [ServiceEvent.lineOf, same]

/-- A connection has taken all the lines that it was sent, but for those in its read buffer. -/
theorem Took.lines {c : MgmtConn} {bodies : List (List UInt8)} (took : Took c bodies) :
    ∃ unanswered, bodies.map Line.classify ++ unanswered =
        (Framing.cut LF c.received).1.map Line.classify ∧
      (c.readBuffer.contents = [] → unanswered = []) := by
  rcases took with ⟨current, received, unended, unfinished, -⟩
  rw [received, List.append_assoc, Framing.cut_join LF unended, List.map_append]
  refine ⟨_, rfl, fun drained => ?_⟩
  rw [drained, List.append_nil, Framing.cut_of_not_mem LF unfinished]
  rfl

namespace Process

/-- The descriptors at which there is a management connection. -/
def mgmtFds (mgmt : Fd → Option MgmtSlot) : Finset Fd :=
  (Finset.range FD_SETSIZE).filter fun fd => (mgmt fd).isSome = true

/-- Who holds which descriptor; between two events no one holds the selector's mutex. -/
structure Layout (around : Surroundings) (p : Process) : Prop where
  foreign : ∀ fd, around.foreign fd = true ↔
    p.passive = some fd ∨ p.mngPassive = some fd ∨ (p.mgmt fd).isSome = true
  passive : ∀ fd, p.passive = some fd → p.mngPassive ≠ some fd ∧ p.mgmt fd = none
  mngPassive : ∀ fd, p.mngPassive = some fd → p.mgmt fd = none
  listener : ∀ fd, around.listener = some fd → p.passive = some fd
  held : ∀ fd slot, p.mgmt fd = some slot → ∃ interest, around.items fd = some ⟨interest, .other⟩
  active : p.activeMgmtConnections = (mgmtFds p.mgmt).card
  unlocked : around.locked = false

/-- While `main()` is in its loop both listeners are open, or none is. -/
structure InLoop (around : Surroundings) (p : Process) : Prop where
  running : p.world.mode = .running
  reachable : p.world.Reachable
  listener : around.listener = p.passive
  armed : ∀ fd, p.mngPassive = some fd → around.items fd = some ⟨OP_READ, .other⟩
  accepting : p.passive.isSome = p.accepting ∧ p.mngPassive.isSome = p.accepting

/-- A management connection is where its session is and waits for what it needs. -/
structure Attentive (server : MgmtServer) (slot : MgmtSlot) (deps : MgmtDeps)
    (interest : Interest) : Prop where
  mirrors : Mirrors ⟨slot.conn, deps, some interest, []⟩ (server.view slot.id)
  sized : MgmtState.Sized ⟨slot.conn, deps, some interest, []⟩
  waits : MgmtState.Waits ⟨slot.conn, deps, some interest, []⟩

/-- The management connections are in step with the service. -/
structure InStep (server : MgmtServer) (p : Process) : Prop where
  deps : server.deps = p.deps
  fresh : ∀ id, p.nextMgmt ≤ id → server.sessions id = ⟨mgmtSessionInit, [], false⟩
  known : ∀ fd slot, p.mgmt fd = some slot → slot.id < p.nextMgmt
  distinct : ∀ fd fd' slot slot', p.mgmt fd = some slot → p.mgmt fd' = some slot' →
    slot.id = slot'.id → fd = fd'
  attentive : ∀ fd slot, p.mgmt fd = some slot → ∃ interest,
    p.world.sh.sel.items fd = some ⟨interest, .other⟩ ∧ Attentive server slot p.deps interest

/-- The lines of the service are those that management connections have received. -/
structure LinesHeard (events : List ServiceEvent) (p : Process) : Prop where
  lines : ∀ id, linesOf id events <+: (Framing.cut LF (p.heard id)).1.map Line.classify
  slots : ∀ fd slot, p.mgmt fd = some slot → p.heard slot.id = slot.conn.received ∧
    ∃ bodies, Took slot.conn bodies ∧ linesOf slot.id events = bodies.map Line.classify
  fresh : ∀ id, p.nextMgmt ≤ id → linesOf id events = [] ∧ p.heard id = []

/-- How far the cleanup is: the pool stops while its threads are joined, and nothing is registered
after `selector_destroy`. -/
def WindsDown (around : Surroundings) (p : Process) : Prop :=
  (p.world.mode = .joining → p.world.sh.pool.stopping = true) ∧
  (p.world.mode = .destroyed → around.listener = none ∧
    ∀ fd, around.foreign fd = true → around.items fd = none)

/-- The invariant of the process until it returns, after some events of the management service. -/
structure Coherent (deps : MgmtDeps) (events : List ServiceEvent) (p : Process) : Prop where
  ok : p.world.Ok False
  placed : ∃ around, p.world.Within around (Informed deps events) ∧
    (service deps events).deps.users = around.users ∧ Layout around p ∧
    (p.phase = .serving → InLoop around p) ∧ WindsDown around p
  inStep : p.phase = .serving → InStep (service deps events) p
  heard : LinesHeard events p

section

variable {mgmt : Fd → Option MgmtSlot} {fd : Fd}

theorem mem_mgmtFds : fd ∈ mgmtFds mgmt ↔ fd < FD_SETSIZE ∧ (mgmt fd).isSome = true := by
  simp [mgmtFds]

theorem card_mgmtFds_open (vacant : mgmt fd = none) (small : fd < FD_SETSIZE) (slot : MgmtSlot) :
    (mgmtFds (Function.update mgmt fd (some slot))).card = (mgmtFds mgmt).card + 1 := by
  have inserted : mgmtFds (Function.update mgmt fd (some slot)) = insert fd (mgmtFds mgmt) := by
    ext other
    rw [Finset.mem_insert, mem_mgmtFds, mem_mgmtFds]
    by_cases same : other = fd
    · simp [same, small]
    · simp [same]
  rw [inserted, Finset.card_insert_of_notMem]
  rw [mem_mgmtFds, vacant]
  simp

theorem card_mgmtFds_close (held : fd ∈ mgmtFds mgmt) :
    (mgmtFds (Function.update mgmt fd none)).card = (mgmtFds mgmt).card - 1 := by
  have erased : mgmtFds (Function.update mgmt fd none) = (mgmtFds mgmt).erase fd := by
    ext other
    rw [Finset.mem_erase, mem_mgmtFds, mem_mgmtFds]
    by_cases same : other = fd
    · simp [same]
    · simp [same]
  rw [erased, Finset.card_erase_of_mem held]

theorem mgmtFds_update {slot slot' : MgmtSlot} (found : mgmt fd = some slot) :
    mgmtFds (Function.update mgmt fd (some slot')) = mgmtFds mgmt := by
  ext other
  rw [mem_mgmtFds, mem_mgmtFds]
  by_cases same : other = fd
  · simp [same, found]
  · simp [same]

end

section

variable {server server' : MgmtServer} {slot : MgmtSlot} {deps deps' : MgmtDeps}
  {interest : Interest}

theorem Attentive.elsewhere (attentive : Attentive server slot deps interest)
    (same : server'.sessions slot.id = server.sessions slot.id) (shared : server'.deps = deps') :
    Attentive server' slot deps' interest := by
  rcases attentive with ⟨mirrors, sized, waits⟩
  refine ⟨?_, ⟨sized.readLimit, sized.writeLimit⟩,
    waits.item, waits.drained⟩
  have view : server'.view slot.id = { server.view slot.id with deps := deps' } := by
    simp [MgmtServer.view, same, shared]
  rw [view]
  exact ⟨mirrors.session, rfl, mirrors.output, mirrors.closed⟩

theorem took_newMgmtConn : Took newMgmtConn [] :=
  ⟨[], rfl, by simp, by simp, MgmtParser.holds_init⟩

theorem attentive_newMgmtConn {id : Nat} (fresh : server.sessions id = ⟨mgmtSessionInit, [], false⟩)
    (shared : server.deps = deps) : Attentive server ⟨id, newMgmtConn⟩ deps OP_READ := by
  rcases MgmtState.follows_accepted deps with ⟨items, serving, -, waits⟩
  refine ⟨?_, serving.sized, waits⟩
  have view : server.view id = ⟨mgmtSessionInit, deps, [], false⟩ := by
    simp [MgmtServer.view, fresh, shared]
  rw [view]
  exact ⟨rfl, rfl, rfl, rfl⟩

end

end Process

end SocksProxy
