import SocksProxy.Main.Coherence
import SocksProxy.Server.ResolverStop

/-!
# Every event keeps both halves together

One lemma for each kind of event of the loop of `main()`: an event of the SOCKS5
side, a dispatch to a management connection, a management connection that is
accepted, and the end of accepting.
-/

namespace SocksProxy

open Prog

/-- The events that `main()` makes while it is in its loop. -/
def Event.isServing : Event → Bool
  | .read _ _ | .write _ _ | .block _ | .reap _ _ | .worker _ | .settle _ _ => true
  | _ => false

/-- A step of a resolver thread while the pool stops; it can wait for no one but the holder of the
selector's mutex. -/
theorem wlp_workerStep {sh : Shared} (ok : Pool.Ok sh.pool) (stopping : sh.pool.stopping = true)
    (step : WorkerStep) :
    wlp (workerStep step) (fun _ sh' => sh'.pool.stopping = true ∧
      (sh.sel.resolutionLocked = false → sh'.pool.toGo < sh.pool.toGo ∨
        sh'.pool = sh.pool ∧ (sh.pool.workers step.turn.1).due ≠ some step.turn.2)) sh := by
  have pooled := Pool.wlp_resolverWorkerStep ok stopping step
  cases step with
  | pop | finish =>
      simp only [workerStep, wlp_bind, wlp_get, wlp_focus, wlp_pure]
      exact wlp_mono pooled fun _ _ nearer => ⟨nearer.1, fun _ => nearer.2⟩
  | notify =>
      simp only [workerStep, wlp_bind, wlp_get, wlp_ite, wlp_pure]
      split
      · next locked => exact ⟨stopping, fun free => Bool.noConfusion (locked.symm.trans free)⟩
      · rw [wlp_focus]
        refine wlp_mono pooled fun found _ nearer => ?_
        cases found with
        | none => exact (wlp_pure ..).mpr ⟨nearer.1, fun _ => nearer.2⟩
        | some fd => exact (wlp_modify ..).mpr ⟨nearer.1, fun _ => nearer.2⟩

namespace World

variable {w w' : World}

theorem mode_step {event : Event} (serving : event.isServing = true)
    (stepped : w.step event = .ok w') : w'.mode = w.mode := by
  cases steps_of_step stepped with
  | read env running ran =>
      rcases moves_dispatchRead ran with serves | admits
      · exact (mode_of_serves serves).trans rfl
      · exact (mode_of_admits admits).trans rfl
  | write env running ran => exact (mode_of_serves (serves_dispatchWrite ran)).trans rfl
  | block running ran => exact mode_of_serves (serves_handleBlockNotifications ran)
  | reap running ran => exact mode_of_serves (serves_reapIdle ran)
  | idle | worker | settle => rfl
  | admin | foreign | stopBegin | stopJoined | destroy => cases serving

theorem mode_destroyed {event : Event} (own : event.isOwn = true)
    (stepped : w.step event = .ok w') (ended : w'.mode = .destroyed) : w.mode = .destroyed := by
  by_cases serving : event.isServing = true
  · rw [← ended]
    exact (mode_step serving stepped).symm
  cases steps_of_step stepped with
  | idle => exact ended
  | read | write | block | reap | worker | settle => exact absurd rfl serving
  | admin | foreign | destroy => cases own
  | stopBegin stopping pool running ran =>
      dsimp only at ended
      split at ended <;> cases ended
  | stopJoined pool joining freed =>
      have stopped := mode_of_serves (serves_freeUnreferenced freed)
      rw [ended] at stopped
      cases stopped

theorem stopping_step {event : Event} (own : event.isOwn = true) (ok : Pool.Ok w.sh.pool)
    (before : w.mode = .joining → w.sh.pool.stopping = true) (stepped : w.step event = .ok w')
    (joining : w'.mode = .joining) : w'.sh.pool.stopping = true := by
  have earlier : event.isServing = true → w.mode = .joining := fun serving =>
    (mode_step serving stepped).symm.trans joining
  have idle : event.isServing = true → w.mode = .running → False := fun serving running =>
    Mode.noConfusion (running.symm.trans (earlier serving))
  cases steps_of_step stepped with
  | idle => exact before joining
  | read _ running | write _ running | block running | reap running =>
      exact (idle rfl running).elim
  | worker ran => exact (wlp_workerStep ok (before (earlier rfl)) _ _ _ ran).1
  | settle => exact before joining
  | admin | foreign | destroy => cases own
  | stopBegin stopping pool running ran =>
      refine Pool.wlp_socks5ResolverPoolStopBegin stopping pool ran ?_
      dsimp only at joining
      split at joining
      · assumption
      · cases joining
  | stopJoined pool _ freed =>
      have stopped := mode_of_serves (serves_freeUnreferenced freed)
      rw [joining] at stopped
      cases stopped

theorem Reachable.foreign (reachable : w.Reachable) (running : w.mode = .running)
    (action : ForeignAction) :
    ({ w with sh := applyForeign w.sh action } : World).Reachable := by
  have stepped : w.step (.foreign action) = .ok { w with sh := applyForeign w.sh action } := by
    simp [World.step, running]
  exact reachable.step stepped

theorem Reachable.commands (reachable : w.Reachable) (running : w.mode = .running)
    (commands : List AdminCommand) :
    ({ w with sh := commands.foldl applyAdmin w.sh } : World).Reachable := by
  induction commands generalizing w with
  | nil => exact reachable
  | cons command later ih =>
      have stepped : w.step (.admin command) = .ok { w with sh := applyAdmin w.sh command } := by
        simp [World.step, running]
      exact ih (reachable.step stepped) running

end World

namespace Process

open World

section

variable {deps : MgmtDeps} {events : List ServiceEvent} {p : Process} {around : Surroundings}
  {fd : Fd} {slot : MgmtSlot}

/-! ## Where management connections are -/

theorem Layout.apart (layout : Layout around p) (found : p.mgmt fd = some slot) :
    around.foreign fd = true ∧ p.passive ≠ some fd ∧ p.mngPassive ≠ some fd := by
  refine ⟨(layout.foreign fd).mpr (.inr (.inr (by simp [found]))), fun listens => ?_,
    fun listens => ?_⟩
  · have vacant := (layout.passive fd listens).2
    rw [found] at vacant
    cases vacant
  · have vacant := layout.mngPassive fd listens
    rw [found] at vacant
    cases vacant

theorem Layout.not_listener (layout : Layout around p) (apart : p.passive ≠ some fd) :
    around.listener ≠ some fd := fun listens => apart (layout.listener fd listens)

theorem Layout.items_eq (layout : Layout around p) (hold : around.Hold p.world.sh)
    (found : p.mgmt fd = some slot) : p.world.sh.sel.items fd = around.items fd :=
  hold.others fd (layout.apart found).1 (layout.not_listener (layout.apart found).2.1)

theorem Layout.not_paused {interest : Interest} (layout : Layout around p)
    (hold : around.Hold p.world.sh) (found : p.mgmt fd = some slot)
    (item : p.world.sh.sel.items fd = some ⟨interest, .other⟩) :
    p.world.sh.acceptPausedFd ≠ some fd := by
  intro paused
  rcases hold.paused fd paused with listens | ⟨-, gone⟩
  · exact layout.not_listener (layout.apart found).2.1 listens
  · rw [layout.items_eq hold found, gone] at item
    cases item

theorem Layout.put {p' : Process} {interest : Interest} (layout : Layout around p)
    (apart : p.passive ≠ some fd) (apartMng : p.mngPassive ≠ some fd)
    (passive : p'.passive = p.passive) (mngPassive : p'.mngPassive = p.mngPassive)
    (mgmt : p'.mgmt = Function.update p.mgmt fd (some slot))
    (active : p'.activeMgmtConnections = (mgmtFds p'.mgmt).card) :
    Layout (around.put fd interest) p' := by
  rcases p' with ⟨world, admin, mgmt', next, count, passive', mngPassive', accepting, terminate,
    phase⟩
  dsimp only at passive mngPassive mgmt active
  subst passive mngPassive mgmt
  refine ⟨fun other => ?_, fun other listens => ?_, fun other listens => ?_, layout.listener,
    fun other slot' held => ?_, active, layout.unlocked⟩
  · by_cases same : other = fd
    · simp [Surroundings.put, same]
    · simp only [Surroundings.put, Function.update_of_ne same]
      exact layout.foreign other
  · have differs : other ≠ fd := by
      rintro rfl
      exact apart listens
    simp only [Function.update_of_ne differs]
    exact layout.passive other listens
  · have differs : other ≠ fd := by
      rintro rfl
      exact apartMng listens
    simp only [Function.update_of_ne differs]
    exact layout.mngPassive other listens
  · by_cases same : other = fd
    · exact ⟨interest, by simp [Surroundings.put, same]⟩
    · simp only [Surroundings.put, Function.update_of_ne same] at held ⊢
      exact layout.held other slot' held

theorem Layout.drop {p' : Process} (layout : Layout around p)
    (passive : p'.passive = if p.passive = some fd then none else p.passive)
    (mngPassive : p'.mngPassive = if p.mngPassive = some fd then none else p.mngPassive)
    (mgmt : p'.mgmt = Function.update p.mgmt fd none)
    (active : p'.activeMgmtConnections = (mgmtFds p'.mgmt).card) :
    Layout (around.drop fd) p' := by
  have passive_iff : ∀ other, p'.passive = some other ↔ p.passive = some other ∧ other ≠ fd := by
    intro other
    rw [passive]
    split
    · next was => simp [was, eq_comm]
    · next was =>
        refine ⟨fun listens => ⟨listens, ?_⟩, And.left⟩
        rintro rfl
        exact was listens
  have mngPassive_iff : ∀ other,
      p'.mngPassive = some other ↔ p.mngPassive = some other ∧ other ≠ fd := by
    intro other
    rw [mngPassive]
    split
    · next was => simp [was, eq_comm]
    · next was =>
        refine ⟨fun listens => ⟨listens, ?_⟩, And.left⟩
        rintro rfl
        exact was listens
  have kept : ∀ other, other ≠ fd → p'.mgmt other = p.mgmt other := by
    intro other differs
    rw [mgmt, Function.update_of_ne differs]
  refine ⟨fun other => ?_, fun other listens => ?_, fun other listens => ?_,
    fun other listens => ?_, fun other slot' held => ?_, active, layout.unlocked⟩
  · by_cases same : other = fd
    · simp [Surroundings.drop, passive_iff, mngPassive_iff, mgmt, same]
    · simp only [Surroundings.drop, Function.update_of_ne same, passive_iff, mngPassive_iff,
        kept other same, ne_eq, same, not_false_eq_true, and_true]
      exact layout.foreign other
  · rcases (passive_iff other).mp listens with ⟨listens, differs⟩
    rw [kept other differs]
    exact ⟨fun both => (layout.passive other listens).1 ((mngPassive_iff other).mp both).1,
      (layout.passive other listens).2⟩
  · rcases (mngPassive_iff other).mp listens with ⟨listens, differs⟩
    rw [kept other differs]
    exact layout.mngPassive other listens
  · simp only [Surroundings.drop] at listens
    split at listens
    · cases listens
    · next apart =>
        refine (passive_iff other).mpr ⟨layout.listener other listens, ?_⟩
        rintro rfl
        exact apart listens
  · have differs : other ≠ fd := by
      rintro rfl
      simp [mgmt] at held
    rw [kept other differs] at held
    exact layout.held other slot' held

theorem not_named {good : Obs → Prop} (within : p.world.Within around good)
    (foreign : around.foreign fd = true) (k : ConnId) (c : Conn)
    (live : p.world.heap k = some (.live c)) :
    c.clientFd ≠ some fd ∧ c.originFd ≠ some fd := by
  constructor
  all_goals
    intro named
    have own := within.apart k c live fd (by simp [named])
    rw [Surroundings.Own, foreign] at own
    cases own

theorem windsDown_of_running (running : p.world.mode = .running) : WindsDown around p := by
  constructor
  all_goals
    intro ended
    rw [running] at ended
    cases ended

/-! ## Events of the SOCKS5 side -/

theorem InStep.still {server server' : MgmtServer} {p' : Process} (inStep : InStep server p)
    (shared : server'.deps = p'.deps) (sessions : ∀ id, server'.sessions id = server.sessions id)
    (mgmt : p'.mgmt = p.mgmt) (next : p'.nextMgmt = p.nextMgmt)
    (items : ∀ fd slot, p.mgmt fd = some slot →
      p'.world.sh.sel.items fd = p.world.sh.sel.items fd) : InStep server' p' := by
  refine ⟨shared, fun id late => ?_, ?_, ?_, fun fd slot found => ?_⟩
  · rw [next] at late
    exact (sessions id).trans (inStep.fresh id late)
  · rw [mgmt, next]
    exact inStep.known
  · rw [mgmt]
    exact inStep.distinct
  · rw [mgmt] at found
    rcases inStep.attentive fd slot found with ⟨interest, item, attentive⟩
    exact ⟨interest, (items fd slot found).trans item,
      attentive.elsewhere (sessions slot.id) shared⟩

theorem LinesHeard.still {p' : Process} {events' : List ServiceEvent} (heard : LinesHeard events p)
    (mgmt : p'.mgmt = p.mgmt) (counted : (p'.nextMgmt, p'.heard) = (p.nextMgmt, p.heard))
    (lines : ∀ id, linesOf id events' = linesOf id events) : LinesHeard events' p' := by
  rw [Prod.mk.injEq] at counted
  refine ⟨fun id => ?_, ?_, ?_⟩
  · rw [lines, counted.2]
    exact heard.lines id
  · rw [mgmt, counted.2]
    simp only [lines]
    exact heard.slots
  · rw [counted.1, counted.2]
    simp only [lines]
    exact heard.fresh

/-- An event of the SOCKS5 side is at most something the management service reports. -/
theorem Coherent.onWorld (coherent : p.Coherent deps events) (event : Event)
    (own : event.isOwn = true) (loop : p.phase = .serving → event.isServing = true) :
    ∃ world more, p.onWorld event = .ok { p with world } ∧ p.world.step event = .ok world ∧
      ({ p with world } : Process).Coherent deps (events ++ more) := by
  rcases coherent with ⟨ok, ⟨around, within, current, layout, inLoop, winds⟩, inStep, heard⟩
  rcases step_ok ok event False.elim with ⟨world, stepped, ok', -⟩
  rcases ok with ⟨view, inv⟩
  have within' := within.step (fun _ => Informed.of_consults (known_current current)) inv.sound
    layout.unlocked own stepped
  let more : List ServiceEvent := [.proxy world.sh.metrics world.sh.log p.logOpens]
  refine ⟨world, more, by simp [Process.onWorld, stepped], stepped, ok', ⟨around, ?_,
    ?_, ⟨layout.foreign, layout.passive, layout.mngPassive, layout.listener,
      layout.held, layout.active, layout.unlocked⟩, fun serving => ?_,
    stopping_step own inv.sound.slots.ok winds.1 stepped,
    fun ended => winds.2 (mode_destroyed own stepped ended)⟩, fun serving => ?_, ?_⟩
  · exact within'.mono fun what informed store asked => (informed store asked).later more
  · rwa [service, MgmtServer.run_append]
  · have before := inLoop serving
    exact ⟨(mode_step (loop serving) stepped).trans before.running, before.reachable.step stepped,
      before.listener, before.armed, before.accepting⟩
  · have before := inStep serving
    have shared : (service deps (events ++ more)).deps = ({ p with world } : Process).deps := by
      rw [service, MgmtServer.run_append]
      change { (service deps events).deps with
        metrics := world.sh.metrics, accessLog := world.sh.log, logOpens := p.logOpens } = _
      rw [before.deps]
      simp only [Process.deps, within'.hold.users, within.hold.users, within'.hold.config,
        within.hold.config]
    have same : ∀ id, (service deps (events ++ more)).sessions id =
        (service deps events).sessions id := by
      intro id
      rw [service, MgmtServer.run_append]
      rfl
    refine before.still shared same rfl rfl fun fd slot found => ?_
    rw [layout.items_eq within.hold found]
    exact within'.hold.others fd (layout.apart found).1
      (layout.not_listener (layout.apart found).2.1)
  · exact heard.still rfl rfl fun id => by simp [linesOf, ServiceEvent.lineOf, more]

/-! ## Management connections -/

theorem setDeps_eq {deps' : MgmtDeps} (commanded : Commanded p.deps deps') :
    ∃ commands : List AdminCommand, p.setDeps deps' =
      { p with
        world := { p.world with sh := commands.foldl applyAdmin p.world.sh }
        admin := deps'.admin } := by
  rcases commanded with ⟨metrics, accessLog, logOpens, commands, changes⟩
  refine ⟨commands, ?_⟩
  rw [changes p.world.sh rfl rfl, Process.setDeps, metrics, accessLog, logOpens]
  rfl

@[simp]
theorem deps_setDeps (deps' : MgmtDeps) : (p.setDeps deps').deps = deps' := rfl

/-- Nothing but descriptors changes when other modules use the selector. -/
theorem deps_applyForeign (action : ForeignAction) :
    (p.share fun sh => applyForeign sh action).deps = p.deps := by
  have retried : ∀ sh, (retryAccept sh).users = sh.users ∧ (retryAccept sh).metrics = sh.metrics ∧
      (retryAccept sh).config = sh.config ∧ (retryAccept sh).log = sh.log := by
    intro sh
    unfold retryAccept
    split
    · exact ⟨rfl, rfl, rfl, rfl⟩
    · split <;> exact ⟨rfl, rfl, rfl, rfl⟩
  cases action with
  | opened fd interest listener =>
      simp only [share, applyForeign]
      split
      · rfl
      · split <;> rfl
  | armed fd interest =>
      simp only [share, applyForeign]
      split
      · split <;> rfl
      · rfl
  | closed fd =>
      simp only [share, applyForeign]
      split
      · simp only [Process.deps, retried]
      · rfl

theorem hold_setDeps (hold : around.Hold p.world.sh) (deps' : MgmtDeps) :
    (around.configured deps'.users deps'.config).Hold (p.setDeps deps').world.sh :=
  ⟨hold.foreign, hold.others, hold.listens, hold.paused, hold.locked, rfl, rfl⟩

/-- What a dispatch to a management connection leads to, before its item is looked at. -/
structure Dispatched (deps : MgmtDeps) (events : List ServiceEvent) (p : Process) (slot : MgmtSlot)
    (m : MgmtState) (more : List ServiceEvent) : Prop where
  reachable : (p.setDeps m.deps).world.Reachable
  kept : m.deps.metrics = p.deps.metrics ∧ m.deps.accessLog = p.deps.accessLog
  shared : (service deps (events ++ more)).deps = m.deps
  others : ∀ id, id ≠ slot.id →
    (service deps (events ++ more)).sessions id = (service deps events).sessions id
  attentive : ∀ interest, m.item = some interest →
    Attentive (service deps (events ++ more)) ⟨slot.id, m.conn⟩ m.deps interest
  taken : ∃ bodies, Took m.conn bodies ∧ linesOf slot.id (events ++ more) = bodies.map Line.classify
  quiet : ∀ id, id ≠ slot.id → linesOf id (events ++ more) = linesOf id events

theorem handled {handler : MgmtM Unit} {interest : Interest} (sends : List SendAnswer)
    (inLoop : InLoop around p) (inStep : InStep (service deps events) p)
    (heard : LinesHeard events p) (found : p.mgmt fd = some slot)
    (attentive : Attentive (service deps events) slot p.deps interest)
    (handles : ∀ m earlier, m.item = some interest → Took m.conn earlier → m.Sized → m.Waits →
      wp handler (fun _ m' => ∃ heard, Rests earlier heard m m') m) :
    ∃ m more, handler ⟨slot.conn, p.deps, some interest, sends⟩ = .ok ((), m) ∧
      Dispatched deps events p slot m more := by
  rcases attentive with ⟨mirrors, sized, waits⟩
  rcases heard.slots fd slot found with ⟨-, earlier, took, before⟩
  rcases handles ⟨slot.conn, p.deps, some interest, sends⟩ earlier rfl took
    ⟨sized.readLimit, sized.writeLimit⟩ ⟨waits.item, waits.drained⟩ with
    ⟨_, m, ran, -, ⟨bodies, took₁, answered, -, sized₁⟩, waits₁⟩
  have sized₁ := sized₁ ⟨sized.readLimit, sized.writeLimit⟩
  let lines := bodies.map Line.classify
  let view := (service deps events).view slot.id
  have mirrors₁ : Mirrors m (view.answerAll lines) :=
    answered view ⟨mirrors.session, mirrors.deps, mirrors.output, mirrors.closed⟩
  let more : List ServiceEvent := lines.map (.line slot.id)
  have after : (service deps (events ++ more)).view slot.id = view.answerAll lines ∧
      ∀ other, other ≠ slot.id → (service deps (events ++ more)).sessions other =
        (service deps events).sessions other := by
    rw [service, MgmtServer.run_append]
    exact MgmtServer.run_lines (service deps events) slot.id lines
  have shared : (service deps (events ++ more)).deps = m.deps :=
    (congrArg Sequential.deps after.1).trans mirrors₁.deps.symm
  have commanded : Commanded p.deps m.deps := by
    have answers := Commanded.answerAll view lines
    rwa [← mirrors₁.deps, show view.deps = p.deps from inStep.deps] at answers
  rcases setDeps_eq commanded with ⟨commands, left⟩
  refine ⟨m, more, ran, ?_, ⟨commanded.metrics, commanded.accessLog⟩, shared, after.2,
    fun interest' item => ⟨?_, ⟨sized₁.readLimit, sized₁.writeLimit⟩, ?_⟩,
    ⟨earlier ++ bodies, took₁, ?_⟩, fun id differs => ?_⟩
  · rw [left]
    exact inLoop.reachable.commands inLoop.running commands
  · rw [after.1]
    exact ⟨mirrors₁.session, mirrors₁.deps, mirrors₁.output, mirrors₁.closed⟩
  · rw [← item]
    exact ⟨waits₁.item, waits₁.drained⟩
  · rw [linesOf_append, linesOf_lines, if_pos rfl, before, List.map_append]
  · rw [linesOf_append, linesOf_lines, if_neg (Ne.symm differs), List.append_nil]

/-- Only the connection at `fd`, with the session `id`, has changed. -/
theorem InStep.renew {server server' : MgmtServer} {p' : Process} {id : Nat}
    (inStep : InStep server p) (shared : server'.deps = p'.deps)
    (sessions : ∀ other, other ≠ id → server'.sessions other = server.sessions other)
    (mgmt : ∀ other, other ≠ fd → p'.mgmt other = p.mgmt other)
    (items : ∀ other slot, other ≠ fd → p.mgmt other = some slot →
      p'.world.sh.sel.items other = p.world.sh.sel.items other)
    (later : p.nextMgmt ≤ p'.nextMgmt) (old : id < p'.nextMgmt)
    (alone : ∀ other slot, other ≠ fd → p.mgmt other = some slot → slot.id ≠ id)
    (mine : ∀ slot, p'.mgmt fd = some slot → slot.id = id ∧ ∃ interest,
      p'.world.sh.sel.items fd = some ⟨interest, .other⟩ ∧
        Attentive server' slot p'.deps interest) : InStep server' p' := by
  refine ⟨shared, fun other late => ?_, fun other slot found => ?_,
    fun fd₁ fd₂ slot₁ slot₂ found₁ found₂ same => ?_, fun other slot found => ?_⟩
  · exact (sessions other (by omega)).trans (inStep.fresh other (by omega))
  · by_cases same : other = fd
    · subst same
      rw [(mine slot found).1]
      exact old
    · rw [mgmt other same] at found
      exact (inStep.known other slot found).trans_le later
  · by_cases at₁ : fd₁ = fd
    · by_cases at₂ : fd₂ = fd
      · exact at₁.trans at₂.symm
      · rw [mgmt fd₂ at₂] at found₂
        rw [at₁] at found₁
        exact absurd (same.symm.trans (mine slot₁ found₁).1) (alone fd₂ slot₂ at₂ found₂)
    · rw [mgmt fd₁ at₁] at found₁
      by_cases at₂ : fd₂ = fd
      · rw [at₂] at found₂
        exact absurd (same.trans (mine slot₂ found₂).1) (alone fd₁ slot₁ at₁ found₁)
      · rw [mgmt fd₂ at₂] at found₂
        exact inStep.distinct fd₁ fd₂ slot₁ slot₂ found₁ found₂ same
  · by_cases same : other = fd
    · subst same
      exact (mine slot found).2
    · rw [mgmt other same] at found
      rcases inStep.attentive other slot found with ⟨interest, item, attentive⟩
      refine ⟨interest, (items other slot same found).trans item, ?_⟩
      exact attentive.elsewhere (sessions slot.id (alone other slot same found)) shared

theorem Dispatched.heard {m : MgmtState} {more : List ServiceEvent} {p' : Process}
    (handled : Dispatched deps events p slot m more) (heard : LinesHeard events p)
    (inStep : InStep (service deps events) p) (found : p.mgmt fd = some slot)
    (mgmt : ∀ other, other ≠ fd → p'.mgmt other = p.mgmt other)
    (mine : ∀ slot', p'.mgmt fd = some slot' → slot' = ⟨slot.id, m.conn⟩)
    (record : p'.heard = Function.update p.heard slot.id m.conn.received)
    (next : p'.nextMgmt = p.nextMgmt) : LinesHeard (events ++ more) p' := by
  rcases handled.taken with ⟨bodies, took, lines⟩
  refine ⟨fun id => ?_, fun other slot' found' => ?_, fun id late => ?_⟩
  · by_cases same : id = slot.id
    · subst same
      rw [record, Function.update_self, lines]
      rcases took.lines with ⟨unanswered, all, -⟩
      exact ⟨unanswered, all⟩
    · rw [record, Function.update_of_ne same, handled.quiet id same]
      exact heard.lines id
  · by_cases same : other = fd
    · subst same
      rw [mine slot' found', record, Function.update_self]
      exact ⟨rfl, bodies, took, lines⟩
    · rw [mgmt other same] at found'
      have apart : slot'.id ≠ slot.id := fun alike =>
        same (inStep.distinct _ _ _ _ found' found alike)
      rw [handled.quiet slot'.id apart, record, Function.update_of_ne apart]
      exact heard.slots other slot' found'
  · rw [next] at late
    have apart : id ≠ slot.id := by
      have old := inStep.known fd slot found
      omega
    rw [handled.quiet id apart, record, Function.update_of_ne apart]
    exact heard.fresh id late

theorem Layout.configured {users : Users} {config : Config} (layout : Layout around p) :
    Layout (around.configured users config) p :=
  ⟨layout.foreign, layout.passive, layout.mngPassive, layout.listener, layout.held, layout.active,
    layout.unlocked⟩

theorem Dispatched.armed {m : MgmtState} {more : List ServiceEvent} {interest wanted : Interest}
    (handled : Dispatched deps events p slot m more) (waits : m.item = some wanted)
    (found : p.mgmt fd = some slot) (item : p.world.sh.sel.items fd = some ⟨interest, .other⟩)
    (small : fd < FD_SETSIZE) (within : p.world.Within around (Informed deps events))
    (layout : Layout around p) (inLoop : InLoop around p) (inStep : InStep (service deps events) p)
    (heard : LinesHeard events p) :
    ({ (p.setDeps m.deps).share fun sh => applyForeign sh (.armed fd wanted) with
        mgmt := Function.update p.mgmt fd (some ⟨slot.id, m.conn⟩)
        heard := Function.update p.heard slot.id m.conn.received } : Process).Coherent deps
      (events ++ more) := by
  rcases layout.apart found with ⟨foreign, apart, apartMng⟩
  have reachable := handled.reachable.foreign inLoop.running (.armed fd wanted)
  have configured := hold_setDeps within.hold m.deps
  have hold := hold_armed configured foreign (layout.not_listener apart) item small wanted
  have same : ((p.setDeps m.deps).share fun sh => applyForeign sh (.armed fd wanted)).deps =
      m.deps := deps_applyForeign _
  have layout' : Layout ((around.configured m.deps.users m.deps.config).put fd wanted)
      { (p.setDeps m.deps).share fun sh => applyForeign sh (.armed fd wanted) with
        mgmt := Function.update p.mgmt fd (some ⟨slot.id, m.conn⟩)
        heard := Function.update p.heard slot.id m.conn.received } := by
    refine layout.configured.put apart apartMng rfl rfl rfl ?_
    change p.activeMgmtConnections = (mgmtFds (Function.update p.mgmt fd _)).card
    rw [mgmtFds_update found]
    exact layout.active
  refine ⟨reachable.ok, ⟨_, ?_, congrArg MgmtDeps.users handled.shared, layout', fun _ =>
    ⟨inLoop.running, reachable, inLoop.listener, fun other listens => ?_, inLoop.accepting⟩,
    windsDown_of_running inLoop.running⟩, fun _ => ?_, ?_⟩
  · have later := within.mono fun what informed store asked => (informed store asked).later more
    exact (later.configured configured).put (not_named within foreign) hold
  · have differs : other ≠ fd := by
      rintro rfl
      exact apartMng listens
    simp only [Surroundings.put, Function.update_of_ne differs]
    exact inLoop.armed other listens
  · refine inStep.renew (handled.shared.trans same.symm) handled.others
      (fun other differs => Function.update_of_ne differs _ _)
      (fun other slot' differs found' => ?_)
      le_rfl (inStep.known fd slot found)
      (fun other slot' differs found' same => differs (inStep.distinct _ _ _ _ found' found same))
      (fun slot' found' => ?_)
    · have here : Function.update p.mgmt fd (some (⟨slot.id, m.conn⟩ : MgmtSlot)) other =
          some slot' := by rw [Function.update_of_ne differs, found']
      rw [layout'.items_eq hold here, layout.items_eq within.hold found']
      simp [Surroundings.put, Surroundings.configured, differs]
    · have here : Function.update p.mgmt fd (some (⟨slot.id, m.conn⟩ : MgmtSlot)) fd =
          some slot' := found'
      rw [Function.update_self, Option.some.injEq] at here
      subst here
      refine ⟨rfl, wanted, ?_, ?_⟩
      · rw [layout'.items_eq hold found']
        simp [Surroundings.put]
      · have attentive := handled.attentive wanted waits
        rw [← same] at attentive
        exact attentive
  · refine handled.heard heard inStep found (fun other differs => Function.update_of_ne differs _ _)
      (fun slot' found' => ?_) rfl rfl
    have here : Function.update p.mgmt fd (some (⟨slot.id, m.conn⟩ : MgmtSlot)) fd =
        some slot' := found'
    rw [Function.update_self, Option.some.injEq] at here
    exact here.symm

theorem Dispatched.closed {m : MgmtState} {more : List ServiceEvent} {interest : Interest}
    (handled : Dispatched deps events p slot m more) (found : p.mgmt fd = some slot)
    (item : p.world.sh.sel.items fd = some ⟨interest, .other⟩) (small : fd < FD_SETSIZE)
    (within : p.world.Within around (Informed deps events))
    (layout : Layout around p) (inLoop : InLoop around p) (inStep : InStep (service deps events) p)
    (heard : LinesHeard events p) :
    ({ (p.setDeps m.deps).share fun sh => applyForeign sh (.closed fd) with
        mgmt := Function.update p.mgmt fd none
        heard := Function.update p.heard slot.id m.conn.received
        activeMgmtConnections := p.activeMgmtConnections - 1 } : Process).Coherent deps
      (events ++ more) := by
  rcases layout.apart found with ⟨foreign, apart, apartMng⟩
  have reachable := handled.reachable.foreign inLoop.running (.closed fd)
  have configured := hold_setDeps within.hold m.deps
  have hold := hold_closed configured ((congrFun within.hold.foreign fd).trans foreign)
    (ownedElsewhere_of_item item rfl)
  have same : ((p.setDeps m.deps).share fun sh => applyForeign sh (.closed fd)).deps = m.deps :=
    deps_applyForeign _
  have layout' : Layout ((around.configured m.deps.users m.deps.config).drop fd)
      { (p.setDeps m.deps).share fun sh => applyForeign sh (.closed fd) with
        mgmt := Function.update p.mgmt fd none
        heard := Function.update p.heard slot.id m.conn.received
        activeMgmtConnections := p.activeMgmtConnections - 1 } := by
    refine layout.configured.drop (if_neg apart).symm (if_neg apartMng).symm rfl ?_
    change p.activeMgmtConnections - 1 = (mgmtFds (Function.update p.mgmt fd none)).card
    rw [card_mgmtFds_close (mem_mgmtFds.mpr ⟨small, by simp [found]⟩), layout.active]
  have gone : ∀ slot', Function.update p.mgmt fd none fd ≠ some slot' := by simp
  refine ⟨reachable.ok, ⟨_, ?_, congrArg MgmtDeps.users handled.shared, layout', fun _ =>
    ⟨inLoop.running, reachable, ?_, inLoop.armed, inLoop.accepting⟩,
    windsDown_of_running inLoop.running⟩, fun _ => ?_, ?_⟩
  · have later := within.mono fun what informed store asked => (informed store asked).later more
    exact (later.configured configured).drop hold
  · exact (if_neg (layout.not_listener apart)).trans inLoop.listener
  · refine inStep.renew (handled.shared.trans same.symm) handled.others
      (fun other differs => Function.update_of_ne differs _ _)
      (fun other slot' differs found' => ?_)
      le_rfl (inStep.known fd slot found)
      (fun other slot' differs found' same => differs (inStep.distinct _ _ _ _ found' found same))
      (fun slot' found' => ?_)
    · have here : Function.update p.mgmt fd none other = some slot' := by
        rw [Function.update_of_ne differs, found']
      rw [layout'.items_eq hold here, layout.items_eq within.hold found']
      rfl
    · exact (gone slot' found').elim
  · exact handled.heard heard inStep found
      (fun other differs => Function.update_of_ne differs _ _)
      (fun slot' found' => (gone slot' found').elim) rfl rfl

/-- A dispatch to a management connection. -/
theorem Coherent.onMgmt {handler : MgmtM Unit} {interest : Interest} (sends : List SendAnswer)
    (coherent : p.Coherent deps events) (serving : p.phase = .serving)
    (found : p.mgmt fd = some slot) (item : p.world.sh.sel.items fd = some ⟨interest, .other⟩)
    (handles : ∀ m earlier, m.item = some interest → Took m.conn earlier → m.Sized → m.Waits →
      wp handler (fun _ m' => ∃ heard, Rests earlier heard m m') m) :
    ∃ p' more, p.onMgmt fd slot handler sends = .ok p' ∧ p'.Coherent deps (events ++ more) ∧
      p'.deps.metrics = p.deps.metrics ∧ p'.deps.accessLog = p.deps.accessLog := by
  rcases coherent with ⟨⟨view, inv⟩, ⟨around, within, -, layout, inLoop, -⟩, inStep, heard⟩
  have inLoop := inLoop serving
  have inStep := inStep serving
  have small : fd < FD_SETSIZE := inv.sound.table.range fd (by simp [item])
  have attentive : Attentive (service deps events) slot p.deps interest := by
    rcases inStep.attentive fd slot found with ⟨interest', item', attentive⟩
    rw [item] at item'
    cases item'
    exact attentive
  rcases handled sends inLoop inStep heard found attentive handles with ⟨m, more, ran, handled⟩
  simp only [Process.onMgmt, item, Option.map_some, ran]
  cases waits : m.item with
  | some wanted =>
      refine ⟨_, more, rfl, ?_⟩
      rw [selectorSetInterestKey_eq (p := { p.setDeps m.deps with mgmt := _, heard := _ }) item rfl]
      refine ⟨handled.armed waits found item small within layout inLoop inStep heard, ?_⟩
      have same := deps_applyForeign (p := p.setDeps m.deps) (.armed fd wanted)
      exact ⟨(congrArg MgmtDeps.metrics same).trans handled.kept.1,
        (congrArg MgmtDeps.accessLog same).trans handled.kept.2⟩
  | none =>
      refine ⟨_, more, unregisterMgmt_eq
        ((congrFun within.hold.foreign fd).trans (layout.apart found).1) item
        (layout.not_paused within.hold found item), ?_⟩
      simp only [share, Function.update_idem]
      refine ⟨handled.closed found item small within layout inLoop inStep heard, ?_⟩
      have same := deps_applyForeign (p := p.setDeps m.deps) (.closed fd)
      exact ⟨(congrArg MgmtDeps.metrics same).trans handled.kept.1,
        (congrArg MgmtDeps.accessLog same).trans handled.kept.2⟩

theorem Coherent.mgmtPassiveAccept (answer : AcceptAnswer) (coherent : p.Coherent deps events)
    (serving : p.phase = .serving) :
    ∃ p', p.mgmtPassiveAccept answer = .ok p' ∧ p'.Coherent deps events := by
  rcases mgmtPassiveAccept_cases answer with same | ⟨client, closed, small, free, accepted⟩
  · exact ⟨p, same, coherent⟩
  refine ⟨_, accepted, ?_⟩
  rcases coherent with ⟨⟨view, inv⟩, ⟨around, within, known, layout, inLoop, -⟩, inStep, heard⟩
  have inLoop := inLoop serving
  have inStep := inStep serving
  -- `accept` returns a descriptor that was closed, so it is none the process holds.
  have unknown : ¬ around.foreign client = true := by
    rw [Kernel.isOpen, Bool.or_eq_false_iff] at closed
    rw [← within.hold.foreign, closed.2]
    simp
  obtain ⟨apart, apartMng, vacant⟩ : p.passive ≠ some client ∧ p.mngPassive ≠ some client ∧
      p.mgmt client = none := by
    rw [layout.foreign, not_or, not_or] at unknown
    exact ⟨unknown.1, unknown.2.1, by simpa using unknown.2.2⟩
  have reachable := inLoop.reachable.foreign inLoop.running (.opened client OP_READ false)
  have hold := hold_opened within.hold closed small free OP_READ
  have layout' : Layout (around.put client OP_READ)
      { p.share fun sh => applyForeign sh (.opened client OP_READ false) with
        mgmt := Function.update p.mgmt client (some ⟨p.nextMgmt, newMgmtConn⟩)
        nextMgmt := p.nextMgmt + 1
        activeMgmtConnections := p.activeMgmtConnections + 1 } := by
    refine layout.put apart apartMng rfl rfl rfl ?_
    change p.activeMgmtConnections + 1 = (mgmtFds (Function.update p.mgmt client _)).card
    rw [card_mgmtFds_open vacant small, layout.active]
  have shared : (service deps events).deps = Process.deps
      { p.share fun sh => applyForeign sh (.opened client OP_READ false) with
        mgmt := Function.update p.mgmt client (some ⟨p.nextMgmt, newMgmtConn⟩)
        nextMgmt := p.nextMgmt + 1
        activeMgmtConnections := p.activeMgmtConnections + 1 } :=
    inStep.deps.trans (deps_applyForeign _).symm
  refine ⟨reachable.ok, ⟨around.put client OP_READ, ?_, known, layout', fun _ =>
    ⟨inLoop.running, reachable, inLoop.listener, fun other listens => ?_, inLoop.accepting⟩,
    windsDown_of_running inLoop.running⟩, fun _ => ?_, ?_⟩
  · refine within.put (fun k c live => ⟨fun named => ?_, fun named => ?_⟩) hold
    all_goals
      have socket : (p.world.sh.kern.sockets client).isSome = true :=
        inv.isSome_sockets live (by simp [named])
      rw [Kernel.isOpen, Bool.or_eq_false_iff] at closed
      rw [closed.1] at socket
      cases socket
  · have differs : other ≠ client := by
      rintro rfl
      exact apartMng listens
    simp only [Surroundings.put, Function.update_of_ne differs]
    exact inLoop.armed other listens
  · refine inStep.renew shared (fun _ _ => rfl)
      (fun other differs => Function.update_of_ne differs _ _)
      (fun other slot' differs found' => ?_)
      (Nat.le_succ _) (Nat.lt_succ_self _)
      (fun other slot' differs found' => (inStep.known other slot' found').ne)
      (fun slot' found' => ?_)
    · have here : Function.update p.mgmt client (some (⟨p.nextMgmt, newMgmtConn⟩ : MgmtSlot))
          other = some slot' := by rw [Function.update_of_ne differs, found']
      rw [layout'.items_eq hold here, layout.items_eq within.hold found']
      simp [Surroundings.put, differs]
    · have here : Function.update p.mgmt client (some (⟨p.nextMgmt, newMgmtConn⟩ : MgmtSlot))
          client = some slot' := found'
      rw [Function.update_self, Option.some.injEq] at here
      subst here
      refine ⟨rfl, OP_READ, ?_, attentive_newMgmtConn (inStep.fresh _ le_rfl) shared⟩
      rw [layout'.items_eq hold found']
      simp [Surroundings.put]
  · refine ⟨heard.lines, fun other slot' found' => ?_, fun id late => heard.fresh id
      ((Nat.le_succ _).trans late)⟩
    by_cases same : other = client
    · subst same
      have here : Function.update p.mgmt other (some (⟨p.nextMgmt, newMgmtConn⟩ : MgmtSlot))
          other = some slot' := found'
      rw [Function.update_self, Option.some.injEq] at here
      subst here
      rcases heard.fresh _ le_rfl with ⟨unserved, silent⟩
      exact ⟨silent, [], took_newMgmtConn, unserved⟩
    · have here : Function.update p.mgmt client (some (⟨p.nextMgmt, newMgmtConn⟩ : MgmtSlot))
          other = some slot' := found'
      rw [Function.update_of_ne same] at here
      exact heard.slots other slot' here

/-! ## The end of accepting -/

theorem Layout.paused (layout : Layout around p) (hold : around.Hold p.world.sh)
    (armed : ∀ fd, p.mngPassive = some fd → around.items fd = some ⟨OP_READ, .other⟩)
    (paused : p.world.sh.acceptPausedFd = some fd) : p.passive = some fd := by
  rcases hold.paused fd paused with listens | ⟨foreign, gone⟩
  · exact layout.listener fd listens
  rcases (layout.foreign fd).mp foreign with listens | manages | managed
  · exact listens
  · rw [armed fd manages] at gone
    cases gone
  · rcases Option.isSome_iff_exists.mp managed with ⟨slot, found⟩
    rcases layout.held fd slot found with ⟨interest, item⟩
    rw [item] at gone
    cases gone

theorem Coherent.stopAccepting (coherent : p.Coherent deps events) (serving : p.phase = .serving)
    (accepting : p.accepting = true) :
    ∃ p', p.stopAccepting = .ok p' ∧ p'.Coherent deps events ∧ p'.phase = p.phase := by
  rcases coherent with ⟨-, ⟨around, within, known, layout, inLoop, -⟩, inStep, heard⟩
  have inLoop := inLoop serving
  have inStep := inStep serving
  rcases Option.isSome_iff_exists.mp (inLoop.accepting.1.trans accepting) with ⟨first, listens⟩
  rcases Option.isSome_iff_exists.mp (inLoop.accepting.2.trans accepting) with ⟨second, manages⟩
  -- The SOCKS5 listener goes first, and with it what waits for a descriptor.
  have differs : p.mngPassive ≠ some first := (layout.passive first listens).1
  have listening := inLoop.listener.trans listens
  have open₁ : p.world.sh.kern.foreign first = true :=
    (congrFun within.hold.foreign first).trans (within.hold.listens first listening).1
  have item₁ := (within.hold.listens first listening).2
  have alone : p.world.sh.acceptPausedFd = none ∨ p.world.sh.acceptPausedFd = some first := by
    cases paused : p.world.sh.acceptPausedFd with
    | none => exact .inl rfl
    | some other =>
        have same := (layout.paused within.hold inLoop.armed paused).symm.trans listens
        exact .inr same
  have closed₁ := closePassive_eq listens open₁ item₁ alone
  have hold₁ := hold_closed within.hold open₁ (ownedElsewhere_of_item item₁ rfl)
  have vacant₁ : Function.update p.mgmt first none = p.mgmt :=
    Function.update_eq_self_iff.mpr (layout.passive first listens).2.symm
  let p₁ : Process :=
    { p.share fun sh => applyForeign sh (.closed first) with passive := none }
  have layout₁ : Layout (around.drop first) p₁ :=
    layout.drop (if_pos listens).symm (if_neg differs).symm vacant₁.symm layout.active
  have apart : second ≠ first := by
    rintro rfl
    exact differs manages
  have foreign₂ : (around.drop first).foreign second = true :=
    (layout₁.foreign second).mpr (.inr (.inl manages))
  have open₂ : p₁.world.sh.kern.foreign second = true :=
    (congrFun hold₁.foreign second).trans foreign₂
  have item₂ : p₁.world.sh.sel.items second = some ⟨OP_READ, .other⟩ := by
    refine (hold₁.others second foreign₂ ?_).trans (inLoop.armed second manages)
    exact layout₁.not_listener nofun
  have unpaused : p₁.world.sh.acceptPausedFd = none := by
    cases paused : p₁.world.sh.acceptPausedFd with
    | none => rfl
    | some other => cases layout₁.paused hold₁ inLoop.armed paused
  have closed₂ := closeMngPassive_eq (p := p₁) manages open₂ item₂ unpaused
  have hold₂ := hold_closed hold₁ open₂ (ownedElsewhere_of_item (p := p₁) item₂ rfl)
  have vacant₂ : Function.update p.mgmt second none = p.mgmt :=
    Function.update_eq_self_iff.mpr (layout.mngPassive second manages).symm
  let p₂ : Process :=
    { p₁.share fun sh => applyForeign sh (.closed second) with
      mngPassive := none, accepting := false }
  have layout₂ : Layout ((around.drop first).drop second) p₂ :=
    layout₁.drop rfl (if_pos manages).symm vacant₂.symm layout.active
  have reachable₁ := inLoop.reachable.foreign inLoop.running (.closed first)
  have reachable₂ := reachable₁.foreign inLoop.running (.closed second)
  refine ⟨p₂, ?_, ⟨reachable₂.ok, ⟨_, (within.drop hold₁).drop hold₂, known, layout₂, fun _ =>
    ⟨inLoop.running, reachable₂, ?_, nofun, rfl, rfl⟩, windsDown_of_running inLoop.running⟩,
    fun _ => ?_,
    heard.still rfl rfl fun _ => rfl⟩, rfl⟩
  · simp only [Process.stopAccepting, closed₁]
    rw [show Process.closeMngPassive _ = _ from closed₂]
  · cases none : ((around.drop first).drop second).listener with
    | none => rfl
    | some other => cases layout₂.listener other none
  · refine inStep.still ?_ (fun _ => rfl) rfl rfl fun fd slot found => ?_
    · rw [inStep.deps]
      exact ((deps_applyForeign (p := p₁) _).trans (deps_applyForeign _)).symm
    · rw [layout₂.items_eq hold₂ found, layout.items_eq within.hold found]
      rfl

theorem Coherent.logFile (coherent : p.Coherent deps events) (opens : Bool) :
    ∃ more, ({ p with logOpens := opens } : Process).Coherent deps (events ++ more) := by
  rcases coherent with ⟨ok, ⟨around, within, current, layout, inLoop, winds⟩, inStep, heard⟩
  let more : List ServiceEvent := [.proxy p.world.sh.metrics p.world.sh.log opens]
  refine ⟨more, ok, ⟨around, ?_, ?_, ⟨layout.foreign, layout.passive, layout.mngPassive,
    layout.listener, layout.held, layout.active, layout.unlocked⟩, fun serving => ?_, winds⟩,
    fun serving => ?_, heard.still rfl rfl fun id => by simp [linesOf, ServiceEvent.lineOf, more]⟩
  · exact within.mono fun what informed store asked => (informed store asked).later more
  · rwa [service, MgmtServer.run_append]
  · have before := inLoop serving
    exact ⟨before.running, before.reachable, before.listener, before.armed, before.accepting⟩
  · have before := inStep serving
    have shared : (service deps (events ++ more)).deps =
        ({ p with logOpens := opens } : Process).deps := by
      rw [service, MgmtServer.run_append]
      change { (service deps events).deps with
        metrics := p.world.sh.metrics, accessLog := p.world.sh.log, logOpens := opens } = _
      rw [before.deps]
      rfl
    have same : ∀ id, (service deps (events ++ more)).sessions id =
        (service deps events).sessions id := by
      intro id
      rw [service, MgmtServer.run_append]
      rfl
    exact before.still shared same rfl rfl fun _ _ _ => rfl

theorem Coherent.leave (coherent : p.Coherent deps events) (serving : p.phase = .serving)
    (ret : Nat) : ({ p with phase := .leaving ret } : Process).Coherent deps events := by
  rcases coherent with ⟨ok, ⟨around, within, known, layout, inLoop, -⟩, -, heard⟩
  refine ⟨ok, ⟨around, within, known, ⟨layout.foreign, layout.passive, layout.mngPassive,
    layout.listener, layout.held, layout.active, layout.unlocked⟩, nofun,
    windsDown_of_running (inLoop serving).running⟩, nofun, heard.still rfl rfl fun _ => rfl⟩

theorem Coherent.drained (coherent : p.Coherent deps events) (serving : p.phase = .serving) :
    p.drained.Coherent deps events := by
  unfold Process.drained
  split
  · exact coherent.leave serving 0
  split
  · exact coherent.leave serving 0
  · exact coherent

theorem isOver_drained (ongoing : p.phase.isOver = false) : p.drained.phase.isOver = false := by
  unfold Process.drained
  split
  · rfl
  split
  · rfl
  · exact ongoing

theorem Coherent.check (coherent : p.Coherent deps events) (serving : p.phase = .serving) :
    ∃ p', p.check = .ok p' ∧ p'.Coherent deps events ∧ p'.phase.isOver = false := by
  have ongoing : p.phase.isOver = false := by rw [serving]; rfl
  unfold Process.check
  split
  · exact ⟨p, rfl, coherent, ongoing⟩
  split
  · next accepting =>
      rcases coherent.stopAccepting serving accepting with ⟨p', stopped, coherent', same⟩
      exact ⟨p'.drained, by rw [stopped], coherent'.drained (same.trans serving),
        isOver_drained (by rw [same, ongoing])⟩
  · exact ⟨p.drained, rfl, coherent.drained serving, isOver_drained ongoing⟩

/-! ## Dispatching -/

/-- What another module has registered is a management connection or the listener for them. -/
theorem Coherent.listener_of_vacant {interest : Interest} (coherent : p.Coherent deps events)
    (serving : p.phase = .serving) (item : p.world.sh.sel.items fd = some ⟨interest, .other⟩)
    (vacant : p.mgmt fd = none) : p.mngPassive = some fd ∧ interest = OP_READ := by
  rcases coherent with ⟨⟨view, inv⟩, ⟨around, within, -, layout, inLoop, -⟩, -, -⟩
  have inLoop := inLoop serving
  have foreign : around.foreign fd = true := by
    rw [← within.hold.foreign]
    exact inv.sound.table.elsewhere fd _ item rfl
  rcases (layout.foreign fd).mp foreign with listens | manages | managed
  · rw [(within.hold.listens fd (inLoop.listener.trans listens)).2] at item
    cases item
  · have armed := inLoop.armed fd manages
    have apart : p.passive ≠ some fd := fun listens => (layout.passive fd listens).1 manages
    rw [within.hold.others fd foreign (layout.not_listener apart), armed] at item
    cases item
    exact ⟨manages, rfl⟩
  · rw [vacant] at managed
    cases managed

theorem Coherent.interest_cases {interest : Interest} (coherent : p.Coherent deps events)
    (serving : p.phase = .serving) (found : p.mgmt fd = some slot)
    (item : p.world.sh.sel.items fd = some ⟨interest, .other⟩) :
    interest = OP_WRITE ∨ interest = OP_READ := by
  rcases (coherent.inStep serving).attentive fd slot found with ⟨interest', item', attentive⟩
  rw [item] at item'
  cases item'
  rcases attentive.waits.item with none | ⟨writes, -⟩ | ⟨reads, -⟩
  · cases none
  · exact .inl (Option.some.inj writes)
  · exact .inr (Option.some.inj reads)

theorem Coherent.onMgmtRead {interest : Interest} (coherent : p.Coherent deps events)
    (serving : p.phase = .serving) (found : p.mgmt fd = some slot)
    (item : p.world.sh.sel.items fd = some ⟨interest, .other⟩) (readable : interest.read = true)
    (answer : RecvAnswer) (sends : List SendAnswer) :
    ∃ p' more, p.onMgmt fd slot (mgmtRead answer) sends = .ok p' ∧
      p'.Coherent deps (events ++ more) ∧
      p'.deps.metrics = p.deps.metrics ∧ p'.deps.accessLog = p.deps.accessLog := by
  obtain rfl : interest = OP_READ := by
    rcases coherent.interest_cases serving found item with rfl | reads
    · cases readable
    · exact reads
  exact coherent.onMgmt sends serving found item
    fun _ _ registered took sized waits =>
      wp_mono (wp_mgmtRead _ [] registered took sized waits) fun _ _ rests => ⟨_, rests⟩

theorem Coherent.onMgmtWrite {interest : Interest} (coherent : p.Coherent deps events)
    (serving : p.phase = .serving) (found : p.mgmt fd = some slot)
    (item : p.world.sh.sel.items fd = some ⟨interest, .other⟩) (writable : interest.write = true)
    (sends : List SendAnswer) :
    ∃ p' more, p.onMgmt fd slot mgmtWrite sends = .ok p' ∧
      p'.Coherent deps (events ++ more) ∧
      p'.deps.metrics = p.deps.metrics ∧ p'.deps.accessLog = p.deps.accessLog := by
  obtain rfl : interest = OP_WRITE := by
    rcases coherent.interest_cases serving found item with writes | rfl
    · exact writes
    · cases writable
  exact coherent.onMgmt sends serving found item
    fun _ _ registered took sized waits =>
      wp_mono (wp_mgmtWrite registered took sized waits) fun _ _ rests => ⟨_, rests⟩

theorem Coherent.dispatchRead (coherent : p.Coherent deps events) (serving : p.phase = .serving)
    (fd : Fd) (env : Answers) :
    ∃ p' more, p.dispatchRead fd env = .ok p' ∧ p'.Coherent deps (events ++ more) := by
  have unchanged : p.Coherent deps (events ++ []) := by simpa using coherent
  unfold Process.dispatchRead
  split
  · next interest item =>
      split
      · next readable =>
          split
          · next slot found =>
              rcases coherent.onMgmtRead serving found item readable
                (env.recvs.headD (.error .eagain)) env.sends with ⟨p', more, ran, coherent', -⟩
              exact ⟨p', more, ran, coherent'⟩
          · split
            · exact ⟨p, [], rfl, unchanged⟩
            · next answer _ =>
                rcases coherent.mgmtPassiveAccept answer serving with ⟨p', accepted, coherent'⟩
                exact ⟨p', [], accepted, by simpa using coherent'⟩
      · exact ⟨p, [], rfl, unchanged⟩
  · rcases coherent.onWorld (.read fd env) rfl (fun _ => rfl) with
      ⟨world, more, ran, -, coherent'⟩
    exact ⟨_, more, ran, coherent'⟩

theorem Coherent.dispatchWrite (coherent : p.Coherent deps events) (serving : p.phase = .serving)
    (fd : Fd) (env : Answers) :
    ∃ p' more, p.dispatchWrite fd env = .ok p' ∧ p'.Coherent deps (events ++ more) := by
  unfold Process.dispatchWrite
  split
  · next interest item =>
      split
      · next writable =>
          split
          · next slot found =>
              rcases coherent.onMgmtWrite serving found item writable env.sends with
                ⟨p', more, ran, coherent', -⟩
              exact ⟨p', more, ran, coherent'⟩
          · next vacant =>
              obtain ⟨-, rfl⟩ := coherent.listener_of_vacant serving item vacant
              cases writable
      · exact ⟨p, [], rfl, by simpa using coherent⟩
  · rcases coherent.onWorld (.write fd env) rfl (fun _ => rfl) with
      ⟨world, more, ran, -, coherent'⟩
    exact ⟨_, more, ran, coherent'⟩

end

end Process

end SocksProxy
