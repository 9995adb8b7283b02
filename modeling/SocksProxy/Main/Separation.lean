import SocksProxy.Main.Startup

/-!
# Two services in one process

The proxy and the management service share a thread, a selector and their
resources. Still each of them behaves as if it were alone: the process is at any
time in a state of the proxy's own event loop and in one of the sequential
management service, and these agree on what is shared. What one of them does
leaves the connections of the other where they are.
-/

namespace SocksProxy

namespace Process

open World

section

variable {p p' : Process} {fd : Fd} {deps : MgmtDeps} {events : List ServiceEvent}

/-- Nothing has changed for the proxy and for management connections elsewhere; but the SOCKS5
listener may have been armed again. -/
structure Elsewhere (fd : Fd) (p p' : Process) : Prop where
  heap : p'.world.heap = p.world.heap
  nextId : p'.world.nextId = p.world.nextId
  list : p'.world.sh.list = p.world.sh.list
  pool : p'.world.sh.pool = p.world.sh.pool
  sockets : p'.world.sh.kern.sockets = p.world.sh.kern.sockets
  closings : p'.world.sh.closings = p.world.sh.closings
  items : ∀ other, other ≠ fd → p.world.sh.acceptPausedFd ≠ some other →
    p'.world.sh.sel.items other = p.world.sh.sel.items other
  mgmt : ∀ other, other ≠ fd → p'.mgmt other = p.mgmt other

/-- Nothing has changed for the management service. -/
structure SameService (p p' : Process) : Prop where
  mgmt : p'.mgmt = p.mgmt
  heard : p'.heard = p.heard
  admin : p'.admin = p.admin
  users : p'.world.sh.users = p.world.sh.users
  config : p'.world.sh.config = p.world.sh.config
  foreign : p'.world.sh.kern.foreign = p.world.sh.kern.foreign
  items : ∀ fd, (p.mgmt fd).isSome = true ∨ p.mngPassive = some fd →
    p'.world.sh.sel.items fd = p.world.sh.sel.items fd

theorem Elsewhere.refl (fd : Fd) (p : Process) : Elsewhere fd p p :=
  ⟨rfl, rfl, rfl, rfl, rfl, rfl, fun _ _ _ => rfl, fun _ _ => rfl⟩

theorem items_retryAccept (sh : Shared) {other : Fd} (apart : sh.acceptPausedFd ≠ some other) :
    (retryAccept sh).sel.items other = sh.sel.items other := by
  unfold retryAccept
  split
  · rfl
  · next paused waits =>
      have differs : other ≠ paused := by
        rintro rfl
        exact apart waits
      split
      · rfl
      · next sel armed =>
          rcases Selector.items_setInterest armed with ⟨⟨item, items⟩, -⟩
          simp [items, differs]

theorem retryAccept_frame (sh : Shared) : (retryAccept sh).list = sh.list ∧
    (retryAccept sh).pool = sh.pool ∧ (retryAccept sh).kern = sh.kern ∧
    (retryAccept sh).closings = sh.closings := by
  unfold retryAccept
  split
  · exact ⟨rfl, rfl, rfl, rfl⟩
  · split <;> exact ⟨rfl, rfl, rfl, rfl⟩

theorem elsewhere_unregisterMgmt (ran : p.unregisterMgmt fd = .ok p') : Elsewhere fd p p' := by
  unfold Process.unregisterMgmt mgmtClose closeFd at ran
  split at ran
  · cases ran
  · next closed =>
      split at closed
      · cases closed
      · next first =>
          split at first
          · cases first
            cases closed
            cases ran
            rcases retryAccept_frame { p.world.sh with kern := { p.world.sh.kern with
              foreign := Function.update p.world.sh.kern.foreign fd false } } with
              ⟨list, pool, kern, closings⟩
            have sockets := congrArg Kernel.sockets kern
            refine ⟨rfl, rfl, list, pool, sockets, closings, fun other differs apart => ?_,
              fun other differs => ?_⟩
            · simp only [clearItem, share, Selector.clear, Function.update_of_ne differs]
              exact items_retryAccept _ apart
            · simp [clearItem, share, differs]
          · cases first

theorem elsewhere_onMgmt {slot : MgmtSlot} {handler : MgmtM Unit} {sends : List SendAnswer}
    (ran : p.onMgmt fd slot handler sends = .ok p') : Elsewhere fd p p' := by
  unfold Process.onMgmt at ran
  split at ran
  · cases ran
  · next m _ =>
      dsimp only at ran
      have moved : ∀ other, other ≠ fd →
          Function.update p.mgmt fd (some ⟨slot.id, m.conn⟩) other = p.mgmt other :=
        fun other differs => Function.update_of_ne differs _ _
      split at ran
      · next interest _ =>
          cases ran
          refine ⟨rfl, rfl, rfl, rfl, rfl, rfl, fun other differs _ => ?_, moved⟩
          simp only [selectorSetInterestKey, share]
          cases armed : (p.setDeps m.deps).world.sh.sel.setInterest fd interest with
          | none => rfl
          | some sel =>
              rcases Selector.items_setInterest armed with ⟨⟨item, items⟩, -⟩
              simp only [Option.getD_some, items, Function.update_of_ne differs]
              rfl
      · have gone := elsewhere_unregisterMgmt ran
        exact ⟨gone.heap, gone.nextId, gone.list, gone.pool, gone.sockets, gone.closings,
          gone.items, fun other differs => (gone.mgmt other differs).trans (moved other differs)⟩

theorem Coherent.elsewhere {slot : MgmtSlot} {env : Answers} (coherent : p.Coherent deps events)
    (serving : p.phase = .serving) (found : p.mgmt fd = some slot)
    (ran : p.dispatchRead fd env = .ok p' ∨ p.dispatchWrite fd env = .ok p') :
    Elsewhere fd p p' ∧ p'.deps.metrics = p.deps.metrics ∧
      p'.deps.accessLog = p.deps.accessLog := by
  rcases (coherent.inStep serving).attentive fd slot found with ⟨interest, item, -⟩
  have same : p' = p → Elsewhere fd p p' ∧ p'.deps.metrics = p.deps.metrics ∧
      p'.deps.accessLog = p.deps.accessLog := by
    rintro rfl
    exact ⟨.refl fd p', rfl, rfl⟩
  rcases ran with read | written
  · simp only [Process.dispatchRead, item, found] at read
    split at read
    · next readable =>
        rcases coherent.onMgmtRead serving found item readable
          (env.recvs.headD (.error .eagain)) env.sends with ⟨p'', more, ran', -, kept⟩
        rw [read] at ran'
        cases ran'
        exact ⟨elsewhere_onMgmt read, kept⟩
    · exact same (Except.ok.inj read).symm
  · simp only [Process.dispatchWrite, item, found] at written
    split at written
    · next writable =>
        rcases coherent.onMgmtWrite serving found item writable env.sends with
          ⟨p'', more, ran', -, kept⟩
        rw [written] at ran'
        cases ran'
        exact ⟨elsewhere_onMgmt written, kept⟩
    · exact same (Except.ok.inj written).symm

theorem Coherent.sameService {event : Event} (coherent : p.Coherent deps events)
    (own : event.isOwn = true) (ran : p.onWorld event = .ok p') : SameService p p' := by
  rcases coherent with ⟨⟨view, inv⟩, ⟨around, within, current, layout, -⟩, -, -⟩
  unfold Process.onWorld at ran
  split at ran
  · cases ran
  · next world stepped =>
      cases ran
      have within' := within.step (fun _ => Informed.of_consults (known_current current)) inv.sound
        layout.unlocked own stepped
      refine ⟨rfl, rfl, rfl, within'.hold.users.trans within.hold.users.symm,
        within'.hold.config.trans within.hold.config.symm,
        within'.hold.foreign.trans within.hold.foreign.symm, fun fd held => ?_⟩
      have foreign : around.foreign fd = true :=
        (layout.foreign fd).mpr (.inr (held.symm))
      have apart : around.listener ≠ some fd := by
        intro listens
        have passive := layout.passive fd (layout.listener fd listens)
        rcases held with managed | manages
        · rw [passive.2] at managed
          cases managed
        · exact passive.1 manages
      exact (within'.hold.others fd foreign apart).trans
        (within.hold.others fd foreign apart).symm

/-! ## The process -/

/-- Whatever happens, while `main()` is in its loop the SOCKS5 side is in a state that its event
loop reaches, with the changes of the administrator as events of their own; the management
connections are where the sequential service is after the lines it has served them, each at its own
session; and both see the same users, settings, metrics and log. The lines served are those
received, but for some that a connection which still sends may have left. -/
theorem process_refines_both_halves (args : Socks5Args) (log : AccessLog) (now : Int)
    (calendar : CalendarTime) (answers : StartAnswers) (happens : List ProcessEvent) :
    ∃ p served, main args log now calendar answers happens = .ok p ∧ (p.phase = .serving →
      p.world.Reachable ∧ (service (mgmtDepsInit args log) served).deps = p.deps ∧
      (∀ id, linesOf id served <+: (Framing.cut LF (p.heard id)).1.map Line.classify) ∧
      ∀ fd slot, p.mgmt fd = some slot →
        (∀ other slot', p.mgmt other = some slot' → slot'.id = slot.id → other = fd) ∧
        ∃ interest, p.world.sh.sel.items fd = some ⟨interest, .other⟩ ∧
          Mirrors ⟨slot.conn, p.deps, some interest, []⟩
            ((service (mgmtDepsInit args log) served).view slot.id) ∧
          MgmtState.Waits ⟨slot.conn, p.deps, some interest, []⟩ ∧
          ∃ unanswered, linesOf slot.id served ++ unanswered =
              (Framing.cut LF (p.heard slot.id)).1.map Line.classify ∧
            (interest = OP_READ → unanswered = [])) := by
  rcases main_stands args log now calendar answers happens with ⟨p, served, ran, stands⟩
  refine ⟨p, served, ran, fun serving => ?_⟩
  have coherent := stands.coherent (by rw [serving]; rfl)
  have inStep := coherent.inStep serving
  rcases coherent.placed with ⟨around, -, -, -, inLoop, -⟩
  refine ⟨(inLoop serving).reachable, inStep.deps, stands.heard, fun fd slot found => ⟨?_, ?_⟩⟩
  · exact fun other slot' found' same => inStep.distinct other fd slot' slot found' found same
  · rcases inStep.attentive fd slot found with ⟨interest, item, attentive⟩
    rcases coherent.heard.slots fd slot found with ⟨heard, bodies, took, lines⟩
    rcases took.lines with ⟨unanswered, all, drained⟩
    refine ⟨interest, item, attentive.mirrors, attentive.waits, unanswered, ?_, ?_⟩
    · rw [lines, heard]
      exact all
    · rintro rfl
      exact drained (attentive.waits.reading rfl).2.2

/-- A management connection touches no connection of the proxy, no other management connection, and
neither metrics nor log; no event of the proxy touches a management connection, the listener for
them, the users, the settings or the administrator. -/
theorem halves_keep_apart {args : Socks5Args} {log : AccessLog} {now : Int}
    {calendar : CalendarTime} {answers : StartAnswers} {happens : List ProcessEvent}
    (ran : main args log now calendar answers happens = .ok p) (serving : p.phase = .serving) :
    (∀ fd slot env p', p.mgmt fd = some slot →
      p.step (.read fd env) = .ok p' ∨ p.step (.write fd env) = .ok p' →
      Elsewhere fd p p' ∧ p'.world.sh.metrics = p.world.sh.metrics ∧
        p'.world.sh.log = p.world.sh.log) ∧
      ∀ event p', event.isServing = true → p.onWorld event = .ok p' → SameService p p' := by
  rcases stands_of_main ran with ⟨events, stands⟩
  have ongoing : p.phase.isOver = false := by rw [serving]; rfl
  have coherent := stands.coherent ongoing
  refine ⟨fun fd slot env p' found stepped => ?_, fun event p' loop stepped => ?_⟩
  · simp only [Process.step, ongoing, Bool.false_eq_true, if_false, Process.act,
      if_pos serving] at stepped
    exact coherent.elsewhere serving found stepped
  · exact coherent.sameService (by cases event <;> first | rfl | cases loop) stepped

/-- An administrator sends a line while a client is connected. -/
theorem halves_keep_apart_during_command :
    ∃ p p', main defaultArgs sampleLog 0 sampleTime listening
        [.read 3 { quiet with accepts := [⟨.ok 5, true, true, true⟩] },
          .read 4 { quiet with accepts := [⟨.ok 6, true, true, true⟩] }] = .ok p ∧
      p.step (.read 6 { quiet with recvs := [.data [81, 85, 73, 84, 10]] }) = .ok p' ∧
      p'.world.heap = p.world.heap := by
  have connected : endsWith
      [.read 3 { quiet with accepts := [⟨.ok 5, true, true, true⟩] },
        .read 4 { quiet with accepts := [⟨.ok 6, true, true, true⟩] }]
      (fun p => p.phase = .serving ∧ (p.mgmt 6).isSome = true) = true := by decide +kernel
  rcases main_of_endsWith connected with ⟨p, ran, holds⟩
  rcases of_decide_eq_true holds with ⟨serving, managed⟩
  rcases Option.isSome_iff_exists.mp managed with ⟨slot, found⟩
  rcases stands_of_main ran with ⟨events, stands⟩
  rcases stands.step (.read 6 { quiet with recvs := [.data [81, 85, 73, 84, 10]] }) with
    ⟨p', more, stepped, -⟩
  rcases (halves_keep_apart ran serving).1 6 slot _ p' found (.inl stepped) with ⟨elsewhere, -⟩
  exact ⟨p, p', ran, stepped, elsewhere.heap⟩

end

end Process

end SocksProxy
