import SocksProxy.Accounting.Totals
import SocksProxy.Main.Cleanup

/-!
# Draining

After the first signal `main()` closes both listeners and serves on those who
are connected. From then on nobody is admitted and the two counts it looks at
can only fall. They count exactly the connections there are, so that the loop
ends when the last one is gone, and not before unless a second signal comes.
-/

namespace SocksProxy

namespace World

section

variable {w w' : World}

theorem nextId_of_serves (serves : Relation.ReflTransGen Serves w w') : w'.nextId = w.nextId := by
  induction serves with
  | refl => rfl
  | tail _ serves ih =>
      cases serves with
      | turn found turn => exact ih
      | idle idle _ => exact idle.nextId.trans ih

theorem serves_dispatchRead {fd : Fd}
    (unlistened : ∀ fd interest, w.sh.sel.items fd ≠ some ⟨interest, .listener⟩)
    (ran : w.dispatchRead fd = .ok w') : Relation.ReflTransGen Serves w w' := by
  unfold World.dispatchRead at ran
  split at ran
  · cases ran
    exact .refl
  · next item found =>
      split at ran
      · split at ran
        · exact serves_onConn_map (fun _ => keeps_socks5Read trivial) ran
        · next owner =>
            rcases item with ⟨interest, _⟩
            cases owner
            exact absurd found (unlistened fd interest)
        · cases ran
          exact .refl
      · cases ran
        exact .refl

theorem serves_of_unlistened {event : Event} (serving : event.isServing = true)
    (unlistened : ∀ fd interest, w.sh.sel.items fd ≠ some ⟨interest, .listener⟩)
    (stepped : w.step event = .ok w') : Relation.ReflTransGen Serves w w' := by
  cases steps_of_step stepped with
  | idle => exact .refl
  | read env running ran =>
      have served : Relation.ReflTransGen Serves (w.withEnv env) w' :=
        serves_dispatchRead unlistened ran
      exact serves_withEnv served
  | write env running ran => exact serves_withEnv (serves_dispatchWrite ran)
  | block running ran => exact serves_handleBlockNotifications ran
  | reap running ran => exact serves_reapIdle ran
  | worker ran =>
      have steady := steady_workerStep anyFd 0 _ w.sh _ _ ran
      exact .single (.idle (Idle.of_sameBooks steady.toSameBooks) steady.users)
  | settle fd error =>
      exact .single (.idle ⟨rfl, rfl, rfl, rfl, rfl, rfl, w.sh.kern.renews_settle fd error⟩ rfl)
  | admin | foreign | stopBegin | stopJoined | destroy => cases serving

theorem Reachable.ledger (reachable : w.Reachable) : w.Ledger := by
  rcases reachable with ⟨users, log, now, calendar, events, ran⟩
  exact ((ledger_initial users log now calendar).run ran).1

theorem Reachable.attended (reachable : w.Reachable) : w.Attended := by
  rcases reachable with ⟨users, log, now, calendar, events, ran⟩
  exact attended_run (ok_initial users log now calendar) (by simp [Attended, initial]) ran

theorem Reachable.active_eq_zero (reachable : w.Reachable) :
    w.sh.metrics.activeConnections.toNat = 0 ↔ ∀ k c, w.heap k ≠ some (.live c) := by
  have counted := fun k => reachable.ledger.mem_counted_iff (k := k) reachable.attended
  rw [reachable.ledger.active, Finset.card_eq_zero, Finset.eq_empty_iff_forall_notMem]
  exact ⟨fun none k c live => none k ((counted k).mpr ⟨c, live⟩),
    fun none k member => ((counted k).mp member).elim fun c live => none k c live⟩

end

end World

namespace Process

open World

section

variable {deps : MgmtDeps} {events : List ServiceEvent} {p p' p'' : Process} {fd : Fd}
  {happens : List ProcessEvent}

/-- Nobody has come, and the counts have not risen. -/
structure Drains (p p' : Process) : Prop where
  nextId : p'.world.nextId = p.world.nextId
  nextMgmt : p'.nextMgmt = p.nextMgmt
  socks5 : p'.socks5ActiveConnections ≤ p.socks5ActiveConnections
  mgmt : p'.activeMgmtConnections ≤ p.activeMgmtConnections

theorem Drains.refl (p : Process) : Drains p p := ⟨rfl, rfl, le_rfl, le_rfl⟩

theorem Drains.trans (first : Drains p p') (second : Drains p' p'') : Drains p p'' :=
  ⟨second.nextId.trans first.nextId, second.nextMgmt.trans first.nextMgmt,
    second.socks5.trans first.socks5, second.mgmt.trans first.mgmt⟩

theorem Coherent.inLoop (coherent : p.Coherent deps events) (serving : p.phase = .serving) :
    ∃ around, p.world.Within around (Informed deps events) ∧ Layout around p ∧
      InLoop around p := by
  rcases coherent.placed with ⟨around, within, -, layout, inLoop, -⟩
  exact ⟨around, within, layout, inLoop serving⟩

/-! ## One event -/

theorem Coherent.drains_onWorld {event : Event} (coherent : p.Coherent deps events)
    (serving : p.phase = .serving) (closed : p.accepting = false)
    (loop : event.isServing = true) (ran : p.onWorld event = .ok p') : Drains p p' := by
  rcases coherent.inLoop serving with ⟨around, within, -, inLoop⟩
  rcases coherent.ok with ⟨view, inv⟩
  rcases onWorld_ok ran with ⟨world, stepped, rfl⟩
  have unlistened : ∀ fd interest, p.world.sh.sel.items fd ≠ some ⟨interest, .listener⟩ := by
    intro fd interest item
    have listens := inLoop.listener.symm.trans (within.hold.listener_eq inv.sound item)
    have open_ := inLoop.accepting.1
    rw [listens, closed] at open_
    cases open_
  have serves := serves_of_unlistened loop unlistened stepped
  exact ⟨nextId_of_serves serves, rfl, (inLoop.reachable.ledger.falls serves).2, le_rfl⟩

theorem drains_unregisterMgmt (ran : p.unregisterMgmt fd = .ok p') :
    p'.world.nextId = p.world.nextId ∧ p'.nextMgmt = p.nextMgmt ∧
      p'.activeMgmtConnections ≤ p.activeMgmtConnections := by
  unfold Process.unregisterMgmt mgmtClose closeFd at ran
  split at ran
  · cases ran
  · next closed =>
      split at closed
      · cases closed
      · next first =>
          split at first
          · cases first
            cases closed
            cases ran
            exact ⟨rfl, rfl, Nat.sub_le _ _⟩
          · cases first

theorem drains_onMgmt {slot : MgmtSlot} {handler : MgmtM Unit} {sends : List SendAnswer}
    (ran : p.onMgmt fd slot handler sends = .ok p')
    (metrics : p'.deps.metrics = p.deps.metrics) : Drains p p' := by
  have counts : p'.world.nextId = p.world.nextId ∧ p'.nextMgmt = p.nextMgmt ∧
      p'.activeMgmtConnections ≤ p.activeMgmtConnections := by
    unfold Process.onMgmt at ran
    split at ran
    · cases ran
    · dsimp only at ran
      split at ran
      · cases ran
        exact ⟨rfl, rfl, le_rfl⟩
      · have gone := drains_unregisterMgmt ran
        exact ⟨gone.1, gone.2.1, gone.2.2⟩
  exact ⟨counts.1, counts.2.1, (congrArg (fun m => m.activeConnections.toNat) metrics).le,
    counts.2.2⟩

theorem Coherent.drains_dispatchRead {env : Answers} (coherent : p.Coherent deps events)
    (serving : p.phase = .serving) (closed : p.accepting = false)
    (ran : p.dispatchRead fd env = .ok p') : Drains p p' := by
  unfold Process.dispatchRead at ran
  split at ran
  · next interest item =>
      split at ran
      · next readable =>
          split at ran
          · next slot found =>
              rcases coherent.onMgmtRead serving found item readable
                (env.recvs.headD (.error .eagain)) env.sends with ⟨p'', more, ran', -, metrics, -⟩
              rw [ran] at ran'
              cases ran'
              exact drains_onMgmt ran metrics
          · next vacant =>
              rcases coherent.inLoop serving with ⟨around, -, -, inLoop⟩
              have open_ := inLoop.accepting.2
              rw [(coherent.listener_of_vacant serving item vacant).1, closed] at open_
              cases open_
      · cases ran
        exact .refl p
  · exact coherent.drains_onWorld serving closed rfl ran

theorem Coherent.drains_dispatchWrite {env : Answers} (coherent : p.Coherent deps events)
    (serving : p.phase = .serving) (closed : p.accepting = false)
    (ran : p.dispatchWrite fd env = .ok p') : Drains p p' := by
  unfold Process.dispatchWrite at ran
  split at ran
  · next interest item =>
      split at ran
      · next writable =>
          split at ran
          · next slot found =>
              rcases coherent.onMgmtWrite serving found item writable env.sends with
                ⟨p'', more, ran', -, metrics, -⟩
              rw [ran] at ran'
              cases ran'
              exact drains_onMgmt ran metrics
          · cases ran
      · cases ran
        exact .refl p
  · exact coherent.drains_onWorld serving closed rfl ran

theorem drained_cases (p : Process) :
    p.drained = p ∨ p.drained = { p with phase := .leaving 0 } := by
  unfold Process.drained
  split
  · exact .inr rfl
  split
  · exact .inr rfl
  · exact .inl rfl

theorem drained_frame (p : Process) : p.drained.world = p.world ∧ p.drained.mgmt = p.mgmt ∧
    p.drained.accepting = p.accepting := by
  rcases p.drained_cases with same | gone
  · rw [same]
    exact ⟨rfl, rfl, rfl⟩
  · rw [gone]
    exact ⟨rfl, rfl, rfl⟩

theorem Coherent.drains (coherent : p.Coherent deps events) (serving : p.phase = .serving)
    (closed : p.accepting = false) {event : ProcessEvent} (ran : p.act event = .ok p') :
    Drains p p' ∧ p'.accepting = false := by
  have onWorld : ∀ {event : Event}, event.isServing = true → p.onWorld event = .ok p' →
      Drains p p' ∧ p'.accepting = false := fun loop ran =>
    ⟨coherent.drains_onWorld serving closed loop ran, (frame_onWorld ran).accepting.trans closed⟩
  cases event with
  | read fd env =>
      simp only [Process.act, if_pos serving] at ran
      exact ⟨coherent.drains_dispatchRead serving closed ran,
        (frame_dispatchRead ran).accepting.trans closed⟩
  | write fd env =>
      simp only [Process.act, if_pos serving] at ran
      exact ⟨coherent.drains_dispatchWrite serving closed ran,
        (frame_dispatchWrite ran).accepting.trans closed⟩
  | block | reap =>
      simp only [Process.act, if_pos serving] at ran
      exact onWorld rfl ran
  | worker | settle =>
      simp only [Process.act] at ran
      exact onWorld rfl ran
  | signal | logFile =>
      cases ran
      exact ⟨⟨rfl, rfl, le_rfl, le_rfl⟩, closed⟩
  | check =>
      simp only [Process.act, if_pos serving, Process.check, closed, Bool.false_eq_true,
        if_false] at ran
      split at ran
      · cases ran
        exact ⟨.refl p, closed⟩
      · cases ran
        rcases p.drained_cases with same | leaves
        · rw [same]
          exact ⟨.refl p, closed⟩
        · rw [leaves]
          exact ⟨⟨rfl, rfl, le_rfl, le_rfl⟩, closed⟩
  | selectFailed =>
      simp only [Process.act, if_pos serving] at ran
      cases ran
      exact ⟨⟨rfl, rfl, le_rfl, le_rfl⟩, closed⟩
  | stopBegin | stopJoined =>
      simp only [Process.act, if_pos serving] at ran
      cases ran
      exact ⟨.refl p, closed⟩
  | destroy =>
      simp only [Process.act, serving, ne_eq, not_true_eq_false, false_and, if_false] at ran
      cases ran
      exact ⟨.refl p, closed⟩
  | finish =>
      simp only [Process.act, serving] at ran
      cases ran
      exact ⟨.refl p, closed⟩

/-! ## Runs -/

theorem Leaves.run {ret : Nat} (leaves : Leaves deps ret p) (ran : p.run happens = .ok p') :
    p'.phase ≠ .serving := by
  induction happens generalizing p with
  | nil =>
      cases ran
      rcases leaves.phase with leaving | returned
      · rw [leaving]
        exact nofun
      · rw [returned]
        exact nofun
  | cons event rest ih =>
      unfold Process.run at ran
      split at ran
      · cases ran
      · next p₁ stepped =>
          by_cases ended : p.phase.isOver = true
          · rw [Process.step, if_pos ended] at stepped
            cases stepped
            exact ih leaves ran
          · rcases leaves.step event ended with ⟨p₂, stepped', leaves', -⟩
            rw [stepped] at stepped'
            cases stepped'
            exact ih leaves' ran

theorem Stands.leaves (stands : p.Stands deps events) (left : p.phase ≠ .serving) :
    ∃ ret, Leaves deps ret p := by
  cases phase : p.phase with
  | serving => exact absurd phase left
  | leaving ret => exact ⟨ret, ⟨events, stands⟩, .inl phase⟩
  | returned ret => exact ⟨ret, ⟨events, stands⟩, .inr phase⟩

theorem Stands.drains (stands : p.Stands deps events) (serving : p.phase = .serving)
    (closed : p.accepting = false) (ran : p.run happens = .ok p') (still : p'.phase = .serving) :
    Drains p p' ∧ p'.accepting = false := by
  induction happens generalizing p events with
  | nil =>
      cases ran
      exact ⟨.refl _, closed⟩
  | cons event rest ih =>
      rcases stands.step event with ⟨p₁, more, stepped, stands₁⟩
      simp only [Process.run, stepped] at ran
      have ongoing : p.phase.isOver = false := by rw [serving]; rfl
      have acted := stepped
      simp only [Process.step, ongoing, Bool.false_eq_true, if_false] at acted
      rcases (stands.coherent ongoing).drains serving closed acted with ⟨drains, closed₁⟩
      by_cases serving₁ : p₁.phase = .serving
      · rcases ih stands₁ serving₁ closed₁ ran with ⟨drains', closed'⟩
        exact ⟨drains.trans drains', closed'⟩
      · rcases stands₁.leaves serving₁ with ⟨ret, leaves⟩
        exact absurd still (leaves.run ran)

/-- Once `main()` has stopped accepting no connection of either kind is admitted, the listeners stay
closed, and both counts can only fall, as long as it is in its loop. -/
theorem nobody_is_admitted_while_draining {args : Socks5Args} {log : AccessLog} {now : Int}
    {calendar : CalendarTime} {answers : StartAnswers} {later : List ProcessEvent}
    (ran : main args log now calendar answers happens = .ok p) (closed : p.accepting = false)
    (ran' : p.run later = .ok p') (still : p'.phase = .serving) :
    (p'.accepting = false ∧ p'.passive = none ∧ p'.mngPassive = none) ∧
      p'.world.nextId = p.world.nextId ∧ p'.nextMgmt = p.nextMgmt ∧
      p'.socks5ActiveConnections ≤ p.socks5ActiveConnections ∧
      p'.activeMgmtConnections ≤ p.activeMgmtConnections := by
  rcases stands_of_main ran with ⟨events, stands⟩
  have serving : p.phase = .serving := by
    by_contra left
    rcases stands.leaves left with ⟨ret, leaves⟩
    exact leaves.run ran' still
  rcases stands.drains serving closed ran' still with ⟨drains, closed'⟩
  rcases stands.run later with ⟨p₂, more, ran₂, stands'⟩
  rw [ran'] at ran₂
  cases ran₂
  rcases (stands'.coherent (by rw [still]; rfl)).inLoop still with ⟨around, -, -, inLoop⟩
  have open_ := inLoop.accepting
  rw [closed'] at open_
  exact ⟨⟨closed', Option.isSome_eq_false_iff.mp open_.1 |> Option.isNone_iff_eq_none.mp,
    Option.isSome_eq_false_iff.mp open_.2 |> Option.isNone_iff_eq_none.mp⟩,
    drains.nextId, drains.nextMgmt, drains.socks5, drains.mgmt⟩

/-- A second client of each kind finds nobody to accept it. -/
theorem nobody_is_admitted_after_signal :
    ∃ p p', main defaultArgs sampleLog 0 sampleTime listening
        [.read 3 { quiet with accepts := [⟨.ok 5, true, true, true⟩] }, .signal, .check] = .ok p ∧
      p.run [.read 3 { quiet with accepts := [⟨.ok 6, true, true, true⟩] },
        .read 4 { quiet with accepts := [⟨.ok 7, true, true, true⟩] }] = .ok p' ∧
      p'.world.nextId = p.world.nextId ∧ p'.nextMgmt = p.nextMgmt := by
  have drains : endsWith
      [.read 3 { quiet with accepts := [⟨.ok 5, true, true, true⟩] }, .signal, .check]
      (fun p => p.accepting = false ∧
        p.leadsTo [.read 3 { quiet with accepts := [⟨.ok 6, true, true, true⟩] },
          .read 4 { quiet with accepts := [⟨.ok 7, true, true, true⟩] }]
          (fun p' => p'.phase = .serving) = true) = true := by decide +kernel
  rcases main_of_endsWith drains with ⟨p, ran, holds⟩
  rcases of_decide_eq_true holds with ⟨closed, leads⟩
  rcases run_of_leadsTo leads with ⟨p', ran', still⟩
  rcases nobody_is_admitted_while_draining ran closed ran' (of_decide_eq_true still) with
    ⟨-, nextId, nextMgmt, -⟩
  exact ⟨p, p', ran, ran', nextId, nextMgmt⟩

/-! ## The end of the loop -/

theorem Coherent.activeMgmt_eq_zero (coherent : p.Coherent deps events) :
    p.activeMgmtConnections = 0 ↔ ∀ fd, p.mgmt fd = none := by
  rcases coherent with ⟨⟨view, inv⟩, ⟨around, within, -, layout, -⟩, -, -⟩
  rw [layout.active, Finset.card_eq_zero, Finset.eq_empty_iff_forall_notMem]
  refine ⟨fun none fd => ?_, fun none fd member => ?_⟩
  · by_contra held
    rcases Option.ne_none_iff_exists'.mp held with ⟨slot, found⟩
    rcases layout.held fd slot found with ⟨interest, item⟩
    have registered := (layout.items_eq within.hold found).trans item
    have small : fd < FD_SETSIZE := inv.sound.table.range fd (by simp [registered])
    exact none fd (mem_mgmtFds.mpr ⟨small, by simp [found]⟩)
  · rw [mem_mgmtFds, none fd] at member
    cases member.2

/-- Whom `main()` serves does not change when it stops accepting. -/
structure SameClients (p p' : Process) : Prop where
  heap : p'.world.heap = p.world.heap
  mgmt : p'.mgmt = p.mgmt
  terminate : p'.terminate = p.terminate

theorem sameClients_stopAccepting (ran : p.stopAccepting = .ok p') :
    SameClients p p' ∧ p'.accepting = false := by
  have closing : ∀ {p p' : Process} {fd : Fd}, p.closeFd fd = .ok p' → SameClients p p' := by
    intro p p' fd ran
    unfold closeFd at ran
    split at ran
    · cases ran
      exact ⟨rfl, rfl, rfl⟩
    · cases ran
  have first : ∀ {p₁}, p.closePassive = .ok p₁ → SameClients p p₁ := by
    intro p₁ ran
    unfold closePassive at ran
    split at ran
    · cases ran
      exact ⟨rfl, rfl, rfl⟩
    · split at ran
      · cases ran
      · next closed =>
          cases ran
          have served := closing closed
          exact ⟨served.heap, served.mgmt, served.terminate⟩
  have second : ∀ {p₁ p₂ : Process}, p₁.closeMngPassive = .ok p₂ → SameClients p₁ p₂ := by
    intro p₁ p₂ ran
    unfold closeMngPassive at ran
    split at ran
    · cases ran
      exact ⟨rfl, rfl, rfl⟩
    · split at ran
      · cases ran
      · next closed =>
          cases ran
          have served := closing closed
          exact ⟨served.heap, served.mgmt, served.terminate⟩
  unfold Process.stopAccepting at ran
  split at ran
  · cases ran
  · next p₁ closed₁ =>
      split at ran
      · cases ran
      · next p₂ closed₂ =>
          cases ran
          have served₁ := first closed₁
          have served₂ := second closed₂
          exact ⟨⟨served₂.heap.trans served₁.heap, served₂.mgmt.trans served₁.mgmt,
            served₂.terminate.trans served₁.terminate⟩, rfl⟩

theorem Coherent.check_cases (coherent : p.Coherent deps events) (serving : p.phase = .serving)
    (asked : p.terminate ≠ 0) :
    ∃ p₁, p.check = .ok p₁.drained ∧ p₁.Coherent deps events ∧ p₁.phase = .serving ∧
      SameClients p p₁ ∧ p₁.accepting = false := by
  unfold Process.check
  rw [if_neg asked]
  split
  · next accepting =>
      rcases coherent.stopAccepting serving accepting with ⟨p₁, stopped, coherent₁, phase⟩
      rcases sameClients_stopAccepting stopped with ⟨same, closed⟩
      exact ⟨p₁, by rw [stopped], coherent₁, phase.trans serving, same, closed⟩
  · next closed =>
      exact ⟨p, rfl, coherent, serving, ⟨rfl, rfl, rfl⟩, Bool.eq_false_iff.mpr closed⟩

theorem Coherent.drained_iff (coherent : p.Coherent deps events) (serving : p.phase = .serving)
    (asked : p.terminate ≠ 0) :
    (p.drained = p ∨ p.drained = { p with phase := .leaving 0 }) ∧
      (p.drained.phase = .leaving 0 ↔ 1 < p.terminate ∨ p.terminate = 1 ∧
        (∀ k c, p.world.heap k ≠ some (.live c)) ∧ ∀ fd, p.mgmt fd = none) := by
  rcases coherent.inLoop serving with ⟨around, -, -, inLoop⟩
  refine ⟨p.drained_cases, ?_⟩
  rw [← inLoop.reachable.active_eq_zero, ← coherent.activeMgmt_eq_zero]
  change _ ↔ _ ∨ _ ∧ p.socks5ActiveConnections = 0 ∧ _
  unfold Process.drained
  split
  · next twice => simp [twice]
  · next once =>
      have one : p.terminate = 1 := by omega
      split
      · next gone => simp [one, gone]
      · next stay => simp [one, serving, stay]

/-- What `main()` does once it was signalled. It closes its listeners, keeps everyone who is
connected, and leaves its loop exactly if nobody is, or if a second signal has come. -/
theorem loop_ends_when_drained {args : Socks5Args} {log : AccessLog} {now : Int}
    {calendar : CalendarTime} {answers : StartAnswers}
    (ran : main args log now calendar answers happens = .ok p) (serving : p.phase = .serving)
    (asked : 0 < p.terminate) :
    ∃ p', p.step .check = .ok p' ∧
      p'.world.heap = p.world.heap ∧ p'.mgmt = p.mgmt ∧ p'.accepting = false ∧
      (∀ fd, p'.world.sh.kern.foreign fd = true ↔ (p'.mgmt fd).isSome = true) ∧
      (p'.phase = .serving ∨ p'.phase = .leaving 0) ∧
      (p'.phase = .leaving 0 ↔ 1 < p.terminate ∨ p.terminate = 1 ∧
        (∀ k c, p.world.heap k ≠ some (.live c)) ∧ ∀ fd, p.mgmt fd = none) := by
  rcases stands_of_main ran with ⟨events, stands⟩
  have ongoing : p.phase.isOver = false := by rw [serving]; rfl
  have signalled : p.terminate ≠ 0 := Nat.pos_iff_ne_zero.mp asked
  rcases (stands.coherent ongoing).check_cases serving signalled with
    ⟨p₁, checked, coherent₁, serving₁, same, closed⟩
  rcases coherent₁.drained_iff serving₁ (by rwa [same.terminate]) with ⟨either, leaves⟩
  rcases coherent₁.inLoop serving₁ with ⟨around, within, layout, inLoop⟩
  have open_ := inLoop.accepting
  rw [closed, Option.isSome_eq_false_iff, Option.isNone_iff_eq_none, Option.isSome_eq_false_iff,
    Option.isNone_iff_eq_none] at open_
  have foreign : ∀ fd, p₁.world.sh.kern.foreign fd = true ↔ (p₁.mgmt fd).isSome = true := by
    intro fd
    rw [within.hold.foreign, layout.foreign, open_.1, open_.2]
    simp
  rw [same.heap, same.mgmt, same.terminate] at leaves
  rcases p₁.drained_frame with ⟨world, mgmt, accepting⟩
  refine ⟨p₁.drained, ?_, ?_, mgmt.trans same.mgmt, accepting.trans closed, ?_, ?_, leaves⟩
  · simp only [Process.step, ongoing, Bool.false_eq_true, if_false, Process.act, if_pos serving]
    exact checked
  · rw [world]
    exact same.heap
  · rw [world, mgmt]
    exact foreign
  · rcases either with same | gone
    · exact .inl (by rw [same, serving₁])
    · exact .inr (by rw [gone])

/-- An administrator is connected when the signal comes: the loop goes on without its listeners. -/
theorem loop_goes_on_for_administrator :
    ∃ p p', main defaultArgs sampleLog 0 sampleTime listening
        [.read 4 { quiet with accepts := [⟨.ok 5, true, true, true⟩] }, .signal] = .ok p ∧
      p.step .check = .ok p' ∧ p'.accepting = false ∧ p'.phase = .serving := by
  have signalled : endsWith
      [.read 4 { quiet with accepts := [⟨.ok 5, true, true, true⟩] }, .signal]
      (fun p => p.phase = .serving ∧ p.terminate = 1 ∧ (p.mgmt 5).isSome = true) = true := by
    decide +kernel
  rcases main_of_endsWith signalled with ⟨p, ran, holds⟩
  rcases of_decide_eq_true holds with ⟨serving, once, connected⟩
  rcases loop_ends_when_drained ran serving (by omega) with
    ⟨p', checked, -, -, closed, -, either, leaves⟩
  refine ⟨p, p', ran, checked, closed, either.resolve_right fun left => ?_⟩
  rcases leaves.mp left with twice | ⟨-, -, none⟩
  · omega
  · rw [none 5] at connected
    cases connected

end

end Process

end SocksProxy
