import SocksProxy.Guarantees.Connections
import SocksProxy.Main.Shutdown

/-!
# Runs of the process

What holds until `main()` returns, and what is left of it then, along every run.
-/

namespace SocksProxy

open Prog

namespace Process

open World

/-! ## What dispatching leaves alone -/

/-- What only `main()` itself changes. -/
structure Frame (p p' : Process) : Prop where
  passive : p'.passive = p.passive
  mngPassive : p'.mngPassive = p.mngPassive
  accepting : p'.accepting = p.accepting
  terminate : p'.terminate = p.terminate
  phase : p'.phase = p.phase

section

variable {p p' : Process} {fd : Fd}

theorem Frame.refl (p : Process) : Frame p p := ⟨rfl, rfl, rfl, rfl, rfl⟩

theorem frame_closeFd (ran : p.closeFd fd = .ok p') : Frame p p' := by
  unfold closeFd at ran
  split at ran
  · cases ran
    exact ⟨rfl, rfl, rfl, rfl, rfl⟩
  · cases ran

theorem frame_unregisterMgmt (ran : p.unregisterMgmt fd = .ok p') : Frame p p' := by
  unfold Process.unregisterMgmt mgmtClose at ran
  cases closed : p.closeFd fd with
  | error fault =>
      rw [closed] at ran
      cases ran
  | ok p₁ =>
      rw [closed] at ran
      cases ran
      have frame := frame_closeFd closed
      exact ⟨frame.passive, frame.mngPassive, frame.accepting, frame.terminate, frame.phase⟩

theorem frame_onWorld {event : Event} (ran : p.onWorld event = .ok p') : Frame p p' := by
  unfold Process.onWorld at ran
  split at ran
  · cases ran
  · cases ran
    exact ⟨rfl, rfl, rfl, rfl, rfl⟩

theorem frame_onMgmt {slot : MgmtSlot} {handler : MgmtM Unit} {sends : List SendAnswer}
    (ran : p.onMgmt fd slot handler sends = .ok p') : Frame p p' := by
  unfold Process.onMgmt at ran
  split at ran
  · cases ran
  · dsimp only at ran
    split at ran
    · cases ran
      exact ⟨rfl, rfl, rfl, rfl, rfl⟩
    · have frame := frame_unregisterMgmt ran
      exact ⟨frame.passive, frame.mngPassive, frame.accepting, frame.terminate, frame.phase⟩

theorem frame_mgmtPassiveAccept {answer : AcceptAnswer}
    (ran : p.mgmtPassiveAccept answer = .ok p') : Frame p p' := by
  rcases @mgmtPassiveAccept_cases p answer with same | ⟨client, -, -, -, accepted⟩
  · rw [same] at ran
    cases ran
    exact .refl p
  · rw [accepted] at ran
    cases ran
    exact ⟨rfl, rfl, rfl, rfl, rfl⟩

theorem frame_dispatchRead {env : Answers} (ran : p.dispatchRead fd env = .ok p') :
    Frame p p' := by
  unfold Process.dispatchRead at ran
  split at ran
  · split at ran
    · split at ran
      · exact frame_onMgmt ran
      · split at ran
        · cases ran
          exact .refl p
        · exact frame_mgmtPassiveAccept ran
    · cases ran
      exact .refl p
  · exact frame_onWorld ran

theorem frame_dispatchWrite {env : Answers} (ran : p.dispatchWrite fd env = .ok p') :
    Frame p p' := by
  unfold Process.dispatchWrite at ran
  split at ran
  · split at ran
    · split at ran
      · exact frame_onMgmt ran
      · cases ran
    · cases ran
      exact .refl p
  · exact frame_onWorld ran

end

/-! ## Steps and runs -/

section

variable {deps : MgmtDeps} {events : List ServiceEvent} {p : Process}

/-- The invariant of the process, and what is left of it when it has returned. -/
structure Stands (deps : MgmtDeps) (events : List ServiceEvent) (p : Process) : Prop where
  coherent : p.phase.isOver = false → p.Coherent deps events
  closed : p.phase.isOver = true → p.Closed
  sessions : ∀ k cell, p.world.heap k = some cell → cell.conn.session.Reachable False
  users : p.world.sh.users = (service deps events).deps.users
  heard : ∀ id, linesOf id events <+: (Framing.cut LF (p.heard id)).1.map Line.classify
  informed : ∀ k cell, p.world.heap k = some cell → ∀ what ∈ cell.conn.hist,
    Informed deps events what

theorem Coherent.stands (coherent : p.Coherent deps events) (ongoing : p.phase.isOver = false) :
    p.Stands deps events := by
  rcases coherent.placed with ⟨around, within, current, -⟩
  refine ⟨fun _ => coherent, fun ended => ?_, fun k cell found => coherent.ok.session found,
    within.hold.users.trans current.symm, coherent.heard.lines, within.good⟩
  rw [ongoing] at ended
  cases ended

/-- An event before `main()` returns. -/
theorem Coherent.act (coherent : p.Coherent deps events) (ongoing : p.phase.isOver = false)
    (event : ProcessEvent) :
    ∃ p' more, p.act event = .ok p' ∧ p'.Stands deps (events ++ more) := by
  have same : p.Stands deps (events ++ []) := by simpa using coherent.stands ongoing
  have onWorld : ∀ event : Event, event.isOwn = true →
      (p.phase = .serving → event.isServing = true) →
      ∃ p' more, p.onWorld event = .ok p' ∧ p'.Stands deps (events ++ more) := by
    intro event own loop
    rcases coherent.onWorld event own loop with ⟨world, more, ran, -, coherent'⟩
    exact ⟨_, more, ran, coherent'.stands ongoing⟩
  cases event with
  | read fd env =>
      simp only [Process.act]
      split
      · next serving =>
          rcases coherent.dispatchRead serving fd env with ⟨p', more, ran, coherent'⟩
          refine ⟨p', more, ran, coherent'.stands ?_⟩
          rw [(frame_dispatchRead ran).phase, ongoing]
      · exact ⟨p, [], rfl, same⟩
  | write fd env =>
      simp only [Process.act]
      split
      · next serving =>
          rcases coherent.dispatchWrite serving fd env with ⟨p', more, ran, coherent'⟩
          refine ⟨p', more, ran, coherent'.stands ?_⟩
          rw [(frame_dispatchWrite ran).phase, ongoing]
      · exact ⟨p, [], rfl, same⟩
  | block envs =>
      simp only [Process.act]
      split
      · exact onWorld (.block envs) rfl fun _ => rfl
      · exact ⟨p, [], rfl, same⟩
  | reap now envs =>
      simp only [Process.act]
      split
      · exact onWorld (.reap now envs) rfl fun _ => rfl
      · exact ⟨p, [], rfl, same⟩
  | worker step => exact onWorld (.worker step) rfl fun _ => rfl
  | settle fd error => exact onWorld (.settle fd error) rfl fun _ => rfl
  | logFile opens =>
      rcases coherent.logFile opens with ⟨more, coherent'⟩
      exact ⟨_, more, rfl, coherent'.stands ongoing⟩
  | signal =>
      refine ⟨_, [], rfl, ?_⟩
      rw [List.append_nil]
      rcases coherent with ⟨ok, ⟨around, within, current, layout, inLoop, winds⟩, inStep, heard⟩
      refine Coherent.stands ⟨ok, ⟨around, within, current, ⟨layout.foreign, layout.passive,
        layout.mngPassive, layout.listener, layout.held, layout.active, layout.unlocked⟩,
        fun serving => ?_, winds⟩, fun serving => ?_, heard.still rfl rfl fun _ => rfl⟩ ongoing
      · have inLoop := inLoop serving
        exact ⟨inLoop.running, inLoop.reachable, inLoop.listener, inLoop.armed, inLoop.accepting⟩
      · have inStep := inStep serving
        exact ⟨inStep.deps, inStep.fresh, inStep.known, inStep.distinct, inStep.attentive⟩
  | check =>
      simp only [Process.act]
      split
      · next serving =>
          rcases coherent.check serving with ⟨p', ran, coherent', ongoing'⟩
          exact ⟨p', [], ran, by simpa using coherent'.stands ongoing'⟩
      · exact ⟨p, [], rfl, same⟩
  | selectFailed =>
      refine ⟨_, [], rfl, ?_⟩
      split
      · next serving => simpa using (coherent.leave serving 1).stands rfl
      · exact same
  | stopBegin =>
      simp only [Process.act]
      split
      · exact ⟨p, [], rfl, same⟩
      · next left => exact onWorld .stopBegin rfl fun serving => absurd serving left
  | stopJoined =>
      simp only [Process.act]
      split
      · exact ⟨p, [], rfl, same⟩
      · next left => exact onWorld .stopJoined rfl fun serving => absurd serving left
  | destroy envs =>
      simp only [Process.act]
      split
      · next now =>
          rcases coherent.selectorDestroy now.1 now.2 envs with ⟨p', ran, coherent', phase⟩
          refine ⟨p', [], ran, ?_⟩
          rw [List.append_nil]
          exact coherent'.stands (by rw [phase, ongoing])
      · exact ⟨p, [], rfl, same⟩
  | finish =>
      simp only [Process.act]
      split
      · next ret leaving =>
          split
          · next ended =>
              rcases coherent.closeListeners ended ret with
                ⟨p', ran, closed, phase, heap, users, heard⟩
              refine ⟨p', [], ran, fun ongoing' => ?_, fun _ => closed, ?_, ?_, ?_, ?_⟩
              · rw [phase] at ongoing'
                cases ongoing'
              · rw [heap]
                exact same.sessions
              · rw [users]
                exact same.users
              · rw [heard]
                exact same.heard
              · rw [heap]
                exact same.informed
          · exact ⟨p, [], rfl, same⟩
      · exact ⟨p, [], rfl, same⟩

/-- Every event keeps the invariant, and none of them faults. -/
theorem Stands.step (stands : p.Stands deps events) (event : ProcessEvent) :
    ∃ p' more, p.step event = .ok p' ∧ p'.Stands deps (events ++ more) := by
  unfold Process.step
  cases ended : p.phase.isOver with
  | true => exact ⟨p, [], rfl, by simpa using stands⟩
  | false => exact (stands.coherent ended).act ended event

theorem Stands.run (stands : p.Stands deps events) (happens : List ProcessEvent) :
    ∃ p' more, p.run happens = .ok p' ∧ p'.Stands deps (events ++ more) := by
  induction happens generalizing p events with
  | nil => exact ⟨p, [], rfl, by simpa using stands⟩
  | cons event rest ih =>
      rcases stands.step event with ⟨p₁, more₁, stepped, stands₁⟩
      rcases ih stands₁ with ⟨p₂, more₂, ran, stands₂⟩
      refine ⟨p₂, more₁ ++ more₂, ?_, ?_⟩
      · simp only [Process.run, stepped]
        exact ran
      · rwa [List.append_assoc] at stands₂

end

end Process

end SocksProxy
