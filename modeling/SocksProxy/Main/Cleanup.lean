import SocksProxy.Library.Fairness
import SocksProxy.Main.Startup

/-!
# The cleanup comes to an end

Once `main()` has left its loop, `server_cleanup()` stops the resolver pool,
joins its threads, destroys the selector and closes the listeners. Between these
steps it waits only for the threads, and a thread waits for nothing that the
main thread keeps: neither mutex is held from one event to the next, and what is
left in the queue is taken without a lookup. So `main()` returns, as long as no
thread is left out for good and every lookup that is under way ends.
-/

namespace SocksProxy

open Fairness

/-- What has to be taken up for `main()` to return: the steps of `server_cleanup()`, and the
sections of the resolver threads. -/
inductive Task where
  | stopBegin
  | stopJoined
  | destroy
  | finish
  | thread (turn : Fin RESOLVER_WORKERS × Section)
  deriving DecidableEq

def ProcessEvent.task : ProcessEvent → Option Task
  | .stopBegin => some .stopBegin
  | .stopJoined => some .stopJoined
  | .destroy _ => some .destroy
  | .finish => some .finish
  | .worker step => some (.thread step.turn)
  | _ => none

namespace World

/-- A bound on what has to be taken up before the selector is destroyed. -/
def toGo (w : World) : ℕ :=
  match w.mode with
  | .running => 3 + (2 * RESOLVER_WORKERS + 2 * RESOLVER_MAX_JOBS)
  | .joining => 2 + w.sh.pool.toGo
  | .stopped => 1
  | .destroyed => 0

/-- What brings the cleanup forward. -/
def due (w : World) : Task :=
  match w.mode with
  | .running => .stopBegin
  | .joining => (w.sh.pool.remaining.map Task.thread).getD .stopJoined
  | .stopped => .destroy
  | .destroyed => .finish

end World

namespace Process

open World

/-- A bound on what has to be taken up before `main()` returns. -/
def toGo (p : Process) : ℕ := if p.phase.isOver then 0 else p.world.toGo + 1

def due (p : Process) : Task := p.world.due

section

variable {deps : MgmtDeps} {events : List ServiceEvent} {p p' : Process} {world : World} {ret : Nat}

theorem Coherent.unlocked (coherent : p.Coherent deps events) :
    p.world.sh.sel.resolutionLocked = false := by
  rcases coherent.placed with ⟨around, within, -, layout, -⟩
  exact within.hold.locked.trans layout.unlocked

theorem Coherent.stopping (coherent : p.Coherent deps events) (joining : p.world.mode = .joining) :
    p.world.sh.pool.stopping = true := by
  rcases coherent.placed with ⟨around, -, -, -, -, winds⟩
  exact winds.1 joining

theorem Coherent.poolOk (coherent : p.Coherent deps events) : Pool.Ok p.world.sh.pool := by
  rcases coherent.ok with ⟨view, inv⟩
  exact inv.sound.slots.ok

/-! ## One event -/

theorem advances_of_same {label : Option Task} (phase : p'.phase = p.phase)
    (mode : p'.world.mode = p.world.mode) (pool : p'.world.sh.pool = p.world.sh.pool)
    (other : label ≠ some p.due) : Advances toGo due p label p' := by
  refine .inr ⟨?_, ?_, other⟩
  · simp only [Process.toGo, World.toGo, phase, mode, pool]
  · simp only [Process.due, World.due, mode, pool]

theorem advances_of_lt {label : Option Task} (ongoing : p.phase.isOver = false)
    (nearer : world.toGo < p.world.toGo) : Advances toGo due p label { p with world } := by
  left
  simpa [Process.toGo, ongoing] using nearer

theorem Coherent.advances_worker (coherent : p.Coherent deps events)
    (ongoing : p.phase.isOver = false) {step : WorkerStep}
    (stepped : p.world.step (.worker step) = .ok world) :
    Advances toGo due p (ProcessEvent.worker step).task { p with world } := by
  have mode : world.mode = p.world.mode := mode_step rfl stepped
  cases now : p.world.mode with
  | running | stopped | destroyed =>
      rw [now] at mode
      refine .inr ⟨?_, ?_, ?_⟩
      · simp only [Process.toGo, World.toGo, mode, now]
      · simp only [Process.due, World.due, mode, now]
      · simp [ProcessEvent.task, Process.due, World.due, now]
  | joining =>
      rw [now] at mode
      -- A thread's step is the next of its own way out, or it finds nothing to do.
      have moved : world.sh.pool.toGo < p.world.sh.pool.toGo ∨
          world.sh.pool = p.world.sh.pool ∧
            (p.world.sh.pool.workers step.turn.1).due ≠ some step.turn.2 := by
        simp only [World.step] at stepped
        split at stepped
        · cases stepped
        · next worked =>
            cases stepped
            exact (wlp_workerStep coherent.poolOk (coherent.stopping now) step _ _ worked).2
              coherent.unlocked
      rcases moved with nearer | ⟨same, early⟩
      · refine advances_of_lt ongoing ?_
        simpa [World.toGo, mode, now] using nearer
      · refine advances_of_same rfl (mode.trans now.symm) same ?_
        cases remains : p.world.sh.pool.remaining with
        | none => simp [ProcessEvent.task, Process.due, World.due, now, remains]
        | some turn =>
            intro taken
            simp only [ProcessEvent.task, Process.due, World.due, now, remains, Option.map_some,
              Option.getD_some, Option.some.injEq, Task.thread.injEq] at taken
            subst taken
            exact early (Pool.due_of_remaining remains)

theorem Coherent.advances_stopBegin (coherent : p.Coherent deps events)
    (ongoing : p.phase.isOver = false) (stepped : p.world.step .stopBegin = .ok world) :
    Advances toGo due p (some .stopBegin) { p with world } := by
  simp only [World.step] at stepped
  split at stepped
  · next running =>
      have stops := Prog.wlp_of_wp (Pool.wp_socks5ResolverPoolStopBegin coherent.poolOk)
      split at stepped
      · cases stepped
      · next begun pool ran =>
          cases stepped
          have bound := (stops begun pool ran).1.toGo_le
          refine advances_of_lt ongoing ?_
          cases begun with
          | true =>
              simp only [World.toGo, running, if_true]
              omega
          | false =>
              simp only [World.toGo, running, Bool.false_eq_true, if_false]
              omega
  · next elsewhere =>
      cases stepped
      refine advances_of_same rfl rfl rfl ?_
      cases now : p.world.mode with
      | running => exact absurd now elsewhere
      | joining =>
          cases remains : p.world.sh.pool.remaining <;>
            simp [Process.due, World.due, now, remains]
      | stopped | destroyed => simp [Process.due, World.due, now]

theorem Coherent.advances_stopJoined (ongoing : p.phase.isOver = false)
    (stepped : p.world.step .stopJoined = .ok world) :
    Advances toGo due p (some .stopJoined) { p with world } := by
  simp only [World.step] at stepped
  split at stepped
  · next joined =>
      split at stepped
      · cases stepped
      · have stopped : world.mode = .stopped := mode_of_serves (serves_freeUnreferenced stepped)
        refine advances_of_lt ongoing ?_
        simp only [World.toGo, stopped, joined.1]
        omega
  · next waits =>
      cases stepped
      refine advances_of_same rfl rfl rfl ?_
      cases now : p.world.mode with
      | joining =>
          cases remains : p.world.sh.pool.remaining with
          | none =>
              have exited := Pool.remaining_eq_none.mp remains
              exact absurd ⟨now, by simp [allExited, exited]⟩ waits
          | some turn => simp [Process.due, World.due, now, remains]
      | running | stopped | destroyed => simp [Process.due, World.due, now]

theorem Coherent.advances_destroy (coherent : p.Coherent deps events)
    (left : p.phase ≠ .serving) (ongoing : p.phase.isOver = false) {envs : List Answers}
    (stopped : p.world.mode = .stopped) (ran : p.selectorDestroy envs = .ok p') :
    p'.phase = p.phase ∧ Advances toGo due p (some .destroy) p' := by
  rcases coherent.selectorDestroy left stopped envs with ⟨p'', again, -, phase⟩
  rw [ran] at again
  cases again
  have destroyed : p'.world.mode = .destroyed := by
    unfold Process.selectorDestroy at ran
    split at ran
    · cases ran
    · cases ran
      rfl
  refine ⟨phase, .inl ?_⟩
  simp [Process.toGo, World.toGo, phase, ongoing, stopped, destroyed]

theorem onWorld_ok {event : Event} (ran : p.onWorld event = .ok p') :
    ∃ world, p.world.step event = .ok world ∧ p' = { p with world } := by
  unfold Process.onWorld at ran
  split at ran
  · cases ran
  · next world stepped =>
      cases ran
      exact ⟨world, stepped, rfl⟩

/-- Whatever happens after the loop brings `main()` nearer to its end, or it is not due. -/
theorem Coherent.advances (coherent : p.Coherent deps events) (leaving : p.phase = .leaving ret)
    {event : ProcessEvent} (ran : p.act event = .ok p') :
    (p'.phase = .leaving ret ∨ p'.phase = .returned ret) ∧
      Advances toGo due p event.task p' := by
  have ongoing : p.phase.isOver = false := by rw [leaving]; rfl
  have left : p.phase ≠ .serving := by rw [leaving]; exact Phase.noConfusion
  cases event with
  | read | write | block | reap | check =>
      simp only [Process.act, if_neg left] at ran
      cases ran
      exact ⟨.inl leaving, advances_of_same rfl rfl rfl (by rintro ⟨⟩)⟩
  | signal | logFile =>
      cases ran
      exact ⟨.inl leaving, advances_of_same rfl rfl rfl (by rintro ⟨⟩)⟩
  | selectFailed =>
      simp only [Process.act, if_neg left] at ran
      cases ran
      exact ⟨.inl leaving, advances_of_same rfl rfl rfl (by rintro ⟨⟩)⟩
  | worker step =>
      rcases onWorld_ok ran with ⟨world, stepped, rfl⟩
      exact ⟨.inl leaving, coherent.advances_worker ongoing stepped⟩
  | settle fd error =>
      simp only [Process.act] at ran
      rcases onWorld_ok ran with ⟨world, stepped, rfl⟩
      cases stepped
      exact ⟨.inl leaving, advances_of_same rfl rfl rfl (by rintro ⟨⟩)⟩
  | stopBegin =>
      simp only [Process.act, if_neg left] at ran
      rcases onWorld_ok ran with ⟨world, stepped, rfl⟩
      exact ⟨.inl leaving, coherent.advances_stopBegin ongoing stepped⟩
  | stopJoined =>
      simp only [Process.act, if_neg left] at ran
      rcases onWorld_ok ran with ⟨world, stepped, rfl⟩
      exact ⟨.inl leaving, advances_stopJoined ongoing stepped⟩
  | destroy envs =>
      simp only [Process.act] at ran
      split at ran
      · next now =>
          rcases coherent.advances_destroy left ongoing now.2 ran with ⟨phase, advances⟩
          exact ⟨.inl (phase.trans leaving), advances⟩
      · next early =>
          cases ran
          refine ⟨.inl leaving, advances_of_same rfl rfl rfl ?_⟩
          cases now : p.world.mode with
          | stopped => exact absurd ⟨left, now⟩ early
          | joining =>
              cases remains : p.world.sh.pool.remaining <;>
                simp [ProcessEvent.task, Process.due, World.due, now, remains]
          | running | destroyed => simp [ProcessEvent.task, Process.due, World.due, now]
  | finish =>
      simp only [Process.act, leaving] at ran
      split at ran
      · next ended =>
          rcases coherent.closeListeners ended ret with ⟨p'', again, -, phase, -⟩
          rw [ran] at again
          cases again
          refine ⟨.inr phase, .inl ?_⟩
          simp [Process.toGo, phase, leaving, Phase.isOver]
      · next early =>
          cases ran
          refine ⟨.inl leaving, advances_of_same rfl rfl rfl ?_⟩
          cases now : p.world.mode with
          | destroyed => exact absurd now early
          | joining =>
              cases remains : p.world.sh.pool.remaining <;>
                simp [ProcessEvent.task, Process.due, World.due, now, remains]
          | running | stopped => simp [ProcessEvent.task, Process.due, World.due, now]

/-! ## Fair schedules -/

theorem run_append (p : Process) (first second : List ProcessEvent) :
    p.run (first ++ second) =
      match p.run first with
      | .error fault => .error fault
      | .ok p' => p'.run second := by
  induction first generalizing p with
  | nil => rfl
  | cons event rest ih =>
      simp only [List.cons_append, Process.run]
      cases p.step event with
      | error fault => rfl
      | ok p₁ => exact ih p₁

theorem run_of_path {schedule : ℕ → ProcessEvent} {n m : ℕ}
    (path : Path (fun p event p' => p.step event = .ok p') schedule n p m p') :
    ∃ k, p.run ((List.range' n k).map schedule) = .ok p' := by
  induction path with
  | here n p => exact ⟨0, rfl⟩
  | next first _ ih =>
      rcases ih with ⟨k, ran⟩
      refine ⟨k + 1, ?_⟩
      rw [List.range'_succ, List.map_cons, Process.run, first]
      exact ran

/-- On its way out, or out. -/
structure Leaves (deps : MgmtDeps) (ret : Nat) (p : Process) : Prop where
  stands : ∃ events, p.Stands deps events
  phase : p.phase = .leaving ret ∨ p.phase = .returned ret

theorem Leaves.step (leaves : Leaves deps ret p) (event : ProcessEvent)
    (ongoing : ¬p.phase.isOver = true) :
    ∃ p', p.step event = .ok p' ∧ Leaves deps ret p' ∧ Advances toGo due p event.task p' := by
  rcases leaves with ⟨⟨events, stands⟩, leaving | returned⟩
  · rcases stands.step event with ⟨p', more, ran, stands'⟩
    have coherent := stands.coherent (Bool.eq_false_iff.mpr ongoing)
    have acted := ran
    rw [Process.step, if_neg ongoing] at acted
    rcases coherent.advances leaving acted with ⟨phase, advances⟩
    exact ⟨p', ran, ⟨⟨events ++ more, stands'⟩, phase⟩, advances⟩
  · rw [returned] at ongoing
    exact absurd rfl ongoing

/-- Once it has left its loop `main()` returns, under every fair schedule, with the code it left the
loop with; and then nothing is open any more. -/
theorem cleanup_completes {args : Socks5Args} {log : AccessLog} {now : Int}
    {calendar : CalendarTime} {answers : StartAnswers} {happens : List ProcessEvent}
    {schedule : ℕ → ProcessEvent} (ran : main args log now calendar answers happens = .ok p)
    (leaving : p.phase = .leaving ret) (fair : Fair ProcessEvent.task schedule) :
    ∃ n p', main args log now calendar answers (happens ++ (List.range n).map schedule) = .ok p' ∧
      p'.phase = .returned ret ∧ p'.Closed := by
  rcases stands_of_main ran with ⟨events, stands⟩
  have leaves : Leaves (mgmtDepsInit args log) ret p := ⟨⟨events, stands⟩, .inl leaving⟩
  have advance : ∀ (p : Process) event, Leaves (mgmtDepsInit args log) ret p →
      ¬p.phase.isOver = true → ∃ p', p.step event = .ok p' ∧
        Leaves (mgmtDepsInit args log) ret p' ∧ Advances toGo due p event.task p' :=
    fun p event leaves => leaves.step event
  rcases eventually advance fair 0 leaves with ⟨m, p', path, ⟨⟨events', stands'⟩, phase⟩, ended⟩
  rcases run_of_path path with ⟨n, ran'⟩
  refine ⟨n, p', ?_, phase.resolve_left fun leaving' => ?_, stands'.closed ended⟩
  · rw [List.range_eq_range']
    unfold main at ran ⊢
    split at ran
    · cases ran
    · simp only [run_append, ran, ran']
  · rw [leaving'] at ended
    cases ended

/-- Every task once. -/
def everyTask : List ProcessEvent :=
  [.stopBegin, .stopJoined, .destroy [], .finish] ++
    (List.finRange RESOLVER_WORKERS).flatMap fun w =>
      [.worker (.pop w), .worker (.finish w ⟨0, []⟩), .worker (.notify w true)]

theorem everyTask_complete (t : Task) :
    ∃ i, i < 16 ∧ (everyTask.getD i .signal).task = some t := by
  cases t with
  | stopBegin | stopJoined | destroy | finish => decide
  | thread turn =>
      rcases turn with ⟨w, what⟩
      cases what <;> (revert w; decide)

/-- A client of each kind is there when the second signal comes, and the threads take turns. -/
theorem cleanup_completes_after_second_signal :
    ∃ n p', main defaultArgs sampleLog 0 sampleTime listening
        ([.read 3 { quiet with accepts := [⟨.ok 5, true, true, true⟩] },
          .read 4 { quiet with accepts := [⟨.ok 6, true, true, true⟩] },
          .signal, .signal, .check] ++
          (List.range n).map fun n => everyTask.getD (n % 16) .signal) = .ok p' ∧
      p'.phase = .returned 0 ∧ p'.Closed := by
  have left : endsWith
      [.read 3 { quiet with accepts := [⟨.ok 5, true, true, true⟩] },
        .read 4 { quiet with accepts := [⟨.ok 6, true, true, true⟩] }, .signal, .signal, .check]
      (fun p => p.phase = .leaving 0) = true := by decide +kernel
  rcases main_of_endsWith left with ⟨p, ran, leaving⟩
  exact cleanup_completes ran (of_decide_eq_true leaving) (fair_mod everyTask_complete)

/-- Whichever way `main()` has come to return, nothing is left open, registered or connected. -/
theorem nothing_is_left_on_return {args : Socks5Args} {log : AccessLog} {now : Int}
    {calendar : CalendarTime} {answers : StartAnswers} {happens : List ProcessEvent}
    (ran : main args log now calendar answers happens = .ok p)
    (returned : p.phase = .returned ret) : p.Closed := by
  rcases stands_of_main ran with ⟨events, stands⟩
  exact stands.closed (by rw [returned]; rfl)

/-- A selector that fails while a client of each kind is connected. -/
theorem nothing_is_left_after_failure :
    ∃ p, main defaultArgs sampleLog 0 sampleTime listening
        ([.read 3 { quiet with accepts := [⟨.ok 5, true, true, true⟩] },
          .read 4 { quiet with accepts := [⟨.ok 6, true, true, true⟩] }, .selectFailed,
          .stopBegin] ++ (List.finRange RESOLVER_WORKERS).map (fun w => .worker (.pop w)) ++
          [.stopJoined, .destroy [], .finish]) = .ok p ∧
      p.phase = .returned 1 ∧ p.Closed := by
  have ended : endsWith
      ([.read 3 { quiet with accepts := [⟨.ok 5, true, true, true⟩] },
        .read 4 { quiet with accepts := [⟨.ok 6, true, true, true⟩] }, .selectFailed,
        .stopBegin] ++ (List.finRange RESOLVER_WORKERS).map (fun w => .worker (.pop w)) ++
        [.stopJoined, .destroy [], .finish])
      (fun p => p.phase = .returned 1) = true := by decide +kernel
  rcases main_of_endsWith ended with ⟨p, ran, returned⟩
  have ended := of_decide_eq_true returned
  exact ⟨p, ran, ended, nothing_is_left_on_return ran ended⟩

end

end Process

end SocksProxy
