import SocksProxy.Guarantees.Connections

/-!
# Lookups under any interleaving

The resolver pool as a machine of its own: every critical section of the main
thread and of the resolver threads is one step, and the steps interleave freely.
Whatever the interleaving, the two lists and their counters stay consistent, a
result reaches only the connection that still waits for it, and every job is
freed exactly once. For the process as a whole, a notification that arrives late
does not move a connection on before its own lookup has completed.
-/

namespace SocksProxy

open Prog

/-- The references to a connection that do not belong to its job. -/
def Slot.others (s : Slot) : Int :=
  s.references - if s.resolverJob.isSome then 1 else 0

namespace Pool

/-- What the main thread does in one critical section, or to a connection outside of them. -/
inductive MainStep where
  | start (created : Bool)
  | queueJob (c : ConnId) (clientFd : Option Fd) (host port : List UInt8) (created allocated : Bool)
  | cancelConn (c : ConnId)
  | takeCompleted (c : ConnId)
  | isCompleted (c : ConnId)
  | stopBegin
  | stopJoined
  | accept (c : ConnId)
  | register (c : ConnId)
  | unregister (c : ConnId)
  | release (c : ConnId)

namespace MainStep

/-- When the main thread may do it: it has a connection in its hands, it has joined the threads, or
a connection is freed because nothing refers to it. -/
def Enabled (p : Pool) : MainStep → Prop
  | .start _ | .stopBegin => True
  | .queueJob c _ _ _ _ _ | .cancelConn c | .takeCompleted c | .isCompleted c | .register c =>
      ∃ s, p.slots c = some s
  | .stopJoined => ∀ i, p.workers i = .exited
  | .accept c => p.slots c = none
  | .unregister c => ∃ s, p.slots c = some s ∧ 0 < s.others
  | .release c => ∃ s, p.slots c = some s ∧ s.references = 0

def program : MainStep → PoolM Unit
  | .start created => do let _ ← socks5ResolverPoolStart created
  | .queueJob c clientFd host port created allocated => do
      let _ ← socks5ResolverQueueJob c clientFd host port created allocated
  | .cancelConn c => socks5ResolverCancelConn c
  | .takeCompleted c => do let _ ← socks5ResolverTakeCompleted c
  | .isCompleted c => do let _ ← socks5ResolverIsCompleted c
  | .stopBegin => do let _ ← socks5ResolverPoolStopBegin
  | .stopJoined => do let _ ← socks5ResolverPoolStopJoined
  | .accept c =>
      modify fun p => { p with slots := Function.update p.slots c (some ⟨1, none, false, 0, []⟩) }
  | .register c => modifySlot c fun slot => { slot with references := slot.references + 1 }
  | .unregister c => modifySlot c fun slot => { slot with references := slot.references - 1 }
  | .release c => modify fun p => { p with slots := Function.update p.slots c none }

end MainStep

/-- One step of the main thread or of a resolver thread. -/
inductive Step : Pool → Pool → Prop where
  | main {p p' : Pool} (act : MainStep) (enabled : act.Enabled p)
      (ran : act.program p = .ok ((), p')) : Step p p'
  | worker {p p' : Pool} (step : WorkerStep) (notified : Option Fd)
      (ran : resolverWorkerStep step p = .ok (notified, p')) : Step p p'

/-- The states of the pool that some interleaving leads to. -/
def Reachable (p : Pool) : Prop := Relation.ReflTransGen Step Pool.initial p

/-- The invariant, and every connection is referred to at least by its job. -/
structure Sound (p : Pool) : Prop where
  ok : Ok p
  others : ∀ c s, p.slots c = some s → 0 ≤ s.others

section

variable {p q : Pool} {c : ConnId} {s : Slot}

theorem others_queuedSlot (jobless : s.resolverJob = none) (j : JobId) :
    (queuedSlot s j).others = s.others := by
  simp [Slot.others, queuedSlot, jobless]

theorem others_releasedSlot (s : Slot) : (releasedSlot s).others = s.others := by
  unfold releasedSlot
  split
  · rfl
  · next owns => simp [Slot.others, owns]

/-- A section on behalf of one connection that keeps its other references. -/
theorem Sound.of_kept (sound : p.Sound) (owner : p.slots c = some s) (ok : Ok q)
    (kept : OthersKept c p q) {s' : Slot} (after : q.slots c = some s')
    (same : s'.others = s.others) : q.Sound := by
  refine ⟨ok, fun other slot found => ?_⟩
  by_cases mine : other = c
  · subst mine
    obtain rfl : s' = slot := by simpa [after] using found
    exact same ▸ sound.others other s owner
  · rw [kept other mine] at found
    exact sound.others other slot found

theorem Sound.refer (sound : p.Sound) (owner : p.slots c = some s) {references : Int}
    (enough : 0 ≤ ({ s with references } : Slot).others) :
    Sound { p with slots := Function.update p.slots c (some { s with references }) } := by
  rcases sound.ok with ⟨all, queue, inv⟩
  refine ⟨⟨all, queue, inv.reslot (fun other j owns => ?_) fun other slot j found owns => ?_⟩,
    fun other slot found => ?_⟩
  · by_cases mine : other = c
    · subst mine
      simpa [owner] using owns
    · simpa [mine] using owns
  · by_cases mine : other = c
    · subst mine
      simp only [Function.update_self, Option.some.injEq] at found
      subst found
      exact ⟨s, owner, owns, rfl⟩
    · rw [Function.update_of_ne mine] at found
      exact ⟨slot, found, owns, rfl⟩
  · by_cases mine : other = c
    · subst mine
      simp only [Function.update_self, Option.some.injEq] at found
      exact found ▸ enough
    · simp only [Function.update_of_ne mine] at found
      exact sound.others other slot found

theorem Sound.replace (sound : p.Sound) {slot : Option Slot}
    (before : ∀ s, p.slots c = some s → s.resolverJob = none)
    (after : ∀ s, slot = some s → s.resolverJob = none ∧ 0 ≤ s.others) :
    Sound { p with slots := Function.update p.slots c slot } := by
  rcases sound.ok with ⟨all, queue, inv⟩
  refine ⟨⟨all, queue, inv.reslot (fun other j owns => ?_) fun other s j found owns => ?_⟩,
    fun other s found => ?_⟩
  · by_cases mine : other = c
    · subst mine
      rcases Option.bind_eq_some_iff.mp owns with ⟨s, found, owns⟩
      simp [before s found] at owns
    · simpa [mine] using owns
  · by_cases mine : other = c
    · subst mine
      rw [Function.update_self] at found
      simp [(after s found).1] at owns
    · rw [Function.update_of_ne mine] at found
      exact ⟨s, found, owns, rfl⟩
  · by_cases mine : other = c
    · subst mine
      simp only [Function.update_self] at found
      exact (after s found).2
    · simp only [Function.update_of_ne mine] at found
      exact sound.others other s found

/-- No section of the main thread faults, and each keeps the invariant. -/
theorem Sound.main (sound : p.Sound) (act : MainStep) (enabled : act.Enabled p) :
    wp act.program (fun _ q => q.Sound) p := by
  have unchanged : ∀ q : Pool, Ok q → q.slots = p.slots → q.Sound :=
    fun q ok same => ⟨ok, same ▸ sound.others⟩
  cases act with
  | start created =>
      simp only [MainStep.program, wp_bind]
      refine wp_mono (wp_socks5ResolverPoolStart sound.ok) fun _ q started => ?_
      exact (wp_pure ..).mpr (unchanged q started.1 started.2.1)
  | queueJob c clientFd host port created allocated =>
      rcases enabled with ⟨s, owner⟩
      simp only [MainStep.program, wp_bind]
      refine wp_mono (wp_socks5ResolverQueueJob sound.ok owner) ?_
      rintro queued q ⟨ok, kept, slot⟩
      rw [wp_pure]
      split at slot
      · rcases slot with ⟨jobless, j, after⟩
        exact sound.of_kept owner ok kept after (others_queuedSlot jobless j)
      · exact sound.of_kept owner ok kept slot rfl
  | cancelConn c =>
      rcases enabled with ⟨s, owner⟩
      refine wp_mono (wp_socks5ResolverCancelConn sound.ok owner) ?_
      rintro _ q ⟨ok, kept, after⟩
      exact sound.of_kept owner ok kept after (others_releasedSlot s)
  | takeCompleted c =>
      rcases enabled with ⟨s, owner⟩
      simp only [MainStep.program, wp_bind]
      refine wp_mono (wp_socks5ResolverTakeCompleted sound.ok owner) ?_
      rintro completed q ⟨ok, kept, -, after⟩
      refine (wp_pure ..).mpr (sound.of_kept owner ok kept after ?_)
      split
      · exact others_releasedSlot s
      · rfl
  | isCompleted c =>
      rcases enabled with ⟨s, owner⟩
      simp only [MainStep.program, socks5ResolverIsCompleted, wp_bind, wp_slot, wp_pure]
      exact ⟨s, owner, sound⟩
  | stopBegin =>
      simp only [MainStep.program, wp_bind]
      refine wp_mono (wp_socks5ResolverPoolStopBegin sound.ok) fun _ q began => ?_
      exact (wp_pure ..).mpr (unchanged q began.1 began.2.1)
  | stopJoined =>
      simp only [MainStep.program, wp_bind]
      refine wp_mono (wp_socks5ResolverPoolStopJoined sound.ok enabled) ?_
      rintro owners q ⟨ok, slots, -⟩
      refine (wp_pure ..).mpr ⟨ok, fun c s found => ?_⟩
      rw [slots c] at found
      rcases Option.map_eq_some_iff.mp found with ⟨old, before, rfl⟩
      rw [others_releasedSlot]
      exact sound.others c old before
  | accept c =>
      simp only [MainStep.program, wp_modify]
      refine sound.replace (fun s found => ?_) fun s found => ?_
      · rw [show p.slots c = none from enabled] at found
        cases found
      · cases found
        exact ⟨rfl, by decide⟩
  | register c =>
      rcases enabled with ⟨s, owner⟩
      simp only [MainStep.program, wp_modifySlot]
      refine ⟨s, owner, sound.refer owner ?_⟩
      have enough := sound.others c s owner
      simp only [Slot.others] at enough ⊢
      omega
  | unregister c =>
      rcases enabled with ⟨s, owner, some⟩
      simp only [MainStep.program, wp_modifySlot]
      refine ⟨s, owner, sound.refer owner ?_⟩
      simp only [Slot.others] at some ⊢
      omega
  | release c =>
      rcases enabled with ⟨s, owner, unreferenced⟩
      simp only [MainStep.program, wp_modify]
      refine sound.replace (fun s' found => ?_) (by simp)
      obtain rfl : s = s' := by simpa [owner] using found
      have enough := sound.others c s owner
      cases owns : s.resolverJob with
      | none => rfl
      | some j => simp [Slot.others, owns, unreferenced] at enough

theorem Sound.worker (sound : p.Sound) (step : WorkerStep) :
    wp (resolverWorkerStep step) (fun _ q => q.Sound ∧ WorkerFrame step p q) p := by
  refine wp_mono (wp_resolverWorkerStep sound.ok step) ?_
  rintro _ q ⟨ok, frame⟩
  refine ⟨⟨ok, fun c s found => ?_⟩, frame⟩
  rcases frame.kept c with ⟨references, jobs⟩
  rw [found, Option.map_some] at references jobs
  rcases Option.map_eq_some_iff.mp references.symm with ⟨old, before, sameReferences⟩
  rw [before, Option.map_some, Option.some.injEq] at jobs
  have enough := sound.others c old before
  unfold Slot.others at enough ⊢
  rwa [← sameReferences, jobs]

theorem sound_initial : Pool.initial.Sound := ⟨ok_initial, by simp [Pool.initial]⟩

theorem Sound.step (sound : p.Sound) (step : Step p q) : q.Sound := by
  cases step with
  | main act enabled ran =>
      rcases sound.main act enabled with ⟨_, same, ran', sound'⟩
      obtain rfl : q = same := by simpa [ran] using ran'
      exact sound'
  | worker step notified ran =>
      rcases sound.worker step with ⟨_, same, ran', sound', -⟩
      rw [ran] at ran'
      cases ran'
      exact sound'

theorem Reachable.sound (reachable : p.Reachable) : p.Sound := by
  induction reachable with
  | refl => exact sound_initial
  | tail _ step ih => exact ih.step step

end

/-- What the file-level variables of the resolver say: `all` are the jobs in the system, newest
first, and `queue` those that wait for a thread, in the order in which they came. -/
structure Consistent (p : Pool) (all queue : List JobId) : Prop where
  allChain : Chain p.nextAll p.allJobs all
  allNodup : all.Nodup
  allocated : ∀ j, (p.jobs j).isSome ↔ j ∈ all
  count : p.jobsInSystem = all.length
  bound : p.jobsInSystem ≤ RESOLVER_MAX_JOBS
  queueChain : Chain p.next p.queueHead queue
  queueNodup : queue.Nodup
  order : queue.Sublist all.reverse
  tail : p.queueTail = queue.getLast?
  waiting : ∀ j ∈ queue, ∃ job, p.jobs j = some job ∧ job.running = false ∧ job.completed = false
  owner : ∀ j job c, p.jobs j = some job →
    (job.conn = some c ↔ (p.slots c).bind Slot.resolverJob = some j)
  freed : ∀ j, p.frees j = if j < p.nextJob ∧ j ∉ all then 1 else 0

theorem Ok.consistent {p : Pool} (ok : Ok p) : ∃ all queue, p.Consistent all queue := by
  rcases ok with ⟨all, queue, inv⟩
  refine ⟨all, queue, inv.allChain, inv.allChain.nodup, inv.heap, inv.count, inv.count ▸ inv.bound,
    inv.queueChain, inv.queueChain.nodup, inv.order, inv.tail, fun j member => ?_,
    fun j job c found => ⟨inv.owner j job c found, fun owns => ?_⟩, inv.frees⟩
  · rcases inv.queueAlive j member with ⟨job, found⟩
    exact ⟨job, found, (inv.queued j job found).mp member⟩
  · rcases Option.bind_eq_some_iff.mp owns with ⟨s, present, job'⟩
    exact ((inv.owned c s j present job').2 job found).1

theorem Sound.stopped {p q : Pool} (sound : p.Sound) (exited : ∀ i, p.workers i = .exited)
    (ran : MainStep.stopJoined.program p = .ok ((), q)) {j : JobId} (allocated : j < q.nextJob) :
    q.jobs j = none ∧ q.frees j = 1 := by
  have stops : wp MainStep.stopJoined.program (fun _ q => Ok q ∧ q.started = false) p := by
    simp only [MainStep.program, wp_bind]
    refine wp_mono (wp_socks5ResolverPoolStopJoined sound.ok exited) ?_
    rintro owners q ⟨ok, -, -, unstarted⟩
    exact (wp_pure ..).mpr ⟨ok, unstarted⟩
  rcases stops with ⟨_, same, ran', ⟨all, queue, inv⟩, unstarted⟩
  rw [ran] at ran'
  cases ran'
  rcases inv.unstarted unstarted with ⟨rfl, -⟩
  refine ⟨?_, by simp [inv.frees j, allocated]⟩
  rw [← Option.not_isSome_iff_eq_none, inv.heap j]
  exact List.not_mem_nil

end Pool

namespace World

variable {trusted : Prop} {view : View} {w w₁ : World} {k : ConnId} {c : Conn}

/-- `w₁` is met while the block notifications of an iteration that begins in `w` are handled. -/
def Notifying (w w₁ : World) : Prop :=
  w.mode = .running ∧ ∃ notified envs,
    World.blockNotifications notified envs
      { w with sh := { w.sh with sel := { w.sh.sel with resolutionLocked := true } } } = .ok w₁

theorem Inv.notifying (inv : Inv trusted view w) (notifying : w.Notifying w₁) :
    ∃ view', Inv trusted view' w₁ ∧ w₁.mode = .running := by
  rcases notifying with ⟨running, notified, envs, ran⟩
  have holding : Inv trusted view
      { w with sh := { w.sh with sel := { w.sh.sel with resolutionLocked := true } } } :=
    ⟨inv.sound.of_eq rfl rfl rfl rfl rfl rfl, inv.cells, inv.fresh⟩
  rcases holding.blockNotifications running notified envs with ⟨w', view', ran', inv', mode, -⟩
  obtain rfl : w₁ = w' := by simpa [ran] using ran'
  exact ⟨view', inv', mode.trans running⟩

end World

section

variable {id : ConnId} {c : Conn} {sh sh₁ : Shared} {s : Slot} {j : JobId} {job : ResolverJob}

/-- The handler of a notification while the connection's own lookup goes on. -/
theorem socks5Block_of_unfinished (fd : Fd) (resolving : c.current = some .reqResolve)
    (arrived : c.arrivalError = false) (workers : runWorkers sh = .ok ((), sh₁))
    (owner : sh₁.pool.slots id = some s) (owns : s.resolverJob = some j)
    (found : sh₁.pool.jobs j = some job) (unfinished : job.completed = false) :
    wp (socks5Block fd)
      (fun _ l => l.cell = .live { c with lastActivity := sh₁.env.now }) ⟨id, .live c, sh⟩ := by
  have take : wp (socks5ResolverTakeCompleted id) (fun completed q =>
      completed = false ∧ q = sh₁.pool) sh₁.pool := by
    simp only [socks5ResolverTakeCompleted, wp_bind, Pool.wp_slot]
    refine ⟨s, owner, ?_⟩
    simp [owns, Pool.wp_job, found, unfinished]
  have waits : wp requestResolveDone (fun next l => next = .reqResolve ∧ l = ⟨id, .live c, sh₁⟩)
      ⟨id, .live c, sh⟩ := by
    simp only [requestResolveDone, wp_bind, wp_get, locked, wp_focus, wp_onPool]
    refine ⟨(), sh₁, workers, wp_mono take ?_⟩
    rintro _ _ ⟨rfl, rfl⟩
    simp
  have started : stmState c = .reqResolve := by simp [stmState, resolving]
  simp only [socks5Block, wp_bind, wp_getConn, started, ne_eq, not_true_eq_false, if_false,
    stmHandler, handleFirst, resolving, reduceCtorEq, wp_pure, Option.bind_some, onBlockReady]
  refine wp_mono waits ?_
  rintro _ _ ⟨rfl, rfl⟩
  simp [jump, maxState, State.code, resolving, socks5Advance, advanceLoop, isReadState, arrived]

end

namespace World

/-- Under every interleaving the lists of jobs are consistent, no section and no thread ever touches
freed memory, a thread that finishes its job leaves the result in the connection that still owns the
job and touches no other, and a stopped pool has freed every job once. In the process, the
connection that a notification is delivered to, however late, owns a lookup of its own and stays in
its state unless that lookup has completed. -/
theorem lookups_safe_under_interleaving :
    (∀ p : Pool, p.Reachable →
      (∃ all queue, p.Consistent all queue) ∧
      (∀ act : Pool.MainStep, act.Enabled p → ∃ q, act.program p = .ok ((), q)) ∧
      (∀ step, ∃ notified q, resolverWorkerStep step p = .ok (notified, q) ∧
        (∀ c s, p.Publishes step c s → q.slots c = some s) ∧
        ∀ c, (∀ s, ¬p.Publishes step c s) → q.slots c = p.slots c) ∧
      ∀ q, (∀ i, p.workers i = .exited) →
        Pool.MainStep.stopJoined.program p = .ok ((), q) →
        ∀ j < q.nextJob, q.jobs j = none ∧ q.frees j = 1) ∧
    ∀ w : World, w.Reachable →
      (∃ all queue, w.sh.pool.Consistent all queue) ∧
      ∀ w₁ k c fd env, w.Notifying w₁ → w₁.heap k = some (.live c) →
        c.current = some .reqResolve →
        ∃ sh₁ s j job w', runWorkers (w₁.withEnv env).sh = .ok ((), sh₁) ∧
          sh₁.pool.slots k = some s ∧ s.resolverJob = some j ∧ sh₁.pool.jobs j = some job ∧
          (w₁.withEnv env).onConn k (socks5Block fd) = .ok ((), w') ∧
          (job.completed = false →
            w'.heap k = some (.live { c with lastActivity := sh₁.env.now })) := by
  refine ⟨fun p reachable => ?_, fun w reachable => ?_⟩
  · have sound := reachable.sound
    refine ⟨sound.ok.consistent, fun act enabled => ?_, fun step => ?_,
      fun q exited ran j allocated => sound.stopped exited ran allocated⟩
    · rcases sound.main act enabled with ⟨_, q, ran, -⟩
      exact ⟨q, ran⟩
    · rcases sound.worker step with ⟨notified, q, ran, -, frame⟩
      exact ⟨notified, q, ran, frame.delivered, frame.untouched⟩
  · rcases reachable.ok with ⟨view, inv⟩
    refine ⟨inv.sound.slots.ok.consistent, fun w₁ k c fd env notifying found resolving => ?_⟩
    rcases inv.notifying notifying with ⟨view', inv₁, running⟩
    rcases (inv₁.withEnv env).resting found with ⟨e, mine, rest⟩
    have atRest : AtRest False c e := by simpa [Resting, withEnv, running] using rest
    have armed := atRest.armed
    rw [show stmState c = .reqResolve by simp [stmState, resolving]] at armed
    have workers : wp runWorkers (fun _ sh₁ => Slots view' sh₁.pool) (w₁.withEnv env).sh :=
      wp_runWorkers (inv₁.withEnv env).sound.slots fun _ _ _ kept => kept
    rcases workers with ⟨_, sh₁, worked, slots⟩
    rcases slots.exists_slot mine with ⟨s, owner, -, job⟩
    rcases Option.isSome_iff_exists.mp (job.trans armed.2.2.1) with ⟨j, owns⟩
    rcases slots.ok with ⟨all, queue, pool⟩
    rcases pool.allAlive j (pool.owned k s j owner owns).1 with ⟨found', present⟩
    rcases (inv₁.withEnv env).dispatch running mine
      (fun c sound rest => wp_socks5Block fd sound rest) with ⟨_, w', -, ran, -⟩
    refine ⟨sh₁, s, j, found', w', worked, owner, owns, present, ran, fun unfinished => ?_⟩
    rcases socks5Block_of_unfinished fd resolving atRest.fits.arrived worked owner owns present
      unfinished with ⟨_, l, handled, live⟩
    simp only [onConn, withEnv, found] at ran
    simp only [withEnv] at handled
    rw [handled] at ran
    cases ran
    simp [live]

theorem exists_lookup_under_way :
    ∃ (p : Pool) (job : ResolverJob) (s : Slot), p.Reachable ∧
      p.workers ⟨0, by decide⟩ = .resolving 0 false ∧ p.jobs 0 = some job ∧ job.conn = some 0 ∧
      (job.canceled || p.stopping) = false ∧ p.slots 0 = some s ∧ s.resolverJob = some 0 :=
  ⟨_, _, _, .tail (.tail (.tail (.tail .refl
    (.main (.start true) trivial rfl))
    (.main (.accept 0) rfl rfl))
    (.main (.queueJob 0 (some 4) (ascii "hi") (ascii "80") true true) ⟨_, rfl⟩ rfl))
    (.worker (.pop ⟨0, by decide⟩) none rfl), rfl, rfl, rfl, rfl, rfl, rfl⟩

/-- Whether connection 0 waits for a lookup that is not finished. -/
def awaitsLookup (w : World) : Bool :=
  w.mode = .running && liveTest 0 (fun c => c.current = some .reqResolve) w &&
    (w.sh.pool.slots 0).any fun s => s.resolverJob.any fun j =>
      (w.sh.pool.jobs j).any fun job => !job.completed

/-- The answer to the lookup of connection 0 is left in it, and a notification that comes before the
lookup is finished does not move it on. -/
theorem lookups_safe_for_one_connection :
    (∃ (p q : Pool) (s : Slot) (notified : Option Fd), p.Reachable ∧
      resolverWorkerStep (.finish ⟨0, by decide⟩ ⟨0, [loopback]⟩) p = .ok (notified, q) ∧
      q.slots 0 = some s ∧ s.resolverDone = true ∧ s.resolution = [loopback]) ∧
    ∃ (w w₁ w' : World) (c : Conn), w.Reachable ∧ w.Notifying w₁ ∧
      (w₁.withEnv quiet).onConn 0 (socks5Block 4) = .ok ((), w') ∧
      w'.heap 0 = some (.live c) ∧ c.current = some .reqResolve := by
  constructor
  · rcases exists_lookup_under_way with
      ⟨p, job, s, reachable, holds, present, conn, wanted, owner, owns⟩
    rcases (lookups_safe_under_interleaving.1 p reachable).2.2.1
      (.finish ⟨0, by decide⟩ ⟨0, [loopback]⟩) with ⟨notified, q, ran, delivered, -⟩
    refine ⟨p, q, _, notified, reachable, ran,
      delivered 0 _ (.finish holds present conn owner owns), ?_⟩
    rw [wanted]
    exact ⟨rfl, rfl⟩
  · have ended : endsWith (arrival ++ lookup) awaitsLookup = true := by decide +kernel
    rcases exists_of_endsWith ended with ⟨w, reachable, passed⟩
    simp only [awaitsLookup, Bool.and_eq_true, decide_eq_true_eq, Option.any_eq_true,
      Bool.not_eq_true'] at passed
    rcases passed with ⟨⟨running, live⟩, s, owner, j, owns, job, present, unfinished⟩
    rcases exists_of_liveTest live with ⟨c, found, resolving⟩
    let w₁ : World :=
      { w with sh := { w.sh with sel := { w.sh.sel with resolutionLocked := true } } }
    have notifying : w.Notifying w₁ := ⟨running, [], [], rfl⟩
    rcases (lookups_safe_under_interleaving.2 w reachable).2 w₁ 0 c 4 quiet notifying found
      (of_decide_eq_true resolving) with
      ⟨sh₁, s', j', job', w', worked, owner', owns', present', ran, stays⟩
    -- No thread does anything meanwhile.
    have idle : runWorkers (w₁.withEnv quiet).sh = .ok ((), (w₁.withEnv quiet).sh) := rfl
    rw [idle] at worked
    cases worked
    obtain rfl : s = s' := Option.some.inj (owner.symm.trans owner')
    obtain rfl : j = j' := Option.some.inj (owns.symm.trans owns')
    obtain rfl : job = job' := Option.some.inj (present.symm.trans present')
    exact ⟨w, w₁, w', _, reachable, notifying, ran, stays unfinished, of_decide_eq_true resolving⟩

end World

end SocksProxy
