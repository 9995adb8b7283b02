import Mathlib.Algebra.BigOperators.Fin
import Mathlib.Algebra.Order.BigOperators.Group.Finset
import Mathlib.Data.List.FinRange
import SocksProxy.Server.ResolverSafety

/-!
# Stopping the resolver pool

`socks5_resolver_pool_stop` sets `resolver_stopping` and joins the threads, so it
returns only if all of them leave. From then on a thread takes the jobs that are
left without looking them up, announces nothing any more and leaves once the
queue is empty. How far the threads are from that is a number here, and every
section of a thread that is due lowers it.
-/

namespace SocksProxy

open Prog

/-- The sections of `resolver_worker_run`, and the notification between two of them. -/
inductive Section where
  | pop
  | finish
  | notify
  deriving DecidableEq, Repr

/-- What a thread does next. -/
def Worker.due : Worker → Option Section
  | .idle => some .pop
  | .resolving _ _ => some .finish
  | .notifying _ => some .notify
  | .exited => none

/-- How many sections a thread needs to leave if it finds no job. -/
def Worker.toGo : Worker → ℕ
  | .exited => 0
  | .idle => 1
  | .resolving _ _ | .notifying _ => 2

/-- The thread that makes a step, and the section it is. -/
def WorkerStep.turn : WorkerStep → Fin RESOLVER_WORKERS × Section
  | .pop w => (w, .pop)
  | .finish w _ => (w, .finish)
  | .notify w _ => (w, .notify)

theorem Worker.toGo_le (worker : Worker) : worker.toGo ≤ 2 := by
  cases worker <;> simp [Worker.toGo]

namespace Pool

/-- The jobs that no thread has taken yet. -/
def waiting (p : Pool) : Finset JobId :=
  (Finset.range p.nextJob).filter fun j =>
    (p.jobs j).any fun job => !job.running && !job.completed

/-- How many sections the threads need at most until all have left. -/
def toGo (p : Pool) : ℕ := ∑ w, (p.workers w).toGo + 2 * p.waiting.card

/-- A thread that has not left yet, and what it does next. -/
def remaining (p : Pool) : Option (Fin RESOLVER_WORKERS × Section) :=
  (List.finRange RESOLVER_WORKERS).findSome? fun w => (p.workers w).due.map (w, ·)

section

variable {p q : Pool} {w : Fin RESOLVER_WORKERS} {j : JobId}

theorem mem_waiting : j ∈ p.waiting ↔ j < p.nextJob ∧
    ∃ found, p.jobs j = some found ∧ found.running = false ∧ found.completed = false := by
  simp [waiting, Option.any_eq_true]

theorem remaining_eq_none : p.remaining = none ↔ ∀ w, p.workers w = .exited := by
  rw [remaining, List.findSome?_eq_none_iff]
  refine ⟨fun none w => ?_, fun exited w _ => by simp [exited w, Worker.due]⟩
  have left := none w (List.mem_finRange w)
  cases position : p.workers w with
  | exited => rfl
  | idle | resolving _ _ | notifying _ => simp [position, Worker.due] at left

theorem due_of_remaining {turn : Fin RESOLVER_WORKERS × Section} (found : p.remaining = some turn) :
    (p.workers turn.1).due = some turn.2 := by
  rcases List.exists_of_findSome?_eq_some found with ⟨w, -, mapped⟩
  rcases Option.map_eq_some_iff.mp mapped with ⟨what, due, rfl⟩
  exact due

/-! ## The distance -/

theorem sum_toGo_update (workers : Fin RESOLVER_WORKERS → Worker) (w : Fin RESOLVER_WORKERS)
    (worker : Worker) :
    ∑ v, (Function.update workers w worker v).toGo + (workers w).toGo =
      ∑ v, (workers v).toGo + worker.toGo := by
  have updated : ∀ v, (Function.update workers w worker v).toGo =
      Function.update (fun v => (workers v).toGo) w worker.toGo v :=
    fun v => Function.apply_update (fun _ => Worker.toGo) workers w worker v
  rw [Finset.sum_congr rfl fun v _ => updated v, Finset.sum_update_of_mem (Finset.mem_univ w),
    Finset.sum_eq_add_sum_sdiff_singleton_of_mem (Finset.mem_univ w) fun v => (workers v).toGo]
  omega

theorem toGo_lt {worker : Worker} (workers : q.workers = Function.update p.workers w worker)
    (falls : 2 * q.waiting.card + worker.toGo < 2 * p.waiting.card + (p.workers w).toGo) :
    q.toGo < p.toGo := by
  have moved := sum_toGo_update p.workers w worker
  rw [toGo, toGo, workers]
  omega

theorem toGo_lt_of_eq {worker : Worker} (workers : q.workers = Function.update p.workers w worker)
    (waiting : q.waiting = p.waiting) (falls : worker.toGo < (p.workers w).toGo) :
    q.toGo < p.toGo := by
  refine toGo_lt workers ?_
  rw [waiting]
  omega

theorem Inv.waiting_subset {all queue : List JobId} (inv : Inv p all queue) :
    p.waiting ⊆ all.toFinset := by
  intro j member
  rcases mem_waiting.mp member with ⟨-, found, present, -⟩
  rw [List.mem_toFinset, ← inv.heap, present]
  rfl

theorem Ok.toGo_le (ok : Ok p) : p.toGo ≤ 2 * RESOLVER_WORKERS + 2 * RESOLVER_MAX_JOBS := by
  rcases ok with ⟨all, queue, inv⟩
  have threads : ∑ w, (p.workers w).toGo ≤ ∑ _w : Fin RESOLVER_WORKERS, 2 :=
    Finset.sum_le_sum fun w _ => (p.workers w).toGo_le
  have jobs : p.waiting.card ≤ all.length :=
    (Finset.card_le_card inv.waiting_subset).trans (List.toFinset_card_le all)
  have bound := inv.bound
  simp only [Finset.sum_const, Finset.card_univ, Fintype.card_fin, smul_eq_mul] at threads
  rw [toGo]
  omega

/-! ## Sections -/

@[simp]
theorem wlp_job {post : ResolverJob → Pool → Prop} :
    wlp (job j) post p ↔ ∀ found, p.jobs j = some found → post found p := by
  cases present : p.jobs j <;> simp [job, present]

@[simp]
theorem wlp_modifyJob {change : ResolverJob → ResolverJob} {post : Unit → Pool → Prop} :
    wlp (modifyJob j change) post p ↔ ∀ found, p.jobs j = some found →
      post () { p with jobs := Function.update p.jobs j (some (change found)) } := by
  simp [modifyJob]

@[simp]
theorem wlp_modifySlot {c : ConnId} {change : Slot → Slot} {post : Unit → Pool → Prop} :
    wlp (modifySlot c change) post p ↔ ∀ found, p.slots c = some found →
      post () { p with slots := Function.update p.slots c (some (change found)) } := by
  cases present : p.slots c <;> simp [modifySlot, slot, present]

@[simp]
theorem wlp_freeJob {post : Unit → Pool → Prop} :
    wlp (freeJob j) post p ↔ ∀ found, p.jobs j = some found →
      post () { p with
        jobs := Function.update p.jobs j none
        frees := Function.update p.frees j (p.frees j + 1) } := by
  simp [freeJob]

theorem wlp_findLink {link : Pool → JobId → Option JobId} {rounds : Nat}
    {before start : Option JobId} {post : Option (Option JobId) → Pool → Prop}
    (holds : ∀ found, post found p) : wlp (findLink link j rounds before start) post p := by
  induction rounds generalizing before start with
  | zero =>
      cases start with
      | none => simpa [findLink] using holds none
      | some current => simp [findLink]
  | succ rounds ih =>
      cases start with
      | none => simpa [findLink] using holds none
      | some current =>
          simp only [findLink, wlp_ite, wlp_pure, wlp_bind, wlp_job, wlp_get]
          split
          · exact holds _
          · exact fun _ _ => ih

theorem wlp_resolverAllRemove {post : Unit → Pool → Prop}
    (holds : ∀ allJobs nextAll, post () { p with allJobs, nextAll }) :
    wlp (resolverAllRemove j) post p := by
  unfold resolverAllRemove
  simp only [wlp_bind, wlp_get]
  refine wlp_findLink fun found => ?_
  rcases found with _ | _ | before
  · exact (wlp_pure ..).mpr (holds p.allJobs p.nextAll)
  · simp only [wlp_bind, wlp_job, wlp_modify]
    exact fun _ _ => holds _ _
  · simp only [wlp_bind, wlp_job, wlp_modify]
    exact fun _ _ _ _ => holds _ _

theorem wlp_resolverWorkerPop (ok : Ok p) (stopping : p.stopping = true)
    (idle : p.workers w = .idle) :
    wlp (resolverWorkerPop w) (fun _ q => q.stopping = true ∧ q.toGo < p.toGo) p := by
  rcases ok with ⟨all, queue, inv⟩
  unfold resolverWorkerPop
  simp only [wlp_bind, wlp_get]
  split
  · simp only [stopping, if_true, wlp_modify, true_and]
    exact toGo_lt_of_eq rfl rfl (by simp [idle, Worker.toGo])
  · next j head =>
      simp only [head, resolverQueuePop, wlp_bind, wlp_get, wlp_job, wlp_modify, wlp_pure,
        wlp_modifyJob]
      intro found present found' present' taken taken'
      refine ⟨stopping, toGo_lt rfl ?_⟩
      have queued : j ∈ queue := by
        cases queue with
        | nil => simp [show p.queueHead = none from inv.queueChain] at head
        | cons first rest =>
            rw [inv.queueChain.1] at head
            cases head
            exact List.mem_cons_self
      have member : j ∈ p.waiting := by
        refine mem_waiting.mpr ⟨?_, found, present, (inv.queued j found present).mp queued⟩
        exact inv.fresh j (inv.mem_all_of_mem_queue queued)
      have taken : waiting { p with
          jobs := Function.update p.jobs j (some { found' with running := true }) } =
            p.waiting.erase j := by
        ext i
        rw [Finset.mem_erase, mem_waiting, mem_waiting]
        by_cases same : i = j
        · simp [same]
        · simp [same]
      have one : 0 < p.waiting.card := Finset.card_pos.mpr ⟨j, member⟩
      have fewer := Finset.card_erase_of_mem member
      rw [← taken] at fewer
      simp only [idle, Worker.toGo]
      change 2 * (waiting { p with
        jobs := Function.update p.jobs j (some { found' with running := true }) }).card + 2 < _
      omega

/-- The waiting jobs stay when a thread is done with one that it had taken. -/
theorem waiting_eq {found : ResolverJob} {job : Option ResolverJob}
    (present : p.jobs j = some found) (running : found.running = true)
    (ended : ∀ after, job = some after → after.completed = true)
    (jobs : q.jobs = Function.update p.jobs j job) (nextJob : q.nextJob = p.nextJob) :
    q.waiting = p.waiting := by
  ext i
  rw [mem_waiting, mem_waiting, jobs, nextJob]
  by_cases same : i = j
  · subst same
    rw [Function.update_self, present]
    refine and_congr_right fun _ => ⟨?_, ?_⟩
    · rintro ⟨after, rfl, -, open_⟩
      simp [ended after rfl] at open_
    · rintro ⟨after, ⟨⟩, idle, -⟩
      simp [running] at idle
  · rw [Function.update_of_ne same]

/-- A thread is done with its job; nothing is announced any more. -/
theorem wlp_resolverWorkerFinish {canceled : Bool} {rc : Int} {resolution : List Sockaddr}
    (ok : Ok p) (stopping : p.stopping = true) (holds : p.workers w = .resolving j canceled) :
    wlp (resolverWorkerFinish w j rc resolution)
      (fun _ q => q.stopping = true ∧ q.toGo < p.toGo) p := by
  rcases ok with ⟨all, queue, inv⟩
  unfold resolverWorkerFinish
  simp only [wlp_bind, wlp_get, wlp_modifyJob, wlp_job, Function.update_self, Option.some.injEq,
    forall_eq', stopping, Bool.or_true, if_true]
  intro found present
  have running := (inv.running j found present).mpr ⟨w, canceled, holds⟩
  split
  · simp only [wlp_bind, wlp_modifySlot, wlp_modifyJob, wlp_modify, Function.update_self,
      Option.some.injEq, forall_eq', Function.update_idem, afterPublishing, if_true]
    intro owner _
    refine ⟨trivial, toGo_lt_of_eq rfl (waiting_eq present running ?_ rfl rfl) ?_⟩
    · rintro _ ⟨⟩
      rfl
    · simp [holds, Worker.toGo]
  · rw [wlp_bind]
    refine wlp_resolverAllRemove fun allJobs nextAll => ?_
    simp only [wlp_bind, wlp_modify, wlp_freeJob, Function.update_self, Option.some.injEq,
      forall_eq', Function.update_idem]
    refine ⟨trivial, toGo_lt_of_eq rfl (waiting_eq present running ?_ rfl rfl) ?_⟩
    · rintro _ ⟨⟩
    · simp [holds, Worker.toGo]

/-- While the pool stops a step of a thread lowers the distance, or it is not due. -/
theorem wlp_resolverWorkerStep (ok : Ok p) (stopping : p.stopping = true) (step : WorkerStep) :
    wlp (resolverWorkerStep step) (fun _ q => q.stopping = true ∧ (q.toGo < p.toGo ∨
      q = p ∧ (p.workers step.turn.1).due ≠ some step.turn.2)) p := by
  cases step with
  | pop w =>
      simp only [resolverWorkerStep, wlp_bind, wlp_get]
      cases position : p.workers w with
      | idle =>
          rw [wlp_bind]
          refine wlp_mono (wlp_resolverWorkerPop ok stopping position) fun _ q nearer => ?_
          exact (wlp_pure ..).mpr ⟨nearer.1, .inl nearer.2⟩
      | resolving _ _ | notifying _ | exited =>
          simp [stopping, WorkerStep.turn, position, Worker.due]
  | finish w answer =>
      simp only [resolverWorkerStep, wlp_bind, wlp_get]
      cases position : p.workers w with
      | resolving j canceled =>
          rw [wlp_bind]
          refine wlp_mono (wlp_resolverWorkerFinish ok stopping position) fun _ q nearer => ?_
          exact (wlp_pure ..).mpr ⟨nearer.1, .inl nearer.2⟩
      | idle | notifying _ | exited =>
          simp [stopping, WorkerStep.turn, position, Worker.due]
  | notify w allocated =>
      simp only [resolverWorkerStep, wlp_bind, wlp_get]
      cases position : p.workers w with
      | notifying fd =>
          simp only [wlp_bind, wlp_modify, wlp_pure]
          exact ⟨stopping, .inl (toGo_lt_of_eq rfl rfl (by simp [position, Worker.toGo]))⟩
      | idle | resolving _ _ | exited =>
          simp [stopping, WorkerStep.turn, position, Worker.due]

/-! ## The first section of the stop -/

theorem keeps_stopping_cancelAll (rounds : Nat) (start : Option JobId) :
    Keeps (fun q => q.stopping = true) (cancelAll rounds start) := by
  induction rounds generalizing start with
  | zero =>
      cases start with
      | none => simpa [cancelAll] using Keeps.pure _
      | some j => exact .throw _
  | succ rounds ih =>
      cases start with
      | none => simpa [cancelAll] using Keeps.pure _
      | some j =>
          refine .bind (fun q stopping => ?_) fun _ => .bind .get fun _ => ih _
          rw [wlp_modifyJob]
          exact fun _ _ => stopping

theorem wlp_socks5ResolverPoolStopBegin :
    wlp socks5ResolverPoolStopBegin
      (fun begun q => begun = true → q.stopping = true) p := by
  unfold socks5ResolverPoolStopBegin
  simp only [wlp_bind, wlp_get, wlp_ite, wlp_pure]
  split
  · exact Bool.noConfusion
  · intro _ _ ran
    cases ran
    rw [wlp_bind]
    refine wlp_mono (keeps_stopping_cancelAll _ _ { p with stopping := true } rfl)
      fun _ _ stopping => ?_
    exact (wlp_pure ..).mpr fun _ => stopping

end

end Pool

end SocksProxy
