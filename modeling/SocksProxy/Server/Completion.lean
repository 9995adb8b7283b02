import SocksProxy.Server.Resolver

/-!
# Completed lookups stay completed

A result that was published for a connection stays with it until the connection
asks again or is freed. Neither the resolver threads nor the critical sections
of the main thread take it back, and queueing a job resets only the connection
that asks.
-/

namespace SocksProxy

open Prog Pool

/-- A result has been published for the connection. -/
def Pool.hasResult (p : Pool) (k : ConnId) : Bool := (p.slots k).any Slot.resolverDone

section

variable {k : ConnId}

theorem keeps_hasResult_modify {change : Pool → Pool} (same : ∀ p, (change p).slots = p.slots) :
    Keeps (fun p => p.hasResult k = true) (modify change : PoolM PUnit) :=
  .modify fun p done => by rwa [hasResult, same]

theorem keeps_hasResult_job (j : JobId) : Keeps (fun p => p.hasResult k = true) (job j) := by
  refine .bind .get fun p => ?_
  cases p.jobs j with
  | none => exact .throw _
  | some found => exact .pure _

theorem keeps_hasResult_slot (c : ConnId) : Keeps (fun p => p.hasResult k = true) (slot c) := by
  refine .bind .get fun p => ?_
  cases p.slots c with
  | none => exact .throw _
  | some found => exact .pure _

theorem keeps_hasResult_modifyJob (j : JobId) (change : ResolverJob → ResolverJob) :
    Keeps (fun p => p.hasResult k = true) (modifyJob j change) :=
  .bind (keeps_hasResult_job j) fun _ => keeps_hasResult_modify fun _ => rfl

theorem wlp_slot {c : ConnId} {post : Slot → Pool → Prop} {p : Pool} :
    wlp (slot c) post p ↔ ∀ s, p.slots c = some s → post s p := by
  simp only [slot, wlp_bind, wlp_get]
  cases p.slots c <;> simp

theorem keeps_hasResult_modifySlot (c : ConnId) {change : Slot → Slot}
    (stays : c = k → ∀ s, s.resolverDone = true → (change s).resolverDone = true) :
    Keeps (fun p => p.hasResult k = true) (modifySlot c change) := by
  intro p done
  simp only [modifySlot, wlp_bind, wlp_slot, wlp_modify]
  intro s found
  by_cases same : c = k
  · subst same
    rw [hasResult, found] at done
    simpa [hasResult] using stays rfl s done
  · simpa [hasResult, Ne.symm same] using done

theorem keeps_hasResult_freeJob (j : JobId) : Keeps (fun p => p.hasResult k = true) (freeJob j) :=
  .bind (keeps_hasResult_job j) fun _ => keeps_hasResult_modify fun _ => rfl

/-! ## The lists of jobs -/

theorem keeps_hasResult_findLink (link : Pool → JobId → Option JobId) (target : JobId)
    (rounds : Nat) (before start : Option JobId) :
    Keeps (fun p => p.hasResult k = true) (findLink link target rounds before start) := by
  induction rounds generalizing before start with
  | zero =>
      cases start with
      | none => simpa [findLink] using Keeps.pure _
      | some current => exact .throw _
  | succ rounds ih =>
      cases start with
      | none => simpa [findLink] using Keeps.pure _
      | some current =>
          exact .ite (fun _ => .pure _) fun _ =>
            .bind (keeps_hasResult_job current) fun _ => .bind .get fun _ => ih _ _

theorem keeps_hasResult_resolverAllAdd (j : JobId) :
    Keeps (fun p => p.hasResult k = true) (resolverAllAdd j) :=
  .bind (keeps_hasResult_job j) fun _ => keeps_hasResult_modify fun _ => rfl

theorem keeps_hasResult_resolverAllRemove (j : JobId) :
    Keeps (fun p => p.hasResult k = true) (resolverAllRemove j) := by
  refine .bind .get fun p => .bind (keeps_hasResult_findLink _ _ _ _ _) fun found => ?_
  rcases found with _ | _ | before
  · exact .pure _
  · exact .bind (keeps_hasResult_job j) fun _ => keeps_hasResult_modify fun _ => rfl
  · exact .bind (keeps_hasResult_job before) fun _ => .bind (keeps_hasResult_job j) fun _ =>
      keeps_hasResult_modify fun _ => rfl

theorem keeps_hasResult_resolverQueuePush (j : JobId) :
    Keeps (fun p => p.hasResult k = true) (resolverQueuePush j) := by
  refine .bind (keeps_hasResult_job j) fun _ => .bind .get fun p => ?_
  cases p.queueTail with
  | none => exact keeps_hasResult_modify fun _ => rfl
  | some tail =>
      exact .bind (keeps_hasResult_job tail) fun _ => keeps_hasResult_modify fun _ => rfl

theorem keeps_hasResult_resolverQueuePop :
    Keeps (fun p => p.hasResult k = true) resolverQueuePop := by
  refine .bind .get fun p => ?_
  cases p.queueHead with
  | none => exact .pure _
  | some j =>
      exact .bind (keeps_hasResult_job j) fun _ =>
        .bind (keeps_hasResult_modify fun _ => rfl) fun _ => .pure _

theorem keeps_hasResult_lastQueued (rounds : Nat) (tail start : Option JobId) :
    Keeps (fun p => p.hasResult k = true) (lastQueued rounds tail start) := by
  induction rounds generalizing tail start with
  | zero =>
      cases start with
      | none => simpa [lastQueued] using Keeps.pure _
      | some q => exact .throw _
  | succ rounds ih =>
      cases start with
      | none => simpa [lastQueued] using Keeps.pure _
      | some q =>
          exact .bind (keeps_hasResult_job q) fun _ => .bind .get fun _ => ih _ _

theorem keeps_hasResult_dropQueued (j : JobId) :
    Keeps (fun p => p.hasResult k = true) (dropQueued j) := by
  have unlinked : Keeps (fun p => p.hasResult k = true) (do
      let _ ← job j
      modify fun p => { p with next := Function.update p.next j none } : PoolM Unit) :=
    .bind (keeps_hasResult_job j) fun _ => keeps_hasResult_modify fun _ => rfl
  refine .bind .get fun p => .ite (fun _ => ?_) fun _ => unlinked
  exact .bind (keeps_hasResult_lastQueued _ _ _) fun _ =>
    .bind (keeps_hasResult_modify fun _ => rfl) fun _ => unlinked

theorem keeps_hasResult_resolverQueueRemove (j : JobId) :
    Keeps (fun p => p.hasResult k = true) (resolverQueueRemove j) := by
  refine .bind .get fun p => .bind (keeps_hasResult_findLink _ _ _ _ _) fun found => ?_
  rcases found with _ | _ | before
  · exact .pure _
  · exact .bind (keeps_hasResult_job j) fun _ =>
      .bind (keeps_hasResult_modify fun _ => rfl) fun _ => keeps_hasResult_dropQueued j
  · exact .bind (keeps_hasResult_job before) fun _ => .bind (keeps_hasResult_job j) fun _ =>
      .bind (keeps_hasResult_modify fun _ => rfl) fun _ => keeps_hasResult_dropQueued j

/-! ## Resolver threads -/

theorem keeps_hasResult_resolverWorkerPop (w : Fin RESOLVER_WORKERS) :
    Keeps (fun p => p.hasResult k = true) (resolverWorkerPop w) := by
  refine .bind .get fun p => ?_
  cases p.queueHead with
  | none => exact .ite (fun _ => keeps_hasResult_modify fun _ => rfl) fun _ => .pure _
  | some head =>
      refine .bind keeps_hasResult_resolverQueuePop fun popped => ?_
      cases popped with
      | none => exact .pure _
      | some j =>
          exact .bind (keeps_hasResult_modifyJob j _) fun _ =>
            .bind (keeps_hasResult_job j) fun _ => keeps_hasResult_modify fun _ => rfl

theorem keeps_hasResult_resolverWorkerFinish (w : Fin RESOLVER_WORKERS) (j : JobId) (rc : Int)
    (resolution : List Sockaddr) :
    Keeps (fun p => p.hasResult k = true) (resolverWorkerFinish w j rc resolution) := by
  refine .bind (keeps_hasResult_modifyJob j _) fun _ => .bind (keeps_hasResult_job j) fun found =>
    .bind .get fun p => ?_
  dsimp only
  cases found.conn with
  | some c =>
      refine .ite (fun _ => ?_) fun _ => ?_
      all_goals
        exact .bind (keeps_hasResult_modifySlot c fun _ _ _ => rfl) fun _ =>
          .bind (keeps_hasResult_modifyJob j _) fun _ => keeps_hasResult_modify fun _ => rfl
  | none =>
      exact .bind (keeps_hasResult_resolverAllRemove j) fun _ =>
        .bind (keeps_hasResult_modify fun _ => rfl) fun _ =>
          .bind (keeps_hasResult_freeJob j) fun _ => keeps_hasResult_modify fun _ => rfl

theorem keeps_hasResult_resolverWorkerStep (step : WorkerStep) :
    Keeps (fun p => p.hasResult k = true) (resolverWorkerStep step) := by
  cases step with
  | pop w =>
      refine .bind .get fun p => ?_
      cases p.workers w with
      | idle => exact .bind (keeps_hasResult_resolverWorkerPop w) fun _ => .pure _
      | _ => exact .pure _
  | finish w answer =>
      refine .bind .get fun p => ?_
      cases p.workers w with
      | resolving j canceled =>
          exact .bind (keeps_hasResult_resolverWorkerFinish w j _ _) fun _ => .pure _
      | _ => exact .pure _
  | notify w allocated =>
      refine .bind .get fun p => ?_
      cases p.workers w with
      | notifying fd => exact .bind (keeps_hasResult_modify fun _ => rfl) fun _ => .pure _
      | _ => exact .pure _

/-! ## Critical sections of the main thread -/

theorem keeps_hasResult_socks5ResolverCancelConn (c : ConnId) :
    Keeps (fun p => p.hasResult k = true) (socks5ResolverCancelConn c) := by
  refine .bind (keeps_hasResult_slot c) fun owner => ?_
  cases owner.resolverJob with
  | none => exact .pure _
  | some j =>
      refine .bind (keeps_hasResult_modifyJob j _) fun _ =>
        .bind (keeps_hasResult_modifySlot c fun _ _ done => done) fun _ =>
          .bind (keeps_hasResult_job j) fun _ => .ite (fun _ => ?_) fun _ => .pure _
      exact .bind (keeps_hasResult_resolverQueueRemove j) fun _ =>
        .bind (keeps_hasResult_resolverAllRemove j) fun _ =>
          .bind (keeps_hasResult_modify fun _ => rfl) fun _ => keeps_hasResult_freeJob j

theorem keeps_hasResult_socks5ResolverTakeCompleted (c : ConnId) :
    Keeps (fun p => p.hasResult k = true) (socks5ResolverTakeCompleted c) := by
  refine .bind (keeps_hasResult_slot c) fun owner => ?_
  cases owner.resolverJob with
  | none => exact .pure _
  | some j =>
      refine .bind (keeps_hasResult_job j) fun _ => .ite (fun _ => ?_) fun _ => .pure _
      exact .bind (keeps_hasResult_resolverAllRemove j) fun _ =>
        .bind (keeps_hasResult_modify fun _ => rfl) fun _ =>
          .bind (keeps_hasResult_modifySlot c fun _ _ done => done) fun _ =>
            .bind (keeps_hasResult_freeJob j) fun _ => .pure _

theorem keeps_hasResult_socks5ResolverIsCompleted (c : ConnId) :
    Keeps (fun p => p.hasResult k = true) (socks5ResolverIsCompleted c) :=
  .bind (keeps_hasResult_slot c) fun _ => .pure _

theorem keeps_hasResult_socks5ResolverPoolStart (created : Bool) :
    Keeps (fun p => p.hasResult k = true) (socks5ResolverPoolStart created) := by
  refine .bind .get fun p => .ite (fun _ => ?_) fun _ => .ite (fun _ => ?_) fun _ => ?_
  · exact .bind (keeps_hasResult_modify fun _ => rfl) fun _ => .pure _
  · exact .bind (keeps_hasResult_modify fun _ => rfl) fun _ => .pure _
  · exact .bind (keeps_hasResult_modify fun _ => rfl) fun _ => .pure _

theorem keeps_hasResult_allocJob (job : ResolverJob) :
    Keeps (fun p => p.hasResult k = true) (allocJob job) := by
  intro p done
  simp only [allocJob, wlp_bind, wlp_get]
  rintro _ _ ⟨⟩
  exact (wlp_pure ..).mpr done

/-- Asking for a lookup takes back only the result of the connection that asks. -/
theorem keeps_hasResult_socks5ResolverQueueJob {c : ConnId} (other : c ≠ k) (clientFd : Option Fd)
    (host port : List UInt8) (created allocated : Bool) :
    Keeps (fun p => p.hasResult k = true)
      (socks5ResolverQueueJob c clientFd host port created allocated) := by
  refine .bind (keeps_hasResult_socks5ResolverPoolStart created) fun _ =>
    .ite (fun _ => .pure _) fun _ => .ite (fun _ => .pure _) fun _ =>
      .bind (keeps_hasResult_allocJob _) fun j => .bind .get fun p =>
        .bind (keeps_hasResult_slot c) fun owner => .ite (fun _ => ?_) fun _ => ?_
  · exact .bind (keeps_hasResult_freeJob j) fun _ => .pure _
  · exact .bind (keeps_hasResult_modifySlot c fun same => absurd same other) fun _ =>
      .bind (keeps_hasResult_modify fun _ => rfl) fun _ =>
        .bind (keeps_hasResult_resolverAllAdd j) fun _ =>
          .bind (keeps_hasResult_resolverQueuePush j) fun _ => .pure _

end

end SocksProxy
