import SocksProxy.Shared.Selector

/-!
# The DNS resolver pool

`socks5_resolver.c`: jobs are allocated by the main thread, linked into the list
of all jobs and into the work queue, and handled by `RESOLVER_WORKERS` threads.
Every function here is one critical section of `resolver_mutex`; what a thread
does between two sections touches nothing that is shared, and `free` of a job
that is no longer linked is part of the section that unlinked it.

A connection is seen through the fields it shares with the pool, its `Slot`.
The link fields `next` and `next_all` are tables of their own, so that `Chain`
applies to them; reading them through a freed job is a fault all the same.
-/

namespace SocksProxy

abbrev JobId := Nat

def RESOLVER_MAX_JOBS : Nat := 64

def EAI_FAIL : Int := -4

/-- `struct resolver_job` without its two link fields. -/
structure ResolverJob where
  conn : Option ConnId
  notifyFd : Option Fd
  host : List UInt8
  port : List UInt8
  running : Bool
  completed : Bool
  canceled : Bool
  deriving DecidableEq

/-- The fields of `struct socks5_conn` shared with the pool. An empty `resolution` is `NULL`. -/
structure Slot where
  references : Int
  resolverJob : Option JobId
  resolverDone : Bool
  resolverError : Int
  resolution : List Sockaddr
  deriving DecidableEq

/-- Where a resolver thread stands. -/
inductive Worker where
  | idle
  | resolving (job : JobId) (canceled : Bool)
  | notifying (fd : Fd)
  | exited
  deriving DecidableEq

/-- The file-level variables of `socks5_resolver.c`, the heap of jobs and the threads. `frees`
counts how often every job was passed to `free`. -/
structure Pool where
  jobs : JobId → Option ResolverJob
  next : JobId → Option JobId
  nextAll : JobId → Option JobId
  nextJob : JobId
  frees : JobId → Nat
  slots : ConnId → Option Slot
  queueHead : Option JobId
  queueTail : Option JobId
  allJobs : Option JobId
  jobsInSystem : Nat
  started : Bool
  stopping : Bool
  workers : Fin RESOLVER_WORKERS → Worker

/-- Before the first `socks5_resolver_pool_start`. -/
def Pool.initial : Pool where
  jobs := fun _ => none
  next := fun _ => none
  nextAll := fun _ => none
  nextJob := 0
  frees := fun _ => 0
  slots := fun _ => none
  queueHead := none
  queueTail := none
  allJobs := none
  jobsInSystem := 0
  started := false
  stopping := false
  workers := fun _ => .exited

/-- As `main()` leaves the pool before the first client: started, with nothing to do. -/
def Pool.ready : Pool := { Pool.initial with started := true, workers := fun _ => .idle }

abbrev PoolM := Prog Pool Fault

namespace Pool

/-- Read a job through a pointer. -/
def job (j : JobId) : PoolM ResolverJob := do
  match (← get).jobs j with
  | some job => pure job
  | none => throw .useAfterFree

/-- Write fields of a job through a pointer. -/
def modifyJob (j : JobId) (change : ResolverJob → ResolverJob) : PoolM Unit := do
  let old ← job j
  modify fun p => { p with jobs := Function.update p.jobs j (some (change old)) }

/-- Read a connection through a pointer. -/
def slot (c : ConnId) : PoolM Slot := do
  match (← get).slots c with
  | some slot => pure slot
  | none => throw .useAfterFree

/-- Write fields of a connection through a pointer. -/
def modifySlot (c : ConnId) (change : Slot → Slot) : PoolM Unit := do
  let old ← slot c
  modify fun p => { p with slots := Function.update p.slots c (some (change old)) }

/-- `free(job)`. -/
def freeJob (j : JobId) : PoolM Unit := do
  let _ ← job j
  modify fun p =>
    { p with
      jobs := Function.update p.jobs j none
      frees := Function.update p.frees j (p.frees j + 1) }

/-- Follow a list from a pointer to its `target`: the node whose link field points at it, with
`none` inside for the list head itself. The bound exceeds the length of every list there can be. -/
def findLink (link : Pool → JobId → Option JobId) (target : JobId) :
    Nat → Option JobId → Option JobId → PoolM (Option (Option JobId))
  | _, _, none => pure none
  | 0, _, some _ => throw .unbounded
  | rounds + 1, before, some current =>
      if current = target then pure (some before)
      else do
        let _ ← job current
        let p ← get
        findLink link target rounds (some current) (link p current)

end Pool

open Pool

/-- `resolver_all_add_locked`. -/
def resolverAllAdd (j : JobId) : PoolM Unit := do
  let _ ← job j
  modify fun p =>
    { p with nextAll := Function.update p.nextAll j p.allJobs, allJobs := some j }

/-- `resolver_all_remove_locked`. -/
def resolverAllRemove (j : JobId) : PoolM Unit := do
  let p ← get
  match ← findLink Pool.nextAll j p.nextJob none p.allJobs with
  | none => pure ()
  | some none => do
      let _ ← job j
      modify fun p =>
        { p with allJobs := p.nextAll j, nextAll := Function.update p.nextAll j none }
  | some (some before) => do
      let _ ← job before
      let _ ← job j
      modify fun p =>
        { p with
          nextAll := Function.update (Function.update p.nextAll before (p.nextAll j)) j none }

/-- `resolver_queue_push_locked`. -/
def resolverQueuePush (j : JobId) : PoolM Unit := do
  let _ ← job j
  match (← get).queueTail with
  | none =>
      modify fun p =>
        { p with
          next := Function.update p.next j none
          queueHead := some j
          queueTail := some j }
  | some tail => do
      let _ ← job tail
      modify fun p =>
        { p with
          next := Function.update (Function.update p.next j none) tail (some j)
          queueTail := some j }

/-- `resolver_queue_pop_locked`. -/
def resolverQueuePop : PoolM (Option JobId) := do
  match (← get).queueHead with
  | none => pure none
  | some j => do
      let _ ← job j
      modify fun p =>
        { p with
          queueHead := p.next j
          queueTail := if p.next j = none then none else p.queueTail
          next := Function.update p.next j none }
      pure (some j)

/-- The loop of `resolver_queue_remove_locked` that looks for the new tail. -/
def lastQueued : Nat → Option JobId → Option JobId → PoolM (Option JobId)
  | _, tail, none => pure tail
  | 0, _, some _ => throw .unbounded
  | rounds + 1, _, some q => do
      let _ ← job q
      let p ← get
      lastQueued rounds (some q) (p.next q)

/-- `resolver_queue_remove_locked`, after the link to the job was redirected. -/
def dropQueued (j : JobId) : PoolM Unit := do
  let p ← get
  if p.queueTail = some j then
    let tail ← lastQueued p.nextJob none p.queueHead
    modify fun p => { p with queueTail := tail }
  let _ ← job j
  modify fun p => { p with next := Function.update p.next j none }

/-- `resolver_queue_remove_locked`. -/
def resolverQueueRemove (j : JobId) : PoolM Unit := do
  let p ← get
  match ← findLink Pool.next j p.nextJob none p.queueHead with
  | none => pure ()
  | some none => do
      let _ ← job j
      modify fun p => { p with queueHead := p.next j }
      dropQueued j
  | some (some before) => do
      let _ ← job before
      let _ ← job j
      modify fun p => { p with next := Function.update p.next before (p.next j) }
      dropQueued j

/-- First section of `resolver_worker_run`: wait for a job, or leave when the pool stops. -/
def resolverWorkerPop (w : Fin RESOLVER_WORKERS) : PoolM Unit := do
  let p ← get
  match p.queueHead with
  | none =>
      if p.stopping then
        modify fun p => { p with workers := Function.update p.workers w .exited }
  | some _ =>
      match ← resolverQueuePop with
      | none => pure ()
      | some j => do
          modifyJob j fun job => { job with running := true }
          let taken ← job j
          modify fun p =>
            { p with
              workers :=
                Function.update p.workers w (.resolving j (taken.canceled || p.stopping)) }

/-- The result a worker brings to its second section: a job found canceled was never looked up. -/
def lookupResult (canceled : Bool) (answer : LookupAnswer) : Int × List Sockaddr :=
  if canceled then (EAI_FAIL, [])
  else (answer.rc, if answer.rc ≠ 0 then [] else answer.addresses)

/-- Where a worker stands after publishing: a result that was wanted is announced. -/
def afterPublishing (canceled : Bool) (notifyFd : Option Fd) : Worker :=
  if canceled then .idle
  else
    match notifyFd with
    | some fd => .notifying fd
    | none => .idle

/-- Second section of `resolver_worker_run`: publish the result, or drop a detached job. -/
def resolverWorkerFinish (w : Fin RESOLVER_WORKERS) (j : JobId) (rc : Int)
    (resolution : List Sockaddr) : PoolM Unit := do
  modifyJob j fun job => { job with running := false }
  let finished ← job j
  let canceled := finished.canceled || (← get).stopping
  match finished.conn with
  | some c => do
      if canceled then
        modifySlot c fun slot => { slot with resolverError := EAI_FAIL, resolverDone := true }
      else
        modifySlot c fun slot =>
          { slot with resolution, resolverError := rc, resolverDone := true }
      modifyJob j fun job => { job with completed := true }
      modify fun p =>
        { p with
          workers := Function.update p.workers w (afterPublishing canceled finished.notifyFd) }
  | none => do
      resolverAllRemove j
      modify fun p => { p with jobsInSystem := p.jobsInSystem - 1 }
      freeJob j
      modify fun p => { p with workers := Function.update p.workers w .idle }

/-- A step of a resolver thread as far as the pool is concerned; a notification yields the
descriptor to be put on the selector's list. -/
def resolverWorkerStep : WorkerStep → PoolM (Option Fd)
  | .pop w => do
      match (← get).workers w with
      | .idle => resolverWorkerPop w
      | _ => pure ()
      pure none
  | .finish w answer => do
      match (← get).workers w with
      | .resolving j canceled => do
          let (rc, resolution) := lookupResult canceled answer
          resolverWorkerFinish w j rc resolution
      | _ => pure ()
      pure none
  | .notify w allocated => do
      match (← get).workers w with
      | .notifying fd => do
          modify fun p => { p with workers := Function.update p.workers w .idle }
          pure (if allocated then some fd else none)
      | _ => pure none

/-- `socks5_resolver_pool_start`; `created` says whether all threads could be created. Threads of a
failed start leave without finding a job. -/
def socks5ResolverPoolStart (created : Bool) : PoolM Bool := do
  if (← get).started then
    modify fun p => { p with stopping := false }
    pure true
  else if created then
    modify fun p => { p with stopping := false, started := true, workers := fun _ => .idle }
    pure true
  else
    modify fun p => { p with stopping := true }
    pure false

/-- `calloc` of a job and the assignments made before taking the lock. -/
def allocJob (job : ResolverJob) : PoolM JobId := do
  let p ← get
  let j := p.nextJob
  set { p with jobs := Function.update p.jobs j (some job), nextJob := j + 1 }
  pure j

/-- The `char` buffers `host[256]` and `port[6]` filled by `snprintf`. -/
def snprintfText (capacity : Nat) (text : List UInt8) : List UInt8 := text.take (capacity - 1)

/-- `socks5_resolver_queue_job`. -/
def socks5ResolverQueueJob (c : ConnId) (clientFd : Option Fd) (host port : List UInt8)
    (created allocated : Bool) : PoolM Bool := do
  if !(← socks5ResolverPoolStart created) then pure false
  else if !allocated then pure false
  else do
    let j ← allocJob
      { conn := some c
        notifyFd := clientFd
        host := snprintfText 256 host
        port := snprintfText 6 port
        running := false
        completed := false
        canceled := false }
    let p ← get
    let owner ← slot c
    if p.stopping || RESOLVER_MAX_JOBS ≤ p.jobsInSystem || owner.resolverJob.isSome then do
      freeJob j
      pure false
    else do
      modifySlot c fun slot =>
        { slot with
          references := slot.references + 1
          resolverJob := some j
          resolverDone := false
          resolverError := 0 }
      modify fun p => { p with jobsInSystem := p.jobsInSystem + 1 }
      resolverAllAdd j
      resolverQueuePush j
      pure true

/-- `socks5_resolver_cancel_conn`. -/
def socks5ResolverCancelConn (c : ConnId) : PoolM Unit := do
  match (← slot c).resolverJob with
  | none => pure ()
  | some j => do
      modifyJob j fun job => { job with canceled := true, conn := none }
      modifySlot c fun slot =>
        { slot with resolverJob := none, references := slot.references - 1 }
      if !(← job j).running then
        resolverQueueRemove j
        resolverAllRemove j
        modify fun p => { p with jobsInSystem := p.jobsInSystem - 1 }
        freeJob j

/-- `socks5_resolver_take_completed`. -/
def socks5ResolverTakeCompleted (c : ConnId) : PoolM Bool := do
  let owner ← slot c
  match owner.resolverJob with
  | none => pure owner.resolverDone
  | some j => do
      if (← job j).completed then
        resolverAllRemove j
        modify fun p => { p with jobsInSystem := p.jobsInSystem - 1 }
        modifySlot c fun slot =>
          { slot with resolverJob := none, references := slot.references - 1 }
        freeJob j
        pure owner.resolverDone
      else pure false

/-- `socks5_resolver_is_completed`. -/
def socks5ResolverIsCompleted (c : ConnId) : PoolM Bool := do
  pure (← slot c).resolverDone

/-- The loop of `socks5_resolver_pool_stop` that cancels every job. -/
def cancelAll : Nat → Option JobId → PoolM Unit
  | _, none => pure ()
  | 0, some _ => throw .unbounded
  | rounds + 1, some j => do
      modifyJob j fun job => { job with canceled := true }
      let p ← get
      cancelAll rounds (p.nextAll j)

/-- First section of `socks5_resolver_pool_stop`: `false` when there is nothing to stop. -/
def socks5ResolverPoolStopBegin : PoolM Bool := do
  let p ← get
  if !p.started then pure false
  else do
    set { p with stopping := true }
    cancelAll p.nextJob p.allJobs
    pure true

/-- Second section of `socks5_resolver_pool_stop`, after every thread was joined; it yields the list
of jobs to release. -/
def socks5ResolverPoolStopEnd : PoolM (Option JobId) := do
  let p ← get
  set
    { p with
      allJobs := none
      queueHead := none
      queueTail := none
      jobsInSystem := 0
      started := false
      stopping := false }
  pure p.allJobs

/-- One round of `resolver_release_job_list`: detach the job from the connection that still owns it,
and tell which connection that was and which job follows. -/
def detachJob (j : JobId) : PoolM (Option ConnId × Option JobId) := do
  let released ← job j
  let following := (← get).nextAll j
  match released.conn with
  | none => pure (none, following)
  | some c => do
      if (← slot c).resolverJob = some j then
        modifySlot c fun slot =>
          { slot with resolverJob := none, references := slot.references - 1 }
        pure (some c, following)
      else pure (none, following)

/-- `resolver_release_job_list`. Its calls of `socks5_conn_free_if_unreferenced`, one for every
connection that lost its job, are handed to the caller: nothing in the loop looks at such a
connection again. -/
def resolverReleaseJobList : Nat → Option JobId → PoolM (List ConnId)
  | _, none => pure []
  | 0, some _ => throw .unbounded
  | rounds + 1, some j => do
      let (owner, following) ← detachJob j
      freeJob j
      let others ← resolverReleaseJobList rounds following
      pure (owner.toList ++ others)

/-- `socks5_resolver_pool_stop` from the join of the threads on. -/
def socks5ResolverPoolStopJoined : PoolM (List ConnId) := do
  let jobs ← socks5ResolverPoolStopEnd
  resolverReleaseJobList (← get).nextJob jobs

end SocksProxy
