import Mathlib.Data.List.Nodup
import Mathlib.Data.List.Range
import SocksProxy.Library.Chain
import SocksProxy.Server.Resolver

/-!
# Safety of the resolver pool

The invariant of the pool and its preservation by every critical section. A job
is in exactly one of three stages: queued, held by one thread, or completed; a
job whose connection went away is necessarily held by a thread, which is the
one to free it. The invariant is stated for the two node lists the link fields
describe, and each section says what it does to them.
-/

namespace SocksProxy

namespace Pool

variable {p : Pool} {j : JobId} {c : ConnId} {s : Slot} {found : ResolverJob}

open Prog

@[simp]
theorem wp_job {post : ResolverJob → Pool → Prop} :
    wp (job j) post p ↔ ∃ found, p.jobs j = some found ∧ post found p := by
  cases present : p.jobs j <;> simp [job, present]

@[simp]
theorem wp_slot {post : Slot → Pool → Prop} :
    wp (slot c) post p ↔ ∃ found, p.slots c = some found ∧ post found p := by
  cases present : p.slots c <;> simp [slot, present]

@[simp]
theorem wp_modifyJob {change : ResolverJob → ResolverJob} {post : Unit → Pool → Prop} :
    wp (modifyJob j change) post p ↔ ∃ found, p.jobs j = some found ∧
      post () { p with jobs := Function.update p.jobs j (some (change found)) } := by
  simp [modifyJob]

@[simp]
theorem wp_modifySlot {change : Slot → Slot} {post : Unit → Pool → Prop} :
    wp (modifySlot c change) post p ↔ ∃ found, p.slots c = some found ∧
      post () { p with slots := Function.update p.slots c (some (change found)) } := by
  simp [modifySlot]

@[simp]
theorem wp_freeJob {post : Unit → Pool → Prop} :
    wp (freeJob j) post p ↔ ∃ found, p.jobs j = some found ∧
      post () { p with
        jobs := Function.update p.jobs j none
        frees := Function.update p.frees j (p.frees j + 1) } := by
  simp [freeJob]

/-- Every job of a list can be dereferenced. -/
def Alive (p : Pool) (nodes : List JobId) : Prop := ∀ j ∈ nodes, ∃ found, p.jobs j = some found

theorem Alive.update {p q : Pool} {nodes : List JobId} (alive : Alive p nodes)
    (jobs : q.jobs = Function.update p.jobs j (some found)) : Alive q (j :: nodes) := by
  intro i member
  rw [jobs]
  by_cases same : i = j
  · exact ⟨found, by rw [same, Function.update_self]⟩
  · rw [Function.update_of_ne same]
    exact alive i ((List.mem_cons.mp member).resolve_left same)

theorem Alive.of_cons {nodes : List JobId} (alive : Alive p (j :: nodes)) : Alive p nodes :=
  fun i member => alive i (List.mem_cons_of_mem j member)

theorem wp_findLink_of_notMem {link : Pool → JobId → Option JobId} {target : JobId} {rounds : Nat}
    {before start : Option JobId} {nodes : List JobId} {post : Option (Option JobId) → Pool → Prop}
    (chain : Chain (link p) start nodes) (alive : Alive p nodes) (enough : nodes.length ≤ rounds)
    (absent : target ∉ nodes) (holds : post none p) :
    wp (findLink link target rounds before start) post p := by
  induction nodes generalizing rounds before start with
  | nil =>
      cases chain
      cases rounds <;> simpa [findLink] using holds
  | cons node rest ih =>
      rcases chain with ⟨rfl, chain⟩
      rcases alive node (by simp) with ⟨found, present⟩
      cases rounds with
      | zero => simp at enough
      | succ rounds =>
          have other : node ≠ target := by
            rintro rfl
            exact absent (by simp)
          simp only [findLink, other, if_false, wp_bind, wp_job, wp_get]
          refine ⟨found, present, ih chain ?_ ?_ ?_⟩
          · exact fun j member => alive j (by simp [member])
          · simpa using enough
          · exact fun member => absent (by simp [member])

/-- The search finds the link that points at its target: that of the last node before it. -/
theorem wp_findLink_of_mem {link : Pool → JobId → Option JobId} {target : JobId} {rounds : Nat}
    {before start : Option JobId} {front back : List JobId}
    {post : Option (Option JobId) → Pool → Prop}
    (chain : Chain (link p) start (front ++ target :: back)) (alive : Alive p front)
    (enough : front.length < rounds) (absent : target ∉ front)
    (holds : post (some (front.getLast?.or before)) p) :
    wp (findLink link target rounds before start) post p := by
  induction front generalizing rounds before start with
  | nil =>
      cases chain.1
      cases rounds with
      | zero => simp at enough
      | succ rounds => simpa [findLink] using holds
  | cons node rest ih =>
      rcases chain with ⟨rfl, chain⟩
      rcases alive node (by simp) with ⟨found, present⟩
      cases rounds with
      | zero => simp at enough
      | succ rounds =>
          have other : node ≠ target := by
            rintro rfl
            exact absent (by simp)
          simp only [findLink, other, if_false, wp_bind, wp_job, wp_get]
          refine ⟨found, present, ih chain ?_ ?_ ?_ ?_⟩
          · exact fun j member => alive j (by simp [member])
          · simpa using enough
          · exact fun member => absent (by simp [member])
          · rw [List.getLast?_cons] at holds
            cases tail : rest.getLast? <;> simpa [tail] using holds

theorem wp_lastQueued {rounds : Nat} {tail start : Option JobId} {nodes : List JobId}
    {post : Option JobId → Pool → Prop} (chain : Chain p.next start nodes) (alive : Alive p nodes)
    (enough : nodes.length ≤ rounds) (holds : post (nodes.getLast?.or tail) p) :
    wp (lastQueued rounds tail start) post p := by
  induction nodes generalizing rounds tail start with
  | nil =>
      cases chain
      cases rounds <;> simpa [lastQueued] using holds
  | cons node rest ih =>
      rcases chain with ⟨rfl, chain⟩
      rcases alive node (by simp) with ⟨found, present⟩
      cases rounds with
      | zero => simp at enough
      | succ rounds =>
          simp only [lastQueued, wp_bind, wp_job, wp_get]
          refine ⟨found, present, ih chain ?_ ?_ ?_⟩
          · exact fun j member => alive j (by simp [member])
          · simpa using enough
          · rw [List.getLast?_cons] at holds
            cases last : rest.getLast? <;> simpa [last] using holds

theorem wp_resolverAllRemove {all : List JobId} {post : Unit → Pool → Prop}
    (chain : Chain p.nextAll p.allJobs all) (alive : Alive p all) (enough : all.length ≤ p.nextJob)
    (member : j ∈ all)
    (holds : ∀ head links, Chain links head (all.erase j) →
      post () { p with allJobs := head, nextAll := links }) : wp (resolverAllRemove j) post p := by
  rcases List.append_of_mem member with ⟨front, back, rfl⟩
  have absent := chain.notMem_append
  rw [List.mem_append, not_or] at absent
  rcases absent with ⟨absent, later⟩
  rcases alive j member with ⟨found, present⟩
  rw [List.erase_append_right _ absent, List.erase_cons_head] at holds
  unfold resolverAllRemove
  simp only [wp_bind, wp_get]
  refine wp_findLink_of_mem chain (fun i earlier => alive i (by simp [earlier])) ?_ absent ?_
  · simp only [List.length_append, List.length_cons] at enough
    omega
  · rcases List.eq_nil_or_concat front with rfl | ⟨init, before, rfl⟩
    · simp only [List.getLast?_nil, Option.none_or, wp_bind, wp_job, wp_modify]
      exact ⟨found, present, holds _ _ (chain.2.update_of_notMem later)⟩
    · rcases alive before (by simp) with ⟨other, otherPresent⟩
      simp only [List.concat_eq_append, List.getLast?_append, List.getLast?_singleton,
        Option.some_or, wp_bind, wp_job, wp_modify]
      refine ⟨other, otherPresent, found, present, holds _ _ ?_⟩
      rw [List.concat_eq_append, List.append_assoc] at *
      refine Chain.update_of_notMem chain.bypass ?_
      simp only [List.mem_append, List.cons_append, List.nil_append, List.mem_cons] at *
      tauto

theorem wp_dropQueued {rest : List JobId} {post : Unit → Pool → Prop}
    (chain : Chain p.next p.queueHead rest) (alive : Alive p (j :: rest))
    (enough : rest.length ≤ p.nextJob) (absent : j ∉ rest)
    (tail : p.queueTail ≠ some j → p.queueTail = rest.getLast?)
    (holds : ∀ links, Chain links p.queueHead rest →
      post () { p with next := links, queueTail := rest.getLast? }) : wp (dropQueued j) post p := by
  rcases alive j (by simp) with ⟨found, present⟩
  have unlinked : Chain (Function.update p.next j none) p.queueHead rest :=
    chain.update_of_notMem absent
  have reset := holds _ unlinked
  unfold dropQueued
  simp only [wp_bind, wp_get, wp_ite]
  split
  · refine wp_lastQueued chain (fun i member => alive i (by simp [member])) enough ?_
    simpa [present] using reset
  · rename_i other
    rw [← tail other] at reset
    simpa [present] using reset

theorem wp_resolverQueueRemove {queue : List JobId} {post : Unit → Pool → Prop}
    (chain : Chain p.next p.queueHead queue) (alive : Alive p queue)
    (enough : queue.length ≤ p.nextJob) (tail : p.queueTail = queue.getLast?)
    (holds : ∀ head links, Chain links head (queue.erase j) →
      post () { p with
        queueHead := head, next := links, queueTail := (queue.erase j).getLast? }) :
    wp (resolverQueueRemove j) post p := by
  by_cases member : j ∈ queue
  case neg =>
    rw [List.erase_of_not_mem member, ← tail] at holds
    unfold resolverQueueRemove
    simp only [wp_bind, wp_get]
    exact wp_findLink_of_notMem chain alive enough member ((wp_pure ..).mpr (holds _ _ chain))
  rcases List.append_of_mem member with ⟨front, back, rfl⟩
  have missing := chain.notMem_append
  have absent : j ∉ front := fun earlier => missing (by simp [earlier])
  have shorter : (front ++ back).length ≤ p.nextJob := by
    simp only [List.length_append, List.length_cons] at enough ⊢
    omega
  have stillAlive : Alive p (j :: (front ++ back)) := by
    intro i inside
    apply alive i
    simp only [List.mem_cons, List.mem_append] at inside ⊢
    tauto
  have sameTail : p.queueTail ≠ some j → p.queueTail = (front ++ back).getLast? := by
    intro other
    rw [tail] at other ⊢
    rcases List.eq_nil_or_concat back with rfl | ⟨init, last, rfl⟩
    · simp at other
    · rw [List.concat_eq_append, ← List.cons_append, ← List.append_assoc, ← List.append_assoc,
        List.getLast?_concat, List.getLast?_concat]
  rcases alive j member with ⟨found, present⟩
  rw [List.erase_append_right _ absent, List.erase_cons_head] at holds
  unfold resolverQueueRemove
  simp only [wp_bind, wp_get]
  refine wp_findLink_of_mem chain (fun i earlier => alive i (by simp [earlier])) ?_ absent ?_
  · simp only [List.length_append, List.length_cons] at enough
    omega
  · -- The link to `j` is the queue's head or the `next` field of the job before it.
    rcases List.eq_nil_or_concat front with rfl | ⟨init, before, rfl⟩
    · simp only [List.getLast?_nil, Option.none_or, wp_bind, wp_job, wp_modify]
      refine ⟨found, present, ?_⟩
      exact wp_dropQueued chain.2 stillAlive shorter missing sameTail
        (fun links relinked => holds _ links relinked)
    · rcases alive before (by simp) with ⟨other, otherPresent⟩
      simp only [List.concat_eq_append, List.getLast?_append, List.getLast?_singleton,
        Option.some_or, wp_bind, wp_job, wp_modify]
      refine ⟨other, otherPresent, found, present, ?_⟩
      rw [List.concat_eq_append] at chain stillAlive shorter missing sameTail holds
      rw [List.append_assoc] at chain
      have bypassed : Chain (Function.update p.next before (p.next j)) p.queueHead
          (init ++ [before] ++ back) := by
        rw [List.append_assoc]
        exact chain.bypass
      exact wp_dropQueued bypassed stillAlive shorter missing sameTail
        (fun links relinked => holds _ links relinked)

theorem wp_resolverQueuePush {queue : List JobId} {post : Unit → Pool → Prop}
    (chain : Chain p.next p.queueHead queue) (alive : Alive p (j :: queue))
    (tail : p.queueTail = queue.getLast?) (absent : j ∉ queue)
    (holds : ∀ head links, Chain links head (queue ++ [j]) →
      post () { p with queueHead := head, next := links, queueTail := some j }) :
    wp (resolverQueuePush j) post p := by
  rcases alive j (by simp) with ⟨found, present⟩
  unfold resolverQueuePush
  simp only [wp_bind, wp_get, wp_job]
  refine ⟨found, present, ?_⟩
  rcases List.eq_nil_or_concat queue with rfl | ⟨front, last, rfl⟩
  · rw [List.getLast?_nil] at tail
    simp only [tail, wp_modify]
    exact holds _ _ ⟨rfl, by simp⟩
  · rcases alive last (by simp) with ⟨other, otherPresent⟩
    rw [List.concat_eq_append] at *
    rw [List.getLast?_concat] at tail
    simp only [tail, wp_bind, wp_job, wp_modify]
    exact ⟨other, otherPresent, holds _ _ (chain.snoc absent)⟩

/-- The invariant of the pool, for the jobs on the list of all jobs and on the queue. -/
structure Inv (p : Pool) (all queue : List JobId) : Prop where
  allChain : Chain p.nextAll p.allJobs all
  queueChain : Chain p.next p.queueHead queue
  tail : p.queueTail = queue.getLast?
  heap : ∀ j, (p.jobs j).isSome = true ↔ j ∈ all
  count : p.jobsInSystem = all.length
  bound : all.length ≤ RESOLVER_MAX_JOBS
  fresh : ∀ j ∈ all, j < p.nextJob
  order : queue.Sublist all.reverse
  frees : ∀ j, p.frees j = if j < p.nextJob ∧ j ∉ all then 1 else 0
  owner : ∀ j found c, p.jobs j = some found → found.conn = some c →
    (p.slots c).bind Slot.resolverJob = some j
  owned : ∀ c s j, p.slots c = some s → s.resolverJob = some j → j ∈ all ∧
    ∀ found, p.jobs j = some found → found.conn = some c ∧ s.resolverDone = found.completed
  queued : ∀ j found, p.jobs j = some found →
    (j ∈ queue ↔ found.running = false ∧ found.completed = false)
  running : ∀ j found, p.jobs j = some found →
    (found.running = true ↔ ∃ w canceled, p.workers w = .resolving j canceled)
  stage : ∀ j found, p.jobs j = some found → found.completed = true → found.running = false
  detached : ∀ j found, p.jobs j = some found → found.conn = none → found.running = true
  working : ∀ w j canceled, p.workers w = .resolving j canceled → j ∈ all
  exclusive : ∀ w w' j canceled canceled', p.workers w = .resolving j canceled →
    p.workers w' = .resolving j canceled' → w = w'
  unstarted : p.started = false → all = [] ∧ ∀ w, p.workers w = .exited

namespace Inv

variable {all queue : List JobId}

theorem allAlive (inv : Inv p all queue) : Alive p all := fun j member =>
  Option.isSome_iff_exists.mp ((inv.heap j).mpr member)

theorem mem_all_of_mem_queue (inv : Inv p all queue) (member : j ∈ queue) : j ∈ all := by
  simpa using inv.order.subset member

theorem queueAlive (inv : Inv p all queue) : Alive p queue :=
  fun j member => inv.allAlive j (inv.mem_all_of_mem_queue member)

theorem length_all_le (inv : Inv p all queue) : all.length ≤ p.nextJob := by
  have inside : all ⊆ List.range p.nextJob := fun j member =>
    List.mem_range.mpr (inv.fresh j member)
  simpa using (List.subperm_of_subset inv.allChain.nodup inside).length_le

theorem length_queue_le (inv : Inv p all queue) : queue.length ≤ p.nextJob := by
  have shorter := inv.order.length_le
  rw [List.length_reverse] at shorter
  exact Nat.le_trans shorter inv.length_all_le

/-- A thread takes the first queued job. -/
theorem pop {w : Fin RESOLVER_WORKERS} {rest : List JobId} {canceled : Bool}
    (inv : Inv p all (j :: rest)) (present : p.jobs j = some found) (idle : p.workers w = .idle) :
    Inv { p with
      jobs := Function.update p.jobs j (some { found with running := true })
      queueHead := p.next j
      queueTail := if p.next j = none then none else p.queueTail
      next := Function.update p.next j none
      workers := Function.update p.workers w (.resolving j canceled) } all rest := by
  have absent : j ∉ rest := (List.nodup_cons.mp inv.queueChain.nodup).1
  have waiting := (inv.queued j found present).mp (by simp)
  have unheld : ∀ w' canceled', p.workers w' ≠ .resolving j canceled' := by
    intro w' canceled' held
    have := (inv.running j found present).mpr ⟨w', canceled', held⟩
    simp [waiting.1] at this
  refine { inv with queueChain := ?queueChain, tail := ?tail, order := ?order, running := ?running,
                    heap := ?heap, unstarted := ?unstarted, exclusive := ?exclusive,
                    working := ?working, queued := ?queued, stage := ?stage, detached := ?detached,
                    owner := ?owner, owned := ?owned }
  case queueChain => exact inv.queueChain.2.update_of_notMem absent
  case tail =>
    have following := inv.queueChain.2.head?_eq
    rw [inv.tail]
    cases rest with
    | nil => simp_all
    | cons first others => simp_all
  case order => exact (List.sublist_cons_self j rest).trans inv.order
  case running =>
    intro i held heldPresent
    by_cases same : i = j
    · subst same
      simp only [Function.update_self, Option.some.injEq] at heldPresent
      subst heldPresent
      exact iff_of_true rfl ⟨w, canceled, by simp⟩
    · simp only [Function.update_of_ne same] at heldPresent
      rw [inv.running i held heldPresent]
      refine exists_congr fun w' => exists_congr fun canceled' => ?_
      grind
  case heap => have := inv.heap; grind
  case unstarted => have := inv.unstarted; grind
  case exclusive => have := inv.exclusive; grind
  case working => have := inv.working; have := inv.heap j; grind
  case queued => have := inv.queued; grind
  case stage => have := inv.stage; grind
  case detached => have := inv.detached; grind
  case owner => have := inv.owner; grind
  case owned => have := inv.owned; grind

/-- A thread publishes the result of a job whose connection is still there. -/
theorem publish {w : Fin RESOLVER_WORKERS} {canceled : Bool} {after : Worker} {error : Int}
    {resolution : List Sockaddr} (inv : Inv p all queue) (present : p.jobs j = some found)
    (conn : found.conn = some c) (owner : p.slots c = some s)
    (holds : p.workers w = .resolving j canceled)
    (released : ∀ i canceled', after ≠ .resolving i canceled') :
    Inv { p with
      jobs := Function.update p.jobs j (some { found with running := false, completed := true })
      slots := Function.update p.slots c
        (some { s with resolverDone := true, resolverError := error, resolution := resolution })
      workers := Function.update p.workers w after } all queue := by
  have held := (inv.running j found present).mpr ⟨w, canceled, holds⟩
  have owns := inv.owner j found c present conn
  refine { inv with running := ?running, heap := ?heap, unstarted := ?unstarted,
                    exclusive := ?exclusive, working := ?working, queued := ?queued,
                    stage := ?stage, detached := ?detached, owner := ?owner, owned := ?owned }
  case running =>
    intro i other otherPresent
    by_cases same : i = j
    · subst same
      simp only [Function.update_self, Option.some.injEq] at otherPresent
      subst otherPresent
      simp only [Bool.false_eq_true, false_iff, not_exists]
      intro w' canceled' still
      have := inv.exclusive w w' i canceled canceled' holds
      grind
    · simp only [Function.update_of_ne same] at otherPresent
      rw [inv.running i other otherPresent]
      refine exists_congr fun w' => exists_congr fun canceled' => ?_
      grind
  case heap => have := inv.heap; grind
  case unstarted => have := inv.unstarted; grind
  case exclusive => have := inv.exclusive; grind
  case working => have := inv.working; grind
  case queued => have := inv.queued; grind
  case stage => have := inv.stage; grind
  case detached => have := inv.detached; grind
  case owner => have := inv.owner; grind
  case owned => have := inv.owned; grind

/-- A job is unlinked from both lists and freed, together with what the workers and its connection
knew of it. -/
theorem drop {slots : ConnId → Option Slot} {workers : Fin RESOLVER_WORKERS → Worker}
    {head queueHead : Option JobId} {links next : JobId → Option JobId} (inv : Inv p all queue)
    (member : j ∈ all) (relinked : Chain links head (all.erase j))
    (requeued : Chain next queueHead (queue.erase j))
    (owner : ∀ i found c, i ≠ j → p.jobs i = some found → found.conn = some c → slots c = p.slots c)
    (owned : ∀ c s i, slots c = some s → s.resolverJob = some i → i ≠ j ∧ p.slots c = some s)
    (held : ∀ w i canceled, i ≠ j → (workers w = .resolving i canceled ↔
      p.workers w = .resolving i canceled))
    (unheld : ∀ w canceled, workers w ≠ .resolving j canceled) :
    Inv { p with
      jobs := Function.update p.jobs j none
      frees := Function.update p.frees j (p.frees j + 1)
      allJobs := head
      nextAll := links
      queueHead := queueHead
      next := next
      queueTail := (queue.erase j).getLast?
      jobsInSystem := p.jobsInSystem - 1
      slots := slots
      workers := workers } (all.erase j) (queue.erase j) := by
  have distinct := inv.allChain.nodup
  have erased : ∀ i, i ∈ all.erase j ↔ i ≠ j ∧ i ∈ all := fun i => distinct.mem_erase_iff
  have unqueued : ∀ i, i ∈ queue.erase j ↔ i ≠ j ∧ i ∈ queue :=
    fun i => inv.queueChain.nodup.mem_erase_iff
  constructor
  case allChain => exact relinked
  case queueChain => exact requeued
  case tail => rfl
  case count => rw [List.length_erase_of_mem member, ← inv.count]
  case bound => exact Nat.le_trans List.length_erase_le inv.bound
  case order =>
    rw [distinct.erase_eq_filter, inv.queueChain.nodup.erase_eq_filter, ← List.filter_reverse]
    exact inv.order.filter _
  case frees =>
    intro i
    have := inv.frees i
    have := inv.fresh j member
    grind
  case running =>
    intro i other otherPresent
    have different : i ≠ j := by grind
    simp only [Function.update_of_ne different] at otherPresent
    rw [inv.running i other otherPresent]
    exact exists_congr fun w => exists_congr fun canceled => (held w i canceled different).symm
  case exclusive => have := inv.exclusive; grind
  case working => have := inv.working; grind
  case heap => have := inv.heap; grind
  case fresh => have := inv.fresh; grind
  case unstarted => have := inv.unstarted; grind
  case queued => have := inv.queued; grind
  case stage => have := inv.stage; grind
  case detached => have := inv.detached; grind
  case owner => have := inv.owner; grind
  case owned => have := inv.owned; grind

/-- A new job is linked into both lists. -/
theorem enqueue {next : JobId → Option JobId} {head : Option JobId} (inv : Inv p all queue)
    (new : j = p.nextJob) (started : p.started = true) (room : all.length < RESOLVER_MAX_JOBS)
    (owner : p.slots c = some s) (unowned : s.resolverJob = none) (conn : found.conn = some c)
    (waiting : found.running = false ∧ found.completed = false)
    (pushed : Chain next head (queue ++ [j])) :
    Inv { p with
      jobs := Function.update p.jobs j (some found)
      nextJob := j + 1
      slots := Function.update p.slots c
        (some
          { s with
            references := s.references + 1
            resolverJob := some j
            resolverDone := false
            resolverError := 0 })
      jobsInSystem := p.jobsInSystem + 1
      nextAll := Function.update p.nextAll j p.allJobs
      allJobs := some j
      next := next
      queueHead := head
      queueTail := some j } (j :: all) (queue ++ [j]) := by
  have absent : j ∉ all := fun member => Nat.lt_irrefl _ (new ▸ inv.fresh j member)
  have vacant : p.jobs j = none := by
    rw [← Option.not_isSome_iff_eq_none, inv.heap]
    exact absent
  constructor
  case allChain =>
    refine ⟨rfl, ?_⟩
    simp only [Function.update_self]
    exact inv.allChain.update_of_notMem absent
  case queueChain => exact pushed
  case tail => simp
  case count => simp [inv.count]
  case bound => exact room
  case order =>
    rw [List.reverse_cons]
    exact inv.order.append (List.Sublist.refl _)
  case running =>
    intro i other otherPresent
    by_cases same : i = j
    · subst same
      simp only [Function.update_self, Option.some.injEq] at otherPresent
      subst otherPresent
      have := inv.working
      grind
    · simp only [Function.update_of_ne same] at otherPresent
      exact inv.running i other otherPresent
  case heap => have := inv.heap; grind
  case fresh => have := inv.fresh; grind
  case frees => have := inv.frees; grind
  case owner => have := inv.owner; grind
  case owned => have := inv.owned; grind
  case queued =>
    have := inv.queued
    have notQueued : j ∉ queue := fun member => absent (inv.mem_all_of_mem_queue member)
    grind
  case stage => have := inv.stage; grind
  case detached => have := inv.detached; grind
  case working => have := inv.working; grind
  case unstarted => simp [started]
  case exclusive => exact inv.exclusive

/-- A connection gives up a job that a thread is working on. -/
theorem detach {references : Int} (inv : Inv p all queue) (owner : p.slots c = some s)
    (owns : s.resolverJob = some j) (present : p.jobs j = some found)
    (held : found.running = true) :
    Inv { p with
      jobs := Function.update p.jobs j (some { found with canceled := true, conn := none })
      slots := Function.update p.slots c
        (some { s with resolverJob := none, references := references }) } all queue := by
  have mine := (inv.owned c s j owner owns).2 found present
  refine { inv with running := ?running, heap := ?heap, owner := ?owner, owned := ?owned,
                    queued := ?queued, stage := ?stage, detached := ?detached }
  case running =>
    intro i other otherPresent
    have := inv.running i
    grind
  case heap => have := inv.heap; grind
  case owner => have := inv.owner; grind
  case owned => have := inv.owned; grind
  case queued => have := inv.queued; grind
  case stage => have := inv.stage; grind
  case detached => have := inv.detached; grind

/-- The main thread changes a connection without touching its job. -/
theorem reslot {slots : ConnId → Option Slot} (inv : Inv p all queue)
    (owner : ∀ c j, (p.slots c).bind Slot.resolverJob = some j →
      (slots c).bind Slot.resolverJob = some j)
    (owned : ∀ c s j, slots c = some s → s.resolverJob = some j →
      ∃ s', p.slots c = some s' ∧ s'.resolverJob = some j ∧ s'.resolverDone = s.resolverDone) :
    Inv { p with slots := slots } all queue := by
  refine { inv with owner := fun j found c present conn => ?owner, owned := ?owned }
  case owner => exact owner c j (inv.owner j found c present conn)
  case owned =>
    intro c s j present owns
    rcases owned c s j present owns with ⟨old, oldPresent, oldOwns, same⟩
    rw [← same]
    exact inv.owned c old j oldPresent oldOwns

/-- A thread moves between two positions in which it holds no job. -/
theorem reposition {workers : Fin RESOLVER_WORKERS → Worker} (inv : Inv p all queue)
    (held : ∀ w j canceled, workers w = .resolving j canceled ↔
      p.workers w = .resolving j canceled)
    (started : p.started = true) : Inv { p with workers := workers } all queue := by
  refine { inv with running := ?running, working := ?working, exclusive := ?exclusive,
                    unstarted := ?unstarted }
  case running =>
    intro j found present
    rw [inv.running j found present]
    exact exists_congr fun w => exists_congr fun canceled => (held w j canceled).symm
  case working => have := inv.working; grind
  case exclusive => have := inv.exclusive; grind
  case unstarted => simp [started]

theorem started_of_worker (inv : Inv p all queue) {w : Fin RESOLVER_WORKERS}
    (present : p.workers w ≠ .exited) : p.started = true := by
  by_contra off
  exact present ((inv.unstarted (by simpa using off)).2 w)

end Inv

/-- Some pair of lists witnesses the invariant. -/
def Ok (p : Pool) : Prop := ∃ all queue, Inv p all queue

/-- What a thread leaves in the connection a finished job belongs to: the result of the lookup, or a
failure if the job was canceled meanwhile. -/
def publishedSlot (s : Slot) (canceled : Bool) (result : Int × List Sockaddr) : Slot :=
  if canceled then { s with resolverError := EAI_FAIL, resolverDone := true }
  else { s with resolution := result.2, resolverError := result.1, resolverDone := true }

/-- The step of a resolver thread leaves `s` in the connection `c`: the thread finishes its job, and
the connection still owns it. -/
inductive Publishes (p : Pool) : WorkerStep → ConnId → Slot → Prop where
  | finish {w : Fin RESOLVER_WORKERS} {answer : LookupAnswer} {j : JobId} {canceled : Bool}
      {found : ResolverJob} {c : ConnId} {s : Slot} (holds : p.workers w = .resolving j canceled)
      (present : p.jobs j = some found) (conn : found.conn = some c) (owner : p.slots c = some s)
      (owns : s.resolverJob = some j) :
      Publishes p (.finish w answer) c
        (publishedSlot s (found.canceled || p.stopping) (lookupResult canceled answer))

/-- What a step of a resolver thread does to the connections: the one that owns the job the thread
has finished gets its result, and all others stay as they are. -/
structure WorkerFrame (step : WorkerStep) (p q : Pool) : Prop where
  delivered : ∀ c s, Publishes p step c s → q.slots c = some s
  untouched : ∀ c, (∀ s, ¬Publishes p step c s) → q.slots c = p.slots c

section

variable {step : WorkerStep} {q : Pool}

theorem WorkerFrame.of_slots_eq (same : q.slots = p.slots)
    (silent : ∀ c s, ¬Publishes p step c s) : WorkerFrame step p q where
  delivered c s published := absurd published (silent c s)
  untouched c _ := by rw [same]

theorem WorkerFrame.of_publishes (published : Publishes p step c s)
    (slots : q.slots = Function.update p.slots c (some s)) : WorkerFrame step p q where
  delivered c' s' published' := by
    cases published with
    | finish holds present conn owner _ =>
        cases published' with
        | finish holds' present' conn' owner' _ =>
            rw [holds] at holds'
            cases holds'
            rw [present] at present'
            cases present'
            rw [conn] at conn'
            cases conn'
            rw [owner] at owner'
            cases owner'
            rw [slots, Function.update_self]
  untouched c' silent := by
    have other : c' ≠ c := by
      rintro rfl
      exact silent s published
    rw [slots, Function.update_of_ne other]

/-- References and jobs of connections stay, whatever a thread does. -/
theorem WorkerFrame.kept (frame : WorkerFrame step p q) (c : ConnId) :
    (q.slots c).map Slot.references = (p.slots c).map Slot.references ∧
      (q.slots c).map Slot.resolverJob = (p.slots c).map Slot.resolverJob := by
  by_cases written : ∃ s, Publishes p step c s
  · rcases written with ⟨s, published⟩
    rw [frame.delivered c s published]
    cases published with
    | finish _ _ _ owner _ =>
        rw [owner]
        unfold publishedSlot
        split <;> exact ⟨rfl, rfl⟩
  · rw [frame.untouched c fun s published => written ⟨s, published⟩]
    exact ⟨rfl, rfl⟩

end

theorem wp_resolverWorkerPop {w : Fin RESOLVER_WORKERS} (ok : Ok p) (idle : p.workers w = .idle) :
    wp (resolverWorkerPop w) (fun _ q => Ok q ∧ q.slots = p.slots) p := by
  rcases ok with ⟨all, queue, inv⟩
  have started := inv.started_of_worker (by rw [idle]; simp)
  unfold resolverWorkerPop
  simp only [wp_bind, wp_get]
  cases queue with
  | nil =>
      have empty : p.queueHead = none := inv.queueChain
      simp only [empty, wp_ite, wp_modify, wp_pure]
      split
      · refine ⟨⟨all, [], ?_⟩, trivial⟩
        rw [← empty]
        refine inv.reposition ?_ started
        grind
      · exact ⟨⟨all, [], inv⟩, trivial⟩
  | cons j rest =>
      rcases inv.queueAlive j (by simp) with ⟨found, present⟩
      have head : p.queueHead = some j := inv.queueChain.1
      simp only [head, resolverQueuePop, wp_bind, wp_get, wp_job, wp_modify, wp_pure,
        wp_modifyJob]
      refine ⟨found, present, found, present, _, Function.update_self .., ?_⟩
      exact ⟨⟨all, rest, inv.pop present idle⟩, trivial⟩

theorem Inv.getLast?_erase_of_notMem {all queue : List JobId} (inv : Inv p all queue)
    (unqueued : j ∉ queue) :
    Chain p.next p.queueHead (queue.erase j) ∧ (queue.erase j).getLast? = p.queueTail := by
  rw [List.erase_of_not_mem unqueued]
  exact ⟨inv.queueChain, inv.tail.symm⟩

theorem afterPublishing_ne (canceled : Bool) (notifyFd : Option Fd) (j : JobId) (other : Bool) :
    afterPublishing canceled notifyFd ≠ .resolving j other := by
  cases canceled <;> cases notifyFd <;> simp [afterPublishing]

theorem wp_resolverWorkerFinish {w : Fin RESOLVER_WORKERS} {canceled : Bool} {answer : LookupAnswer}
    (ok : Ok p) (holds : p.workers w = .resolving j canceled) :
    wp (resolverWorkerFinish w j (lookupResult canceled answer).1 (lookupResult canceled answer).2)
      (fun _ q => Ok q ∧ WorkerFrame (.finish w answer) p q) p := by
  rcases ok with ⟨all, queue, inv⟩
  have member := inv.working w j canceled holds
  rcases inv.allAlive j member with ⟨found, present⟩
  have held := (inv.running j found present).mpr ⟨w, canceled, holds⟩
  unfold resolverWorkerFinish
  simp only [wp_bind, wp_get, wp_modifyJob, wp_job, Function.update_self]
  refine ⟨found, present, _, rfl, ?_⟩
  cases conn : found.conn with
  | some c =>
      have owns := inv.owner j found c present conn
      rcases Option.bind_eq_some_iff.mp owns with ⟨s, owner, job⟩
      have stored : ∀ error addresses, Ok { p with
            jobs := Function.update p.jobs j
              (some { found with running := false, completed := true })
            slots := Function.update p.slots c
              (some
                { s with
                  resolverDone := true, resolverError := error, resolution := addresses })
            workers := Function.update p.workers w
              (afterPublishing (found.canceled || p.stopping) found.notifyFd) } := by
        intro error addresses
        exact ⟨all, queue, inv.publish present conn owner holds (afterPublishing_ne _ _)⟩
      have published : Publishes p (.finish w answer) c _ := .finish holds present conn owner job
      unfold publishedSlot at published
      simp only [wp_bind, wp_modify, wp_modifyJob, wp_ite, wp_modifySlot]
      split
      · next gone =>
          rw [if_pos gone] at published
          refine ⟨s, owner, _, Function.update_self .., ?_, .of_publishes published rfl⟩
          simp only [Function.update_idem, ← conn]
          exact stored _ _
      · next wanted =>
          rw [if_neg wanted] at published
          refine ⟨s, owner, _, Function.update_self .., ?_, .of_publishes published rfl⟩
          simp only [Function.update_idem, ← conn]
          exact stored _ _
  | none =>
      have unqueued : j ∉ queue := by
        rw [inv.queued j found present, held]
        simp
      have silent : ∀ c s, ¬Publishes p (.finish w answer) c s := by
        rintro c s ⟨holds', present', conn', -, -⟩
        rw [holds] at holds'
        cases holds'
        rw [present] at present'
        cases present'
        rw [conn] at conn'
        cases conn'
      rw [wp_bind]
      refine wp_resolverAllRemove inv.allChain ?_ inv.length_all_le member ?_
      · exact (inv.allAlive.update rfl).of_cons
      · intro head links relinked
        simp only [wp_bind, wp_modify, wp_freeJob, Function.update_idem]
        refine ⟨_, Function.update_self .., ⟨all.erase j, queue.erase j, ?_⟩,
          .of_slots_eq rfl silent⟩
        rcases inv.getLast?_erase_of_notMem unqueued with ⟨requeued, sameTail⟩
        rw [← sameTail]
        refine inv.drop member relinked requeued (fun _ _ _ _ _ _ => rfl) ?_ ?_ ?_
        · intro c s i slotPresent owns
          refine ⟨?_, slotPresent⟩
          rintro rfl
          have := ((inv.owned c s i slotPresent owns).2 found present).1
          simp [conn] at this
        · grind
        · have := inv.exclusive w
          grind

/-- Whatever a resolver thread does next keeps the invariant. -/
theorem wp_resolverWorkerStep (ok : Ok p) (step : WorkerStep) :
    wp (resolverWorkerStep step) (fun _ q => Ok q ∧ WorkerFrame step p q) p := by
  cases step with
  | pop w =>
      have silent : ∀ c s, ¬Publishes p (.pop w) c s := by rintro c s ⟨⟩
      have unchanged : Ok p ∧ WorkerFrame (.pop w) p p := ⟨ok, .of_slots_eq rfl silent⟩
      simp only [resolverWorkerStep, wp_bind, wp_get]
      cases position : p.workers w with
      | idle =>
          simp only [wp_bind]
          refine wp_mono (wp_resolverWorkerPop ok position) ?_
          rintro _ q ⟨okay, same⟩
          exact (wp_pure ..).mpr ⟨okay, .of_slots_eq same silent⟩
      | resolving _ _ => simpa using unchanged
      | notifying _ => simpa using unchanged
      | exited => simpa using unchanged
  | finish w answer =>
      have unchanged (other : ∀ j canceled, p.workers w ≠ .resolving j canceled) :
          Ok p ∧ WorkerFrame (.finish w answer) p p := by
        refine ⟨ok, .of_slots_eq rfl ?_⟩
        rintro c s ⟨holds, -, -, -, -⟩
        exact other _ _ holds
      simp only [resolverWorkerStep, wp_bind, wp_get]
      cases position : p.workers w with
      | resolving j canceled => simpa using wp_resolverWorkerFinish ok position
      | idle => simpa using unchanged (by simp [position])
      | notifying _ => simpa using unchanged (by simp [position])
      | exited => simpa using unchanged (by simp [position])
  | notify w allocated =>
      have silent : ∀ c s, ¬Publishes p (.notify w allocated) c s := by rintro c s ⟨⟩
      have unchanged : Ok p ∧ WorkerFrame (.notify w allocated) p p :=
        ⟨ok, .of_slots_eq rfl silent⟩
      simp only [resolverWorkerStep, wp_bind, wp_get]
      cases position : p.workers w with
      | notifying fd =>
          rcases ok with ⟨all, queue, inv⟩
          have started := inv.started_of_worker (by rw [position]; simp)
          simp only [wp_bind, wp_modify, wp_pure]
          refine ⟨⟨all, queue, inv.reposition ?_ started⟩, .of_slots_eq rfl silent⟩
          grind
      | idle => simpa using unchanged
      | resolving _ _ => simpa using unchanged
      | exited => simpa using unchanged

/-- A section of the main thread on behalf of `c` leaves all other connections alone. -/
def OthersKept (c : ConnId) (p q : Pool) : Prop :=
  ∀ other, other ≠ c → q.slots other = p.slots other

theorem othersKept_of_update {p q : Pool} {s : Option Slot}
    (slots : q.slots = Function.update p.slots c s) : OthersKept c p q := by
  intro other different
  rw [slots, Function.update_of_ne different]

theorem Inv.setStopping {all queue : List JobId} (inv : Inv p all queue) (stopping : Bool) :
    Inv { p with stopping := stopping } all queue := { inv with }

theorem Inv.start {all queue : List JobId} (inv : Inv p all queue) (unstarted : p.started = false) :
    Inv { p with stopping := false, started := true, workers := fun _ => .idle } all queue := by
  rcases inv.unstarted unstarted with ⟨rfl, exited⟩
  refine { inv with running := ?_, working := by simp, exclusive := by simp, unstarted := by simp }
  intro j found present
  have impossible := (inv.heap j).mp (by rw [present]; rfl)
  simp at impossible

theorem wp_socks5ResolverPoolStart {created : Bool} (ok : Ok p) :
    wp (socks5ResolverPoolStart created)
      (fun running q => Ok q ∧ q.slots = p.slots ∧ (running = true → q.started = true)) p := by
  rcases ok with ⟨all, queue, inv⟩
  unfold socks5ResolverPoolStart
  simp only [wp_bind, wp_get, wp_ite, wp_modify, wp_pure]
  split
  · rename_i started
    exact ⟨⟨all, queue, inv.setStopping false⟩, by simpa using started⟩
  · rename_i unstarted
    split
    · exact ⟨⟨all, queue, inv.start (by simpa using unstarted)⟩, by simp⟩
    · exact ⟨⟨all, queue, inv.setStopping true⟩, by simp⟩

/-- A job that is allocated and freed again leaves a trace only in the counters. -/
theorem Inv.discard {all queue : List JobId} (inv : Inv p all queue) (new : j = p.nextJob)
    (found : Option ResolverJob) :
    Inv { p with
      jobs := Function.update (Function.update p.jobs j found) j none
      nextJob := j + 1
      frees := Function.update p.frees j (p.frees j + 1) } all queue := by
  have absent : j ∉ all := fun member => Nat.lt_irrefl _ (new ▸ inv.fresh j member)
  have vacant : p.jobs j = none := by
    rw [← Option.not_isSome_iff_eq_none, inv.heap]
    exact absent
  have unchanged : Function.update (Function.update p.jobs j found) j none = p.jobs := by
    rw [Function.update_idem, ← vacant, Function.update_eq_self]
  rw [unchanged]
  refine { inv with fresh := ?fresh, frees := ?frees }
  case fresh => have := inv.fresh; grind
  case frees => have := inv.frees; grind

/-- The slot of a connection that just queued a job. -/
def queuedSlot (s : Slot) (j : JobId) : Slot :=
  { s with
    references := s.references + 1
    resolverJob := some j
    resolverDone := false
    resolverError := 0 }

/-- Queueing either takes a reference for the new job or changes nothing. -/
theorem wp_socks5ResolverQueueJob {clientFd : Option Fd} {host port : List UInt8}
    {created allocated : Bool} (ok : Ok p) (owner : p.slots c = some s) :
    wp (socks5ResolverQueueJob c clientFd host port created allocated)
      (fun queued q => Ok q ∧ OthersKept c p q ∧
        if queued then s.resolverJob = none ∧ ∃ j, q.slots c = some (queuedSlot s j)
        else q.slots c = some s) p := by
  have refused : ∀ q : Pool, Ok q → q.slots = p.slots → Ok q ∧ OthersKept c p q ∧
      if false then s.resolverJob = none ∧ ∃ j, q.slots c = some (queuedSlot s j)
      else q.slots c = some s := by
    intro q okay same
    exact ⟨okay, fun other _ => by rw [same], by simpa [same] using owner⟩
  unfold socks5ResolverQueueJob
  rw [wp_bind]
  refine wp_mono (wp_socks5ResolverPoolStart ok) ?_
  rintro running q ⟨okay, same, started⟩
  rcases okay with ⟨all, queue, inv⟩
  cases running with
  | false => simpa using refused q ⟨all, queue, inv⟩ same
  | true =>
      cases allocated with
      | false => simpa using refused q ⟨all, queue, inv⟩ same
      | true =>
          simp only [Bool.not_true, Bool.false_eq_true, if_false, wp_bind, allocJob, wp_get, wp_set,
            wp_pure, wp_slot, wp_ite]
          refine ⟨s, by rw [same]; exact owner, ?_⟩
          split
          · simp only [wp_freeJob, wp_pure]
            exact ⟨_, Function.update_self .., refused _ ⟨all, queue, inv.discard rfl _⟩ same⟩
          · rename_i admitted
            simp only [Bool.or_eq_true, decide_eq_true_eq, not_or] at admitted
            rcases admitted with ⟨⟨-, room⟩, unowned⟩
            have new : q.nextJob ∉ all := fun member => Nat.lt_irrefl _ (inv.fresh _ member)
            have unqueued : q.nextJob ∉ queue := fun member => new (inv.mem_all_of_mem_queue member)
            simp only [wp_modifySlot, wp_modify, resolverAllAdd, wp_bind, wp_job]
            refine ⟨s, by rw [same]; exact owner, _, Function.update_self .., ?_⟩
            refine wp_resolverQueuePush inv.queueChain ?_ inv.tail unqueued ?_
            · exact inv.queueAlive.update rfl
            · intro head links pushed
              simp only [wp_pure, if_true]
              refine ⟨⟨_, _, inv.enqueue rfl (started rfl) ?_
                (same ▸ owner) ?_ rfl ⟨rfl, rfl⟩ pushed⟩,
                ?_, by simpa using unowned, q.nextJob, Function.update_self ..⟩
              · rw [← inv.count]
                omega
              · simpa using unowned
              · exact othersKept_of_update (by rw [← same])

/-- The slot of a connection after it let go of its job, if it had one. -/
def releasedSlot (s : Slot) : Slot :=
  match s.resolverJob with
  | none => s
  | some _ => { s with resolverJob := none, references := s.references - 1 }

/-- Freeing the job of a connection that gave it up, whether it was queued or completed. -/
theorem Inv.dropOwned {all queue : List JobId} {s s' : Slot} {head queueHead : Option JobId}
    {links next : JobId → Option JobId} (inv : Inv p all queue) (owner : p.slots c = some s)
    (owns : s.resolverJob = some j) (present : p.jobs j = some found)
    (unheld : found.running = false) (released : s'.resolverJob = none)
    (relinked : Chain links head (all.erase j)) (requeued : Chain next queueHead (queue.erase j)) :
    Inv { p with
      jobs := Function.update p.jobs j none
      frees := Function.update p.frees j (p.frees j + 1)
      allJobs := head
      nextAll := links
      queueHead := queueHead
      next := next
      queueTail := (queue.erase j).getLast?
      jobsInSystem := p.jobsInSystem - 1
      slots := Function.update p.slots c (some s')} (all.erase j) (queue.erase j) := by
  have mine := (inv.owned c s j owner owns).2 found present
  refine inv.drop ((inv.heap j).mp (by rw [present]; rfl)) relinked requeued ?_ ?_ ?_ ?_
  · intro i other c' different otherPresent conn
    have := inv.owner i other c' otherPresent conn
    grind
  · intro c' slot i slotPresent slotOwns
    have := inv.owned c' slot i
    grind
  · exact fun _ _ _ _ => Iff.rfl
  · intro w canceled holds
    have := (inv.running j found present).mpr ⟨w, canceled, holds⟩
    simp [unheld] at this

/-- After cancelling, a connection has no job and has given the job's reference back. -/
theorem wp_socks5ResolverCancelConn (ok : Ok p) (owner : p.slots c = some s) :
    wp (socks5ResolverCancelConn c)
      (fun _ q => Ok q ∧ OthersKept c p q ∧ q.slots c = some (releasedSlot s)) p := by
  rcases ok with ⟨all, queue, inv⟩
  unfold socks5ResolverCancelConn
  simp only [wp_bind, wp_slot]
  refine ⟨s, owner, ?_⟩
  cases owns : s.resolverJob with
  | none =>
      simp only [wp_pure]
      exact ⟨⟨all, queue, inv⟩, fun _ _ => rfl, by simpa [releasedSlot, owns] using owner⟩
  | some j =>
      rcases inv.owned c s j owner owns with ⟨member, mine⟩
      rcases inv.allAlive j member with ⟨found, present⟩
      simp only [wp_bind, wp_modifyJob, wp_modifySlot, wp_job]
      refine ⟨found, present, s, owner, _, Function.update_self .., ?_⟩
      simp only [wp_ite, wp_bind, wp_pure]
      split
      · rename_i waiting
        refine wp_resolverQueueRemove inv.queueChain (inv.queueAlive.update rfl).of_cons
          inv.length_queue_le inv.tail ?_
        intro queueHead next requeued
        rw [wp_bind]
        refine wp_resolverAllRemove (by exact inv.allChain) (inv.allAlive.update rfl).of_cons
          inv.length_all_le member ?_
        intro head links relinked
        simp only [wp_bind, wp_modify, wp_freeJob, Function.update_idem]
        refine ⟨_, Function.update_self .., ⟨all.erase j, queue.erase j, ?_⟩,
          othersKept_of_update rfl, ?_⟩
        · exact inv.dropOwned owner owns present (by simpa using waiting) rfl relinked requeued
        · simp [releasedSlot, owns]
      · rename_i held
        refine ⟨⟨all, queue, ?_⟩, othersKept_of_update rfl, by simp [releasedSlot, owns]⟩
        exact inv.detach owner owns present (by simpa using held)

/-- Taking a completed job tells whether the lookup is done; if so, the job's reference is given
back. -/
theorem wp_socks5ResolverTakeCompleted (ok : Ok p) (owner : p.slots c = some s) :
    wp (socks5ResolverTakeCompleted c)
      (fun completed q => Ok q ∧ OthersKept c p q ∧ completed = s.resolverDone ∧
        q.slots c = some (if s.resolverDone then releasedSlot s else s)) p := by
  rcases ok with ⟨all, queue, inv⟩
  unfold socks5ResolverTakeCompleted
  simp only [wp_bind, wp_slot]
  refine ⟨s, owner, ?_⟩
  cases owns : s.resolverJob with
  | none =>
      simp only [wp_pure]
      exact ⟨⟨all, queue, inv⟩, fun _ _ => rfl, trivial, by simpa [releasedSlot, owns] using owner⟩
  | some j =>
      rcases inv.owned c s j owner owns with ⟨member, mine⟩
      rcases inv.allAlive j member with ⟨found, present⟩
      have done := (mine found present).2
      simp only [wp_bind, wp_job, wp_ite, wp_pure]
      refine ⟨found, present, ?_⟩
      split
      · rename_i completed
        have unheld := inv.stage j found present completed
        have unqueued : j ∉ queue := by
          rw [inv.queued j found present]
          simp [completed]
        refine wp_resolverAllRemove inv.allChain inv.allAlive inv.length_all_le member ?_
        intro head links relinked
        simp only [wp_bind, wp_modify, wp_modifySlot, wp_freeJob, wp_pure]
        rcases inv.getLast?_erase_of_notMem unqueued with ⟨requeued, sameTail⟩
        refine ⟨s, owner, found, present, ⟨all.erase j, queue.erase j, ?_⟩,
          othersKept_of_update rfl, trivial, ?_⟩
        · rw [← sameTail]
          exact inv.dropOwned owner owns present unheld rfl relinked requeued
        · simp [releasedSlot, owns, done, completed]
      · rename_i pending
        have waiting : s.resolverDone = false := by rw [done]; simpa using pending
        exact ⟨⟨all, queue, inv⟩, fun _ _ => rfl, waiting.symm, by simpa [waiting] using owner⟩

theorem Inv.setCanceled {all queue : List JobId} (inv : Inv p all queue)
    (present : p.jobs j = some found) :
    Inv { p with jobs := Function.update p.jobs j (some { found with canceled := true }) }
      all queue := by
  refine { inv with running := ?running, heap := ?heap, owner := ?owner, owned := ?owned,
                    queued := ?queued, stage := ?stage, detached := ?detached }
  case running =>
    intro i other otherPresent
    have := inv.running i
    grind
  case heap => have := inv.heap; grind
  case owner => have := inv.owner; grind
  case owned => have := inv.owned; grind
  case queued => have := inv.queued; grind
  case stage => have := inv.stage; grind
  case detached => have := inv.detached; grind

theorem wp_cancelAll {all queue nodes : List JobId} {rounds : Nat} {start : Option JobId}
    (inv : Inv p all queue) (chain : Chain p.nextAll start nodes) (inside : ∀ j ∈ nodes, j ∈ all)
    (enough : nodes.length ≤ rounds) :
    wp (cancelAll rounds start) (fun _ q => Inv q all queue ∧ q.slots = p.slots) p := by
  induction nodes generalizing p rounds start with
  | nil =>
      cases chain
      cases rounds <;> simpa [cancelAll] using inv
  | cons j rest ih =>
      rcases chain with ⟨rfl, chain⟩
      rcases inv.allAlive j (inside j (by simp)) with ⟨found, present⟩
      cases rounds with
      | zero => simp at enough
      | succ rounds =>
          simp only [cancelAll, wp_bind, wp_modifyJob, wp_get]
          refine ⟨found, present, ih (inv.setCanceled present) chain ?_ ?_⟩
          · exact fun i member => inside i (by simp [member])
          · simpa using enough

theorem wp_socks5ResolverPoolStopBegin (ok : Ok p) :
    wp socks5ResolverPoolStopBegin
      (fun stopping q => Ok q ∧ q.slots = p.slots ∧ (stopping = false → q.started = false)) p := by
  rcases ok with ⟨all, queue, inv⟩
  unfold socks5ResolverPoolStopBegin
  simp only [wp_bind, wp_get, wp_ite, wp_pure, wp_set]
  split
  · next unstarted => exact ⟨⟨all, queue, inv⟩, trivial, fun _ => by simpa using unstarted⟩
  · refine wp_mono (wp_cancelAll (inv.setStopping true) inv.allChain (fun _ member => member)
      inv.length_all_le) ?_
    rintro _ q ⟨kept, slots⟩
    simp only [wp_pure]
    exact ⟨⟨all, queue, kept⟩, slots, by simp⟩

theorem Ok.jobless (ok : Ok p) (unstarted : p.started = false) (present : p.slots c = some s) :
    s.resolverJob = none := by
  rcases ok with ⟨all, queue, inv⟩
  cases owns : s.resolverJob with
  | none => rfl
  | some j =>
      have inside := (inv.owned c s j present owns).1
      simp [(inv.unstarted unstarted).1] at inside

/-- The state inside `resolver_release_job_list`: the file-level variables are already reset, and
the invariant holds once they are put back. -/
def Releasing (p : Pool) (start : Option JobId) (nodes : List JobId) : Prop :=
  ∃ (queueHead : Option JobId) (next : JobId → Option JobId) (queue : List JobId),
    Inv { p with
      allJobs := start
      queueHead := queueHead
      next := next
      queueTail := queue.getLast?
      jobsInSystem := nodes.length
      started := true } nodes queue

theorem Releasing.finish {start : Option JobId} (releasing : Releasing p start [])
    (allJobs : p.allJobs = none) (queueHead : p.queueHead = none) (queueTail : p.queueTail = none)
    (count : p.jobsInSystem = 0) (exited : ∀ w, p.workers w = .exited) : Ok p := by
  rcases releasing with ⟨head, next, queue, inv⟩
  refine ⟨[], [], allJobs, queueHead, queueTail, inv.heap, count, inv.bound, inv.fresh, by simp,
    inv.frees, inv.owner, inv.owned, ?_, inv.running, inv.stage, inv.detached, inv.working,
    inv.exclusive, fun _ => ⟨rfl, exited⟩⟩
  intro j found present
  have impossible := (inv.heap j).mp (by rw [present]; rfl)
  simp at impossible

theorem releasedSlot_releasedSlot (s : Slot) : releasedSlot (releasedSlot s) = releasedSlot s := by
  cases owns : s.resolverJob <;> simp [releasedSlot, owns]

theorem wp_resolverReleaseJobList {nodes : List JobId} {rounds : Nat} {start : Option JobId}
    (releasing : Releasing p start nodes) (exited : ∀ w, p.workers w = .exited)
    (enough : nodes.length ≤ rounds) :
    wp (resolverReleaseJobList rounds start)
      (fun owners q => Releasing q none [] ∧
        (∀ c, q.slots c = (p.slots c).map releasedSlot) ∧
        (∀ c ∈ owners, ∃ s, q.slots c = some s) ∧
        q = { p with jobs := q.jobs, frees := q.frees, slots := q.slots }) p := by
  -- On the jobs still listed: each round frees the first and clears its owner's reference.
  induction nodes generalizing p rounds start with
  | nil =>
      rcases releasing with ⟨queueHead, next, queue, inv⟩
      have ended : start = none := inv.allChain
      subst ended
      have unowned : ∀ c, p.slots c = (p.slots c).map releasedSlot := by
        intro c
        cases present : p.slots c with
        | none => rfl
        | some s =>
            cases owns : s.resolverJob with
            | none => simp [releasedSlot, owns]
            | some j => simpa using (inv.owned c s j present owns).1
      cases rounds with
      | zero => simpa [resolverReleaseJobList] using ⟨⟨queueHead, next, queue, inv⟩, unowned⟩
      | succ rounds => simpa [resolverReleaseJobList] using ⟨⟨queueHead, next, queue, inv⟩, unowned⟩
  | cons j rest ih =>
      rcases releasing with ⟨queueHead, next, queue, inv⟩
      rcases inv.allChain with ⟨head, chain⟩
      simp only at head
      subst head
      rcases inv.allAlive j (by simp) with ⟨found, present⟩
      have unheld : found.running = false := by
        by_contra held
        rcases (inv.running j found present).mp (by simpa using held) with ⟨w, canceled, holds⟩
        simp [exited w] at holds
      cases rounds with
      | zero => simp at enough
      | succ rounds =>
          cases conn : found.conn with
          | none =>
              -- Only a job some worker holds is detached, and every worker has exited.
              have := inv.detached j found present conn
              simp [unheld] at this
          | some c =>
              rcases Option.bind_eq_some_iff.mp (inv.owner j found c present conn) with
                ⟨s, owner, owns⟩
              have released : releasedSlot s =
                  { s with resolverJob := none, references := s.references - 1 } := by
                simp [releasedSlot, owns]
              simp only [resolverReleaseJobList, detachJob, wp_bind, wp_job, wp_get]
              refine ⟨found, present, ?_⟩
              simp only [conn, wp_bind, wp_slot, wp_ite, wp_modifySlot, wp_pure, wp_freeJob]
              refine ⟨s, owner, ?_⟩
              rw [if_pos owns]
              refine ⟨s, owner, found, present, ?_⟩
              rw [← released]
              refine wp_mono (ih ?_ exited (by simpa using enough)) ?_
              · rcases Chain.exists_of_nodup (inv.queueChain.nodup.erase j) with
                  ⟨newHead, newNext, requeued⟩
                have relinked : Chain p.nextAll (p.nextAll j) ((j :: rest).erase j) := by
                  rwa [List.erase_cons_head]
                have jobless : (releasedSlot s).resolverJob = none := by rw [released]
                have dropped := inv.dropOwned owner owns present unheld jobless relinked requeued
                rw [List.erase_cons_head] at dropped
                exact ⟨newHead, newNext, queue.erase j, dropped⟩
              · rintro owners q ⟨done, slots, inside, rest⟩
                simp only [wp_pure]
                have owned : q.slots c = some (releasedSlot s) := by
                  rw [slots c]
                  simp [releasedSlot_releasedSlot]
                refine ⟨done, ?_, ?_, ?_⟩
                · intro c'
                  by_cases same : c' = c
                  · subst same
                    rw [owned, owner]
                    rfl
                  · simp [slots c', same]
                · simp only [Option.toList_some, List.mem_append, List.mem_singleton]
                  rintro c' (rfl | member)
                  · exact ⟨_, owned⟩
                  · exact inside c' member
                · rw [rest]

/-- Once its threads are gone, stopping the pool frees every job and takes it from its owner. -/
theorem wp_socks5ResolverPoolStopJoined (ok : Ok p) (exited : ∀ w, p.workers w = .exited) :
    wp socks5ResolverPoolStopJoined
      (fun owners q => Ok q ∧ (∀ c, q.slots c = (p.slots c).map releasedSlot) ∧
        (∀ c ∈ owners, ∃ s, q.slots c = some s) ∧ q.started = false) p := by
  rcases ok with ⟨all, queue, inv⟩
  have releasing : Releasing { p with
      allJobs := none, queueHead := none, queueTail := none, jobsInSystem := 0
      started := false, stopping := false } p.allJobs all := by
    refine ⟨p.queueHead, p.next, queue, ?_⟩
    have restarted : Inv { p with stopping := false, started := true } all queue :=
      ⟨inv.allChain, inv.queueChain, inv.tail, inv.heap, inv.count, inv.bound, inv.fresh,
        inv.order, inv.frees, inv.owner, inv.owned, inv.queued, inv.running, inv.stage,
        inv.detached, inv.working, inv.exclusive, by simp⟩
    rw [← inv.tail, ← inv.count]
    exact restarted
  simp only [socks5ResolverPoolStopJoined, socks5ResolverPoolStopEnd, wp_bind, wp_get, wp_set,
    wp_pure]
  refine wp_mono (wp_resolverReleaseJobList releasing exited inv.length_all_le) ?_
  rintro owners q ⟨released, slots, inside, rest⟩
  refine ⟨released.finish ?_ ?_ ?_ ?_ ?_, slots, inside, ?_⟩
  all_goals rw [rest]
  exact exited

theorem ok_initial : Ok Pool.initial :=
  ⟨[], [], by constructor <;> simp [Pool.initial, Chain]⟩

theorem ok_ready : Ok Pool.ready :=
  ⟨[], [], by constructor <;> simp [Pool.ready, Pool.initial, Chain]⟩

end Pool

end SocksProxy
