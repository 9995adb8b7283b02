import SocksProxy.Safety.Table

/-!
# Soundness of the shared state

`Shared.Sound` collects what holds of the state shared by all connections:
selector and kernel agree with the view, the resolver pool is sound and counts
the references the view implies, and `conn_list` links exactly the live
connections. The second half gives one rule for each primitive of the handlers,
which keep the shared state sound.
-/

namespace SocksProxy

namespace View

variable {view : View} {k : ConnId} {e : Ends}

theorem ends_put (mine : view k = some e) (side : Side) (a : Option End) :
    ends (Function.update view k (some (e.put side a))) = setEnd view.ends k side a := by
  funext k' side'
  by_cases same : k' = k
  · subst same
    simp [ends, setEnd, mine]
  · simp [ends, setEnd, same]

theorem ends_congr {e' : Ends} (mine : view k = some e) (same : e'.get = e.get) :
    ends (Function.update view k (some e')) = view.ends := by
  funext k' side
  by_cases this : k' = k
  · subst this
    simp [ends, mine, same]
  · simp [ends, this]

theorem ends_remove (mine : view k = some e) (unheld : ∀ side, e.get side = none) :
    ends (Function.update view k none) = view.ends := by
  funext k' side
  by_cases same : k' = k
  · subst same
    simp [ends, mine, unheld]
  · simp [ends, same]

theorem ends_add (vacant : view k = none) (side : Side) (a : End) (job : Bool) :
    ends (Function.update view k (some (Ends.put ⟨none, none, job⟩ side (some a)))) =
      setEnd view.ends k side (some a) := by
  funext k' side'
  by_cases same : k' = k
  · subst same
    cases side <;> cases side' <;> simp [ends, setEnd, vacant, Ends.put, Ends.get]
  · simp [ends, setEnd, same]

end View

/-- The pool is sound, and every live connection has the references that what it holds implies. -/
structure Slots (view : View) (pool : Pool) : Prop where
  ok : pool.Ok
  counts : ∀ k, (pool.slots k).map (fun s => (s.references, s.resolverJob.isSome)) =
    (view k).map fun e => (e.count, e.job)

namespace Slots

variable {view : View} {pool : Pool} {k : ConnId} {e : Ends}

theorem exists_slot (slots : Slots view pool) (mine : view k = some e) :
    ∃ s, pool.slots k = some s ∧ s.references = e.count ∧ s.resolverJob.isSome = e.job := by
  have found := slots.counts k
  rw [mine, Option.map_some, Option.map_eq_some_iff] at found
  rcases found with ⟨s, present, same⟩
  simp only [Prod.mk.injEq] at same
  exact ⟨s, present, same⟩

theorem change {pool' : Pool} {e' : Ends} {s : Slot} (slots : Slots view pool) (ok : pool'.Ok)
    (others : ∀ other, other ≠ k → pool'.slots other = pool.slots other)
    (mine : pool'.slots k = some s) (references : s.references = e'.count)
    (job : s.resolverJob.isSome = e'.job) : Slots (Function.update view k (some e')) pool' := by
  refine ⟨ok, fun other => ?_⟩
  by_cases same : other = k
  · subst same
    simp [mine, references, job]
  · rw [others other same, Function.update_of_ne same]
    exact slots.counts other

theorem worker {pool' : Pool} {step : WorkerStep} (slots : Slots view pool) (ok : pool'.Ok)
    (frame : Pool.WorkerFrame step pool pool') : Slots view pool' := by
  refine ⟨ok, fun k => ?_⟩
  rw [← slots.counts k]
  rcases frame.kept k with ⟨references, jobs⟩
  cases before : pool.slots k <;> cases after : pool'.slots k <;> simp_all

theorem refer {e' : Ends} {n : Int} {s : Slot} (slots : Slots view pool) (mine : view k = some e)
    (present : pool.slots k = some s) (count : e'.count = e.count + n) (job : e'.job = e.job) :
    Slots (Function.update view k (some e'))
      { pool with
        slots :=
          Function.update pool.slots k (some { s with references := s.references + n }) } := by
  rcases slots.exists_slot mine with ⟨s', present', references, jobs⟩
  obtain rfl : s = s' := by simpa [present] using present'
  rcases slots.ok with ⟨all, queue, inv⟩
  refine slots.change ⟨all, queue, inv.reslot ?_ ?_⟩ (fun other ne => by simp [ne])
    (Function.update_self ..) (by simp [references, count]) (by simp [jobs, job])
  · intro c j owns
    by_cases same : c = k
    · subst same
      simpa [present] using owns
    · simpa [same] using owns
  · intro c slot j found owns
    by_cases same : c = k
    · subst same
      simp only [Function.update_self, Option.some.injEq] at found
      subst found
      exact ⟨s, present, owns, rfl⟩
    · rw [Function.update_of_ne same] at found
      exact ⟨slot, found, owns, rfl⟩

theorem free (slots : Slots view pool) (mine : view k = some e) (idle : e.job = false) :
    Slots (Function.update view k none)
      { pool with slots := Function.update pool.slots k none } := by
  rcases slots.exists_slot mine with ⟨s, present, -, jobs⟩
  have jobless : s.resolverJob = none := by simpa [idle] using jobs
  rcases slots.ok with ⟨all, queue, inv⟩
  refine ⟨⟨all, queue, inv.reslot ?_ ?_⟩, fun other => ?_⟩
  · intro c j owns
    by_cases same : c = k
    · subst same
      simp [present, jobless] at owns
    · simpa [same] using owns
  · intro c slot j found owns
    by_cases same : c = k
    · subst same
      simp at found
    · rw [Function.update_of_ne same] at found
      exact ⟨slot, found, owns, rfl⟩
  · by_cases same : other = k
    · subst same
      simp
    · simpa [same] using slots.counts other

theorem allocate (slots : Slots view pool) (vacant : view k = none) {e' : Ends}
    (count : e'.count = 1) (idle : e'.job = false) :
    Slots (Function.update view k (some e'))
      { pool with slots := Function.update pool.slots k (some ⟨1, none, false, 0, []⟩) } := by
  have absent : pool.slots k = none := by
    have found := slots.counts k
    rw [vacant, Option.map_none, Option.map_eq_none_iff] at found
    exact found
  rcases slots.ok with ⟨all, queue, inv⟩
  refine slots.change ⟨all, queue, inv.reslot ?_ ?_⟩ (fun other ne => by simp [ne])
    (Function.update_self ..) count.symm idle.symm
  · intro c j owns
    by_cases same : c = k
    · subst same
      simp [absent] at owns
    · simpa [same] using owns
  · intro c slot j found owns
    by_cases same : c = k
    · subst same
      simp only [Function.update_self, Option.some.injEq] at found
      subst found
      simp at owns
    · rw [Function.update_of_ne same] at found
      exact ⟨slot, found, owns, rfl⟩

end Slots

/-- `conn_list` is a doubly linked list of exactly the live connections, the newest first. -/
def Listed (view : View) (list : ConnList) : Prop :=
  ∃ order, Chain list.next list.head order ∧ BackChain list.prev none order ∧
    order.Pairwise (· > ·) ∧ ∀ k, k ∈ order ↔ (view k).isSome

namespace Listed

variable {view : View} {list : ConnList} {k : ConnId}

theorem congr {view' : View} (listed : Listed view list)
    (same : ∀ k, (view' k).isSome = (view k).isSome) : Listed view' list := by
  rcases listed with ⟨order, forward, backward, sorted, members⟩
  exact ⟨order, forward, backward, sorted, fun k => by rw [members, same]⟩

theorem update (listed : Listed view list) {e e' : Ends} (mine : view k = some e) :
    Listed (Function.update view k (some e')) list := by
  refine listed.congr fun other => ?_
  by_cases same : other = k
  · subst same
    simp [mine]
  · simp [same]

theorem neighbours (listed : Listed view list) (alive : (view k).isSome) :
    (∀ other, list.prev k = some other → (view other).isSome) ∧
      ∀ other, list.next k = some other → (view other).isSome := by
  rcases listed with ⟨order, forward, backward, sorted, members⟩
  rcases List.append_of_mem ((members k).mpr alive) with ⟨front, back, rfl⟩
  refine ⟨fun other before => ?_, fun other after => ?_⟩
  · rw [backward.link_eq, Option.or_none] at before
    exact (members other).mp (by simp [List.mem_of_getLast? before])
  · have behind : Chain list.next (list.next k) back := (forward.drop).2
    rw [behind.head?_eq] at after
    exact (members other).mp (by simp [List.mem_of_mem_head? after])

theorem head_alive (listed : Listed view list) {first : ConnId} (head : list.head = some first) :
    (view first).isSome := by
  rcases listed with ⟨order, forward, backward, sorted, members⟩
  rw [forward.head?_eq] at head
  exact (members first).mp (List.mem_of_mem_head? head)

theorem next_lt (listed : Listed view list) (alive : (view k).isSome) {other : ConnId}
    (after : list.next k = some other) : other < k := by
  rcases listed with ⟨order, forward, backward, sorted, members⟩
  rcases List.append_of_mem ((members k).mpr alive) with ⟨front, back, rfl⟩
  have behind : Chain list.next (list.next k) back := (forward.drop).2
  rw [behind.head?_eq] at after
  have tail := (List.pairwise_append.mp sorted).2.1
  exact (List.pairwise_cons.mp tail).1 other (List.mem_of_mem_head? after)

theorem remove (listed : Listed view list) (alive : (view k).isSome) :
    Listed (Function.update view k none) (list.remove k) := by
  rcases listed with ⟨order, forward, backward, sorted, members⟩
  rcases List.append_of_mem ((members k).mpr alive) with ⟨front, back, rfl⟩
  have distinct := forward.nodup
  have absent := forward.notMem_append
  have before : list.prev k = front.getLast? := by rw [backward.link_eq, Option.or_none]
  have behind : Chain list.next (list.next k) back := (forward.drop).2
  have after : list.next k = back.head? := behind.head?_eq
  have apart : ∀ other ∈ front ++ back, other ≠ k := fun other member same => absent (same ▸ member)
  refine ⟨front ++ back, ?_, ?_, sorted.sublist (by simp), fun other => ?_⟩
  · have head : (list.remove k).head = if front = [] then list.next k else list.head := by
      simp only [ConnList.remove, before, List.getLast?_eq_none_iff]
    rw [head]
    refine forward.unlink fun other member => ?_
    simp only [ConnList.remove, Function.update_of_ne (apart other member)]
    rw [before]
    cases last : front.getLast? with
    | none => simp
    | some node => grind
  · refine backward.unlink distinct fun other member => ?_
    simp only [ConnList.remove, Function.update_of_ne (apart other member)]
    rw [after]
    cases first : back.head? with
    | none => simp
    | some node => grind
  · by_cases same : other = k
    · subst same
      simpa using absent
    · have member := members other
      simp only [List.mem_append, List.mem_cons, same, false_or] at member
      simp [same, member]

theorem push (listed : Listed view list) (newest : ∀ other, (view other).isSome → other < k)
    (e : Ends) :
    Listed (Function.update view k (some e))
      { head := some k
        next := Function.update list.next k list.head
        prev :=
          let prev := Function.update list.prev k none
          match list.head with
          | none => prev
          | some first => Function.update prev first (some k) } := by
  rcases listed with ⟨order, forward, backward, sorted, members⟩
  have older : ∀ other ∈ order, other < k := fun other member =>
    newest other ((members other).mp member)
  have absent : k ∉ order := fun member => absurd (older k member) (lt_irrefl k)
  refine ⟨k :: order, ⟨rfl, ?_⟩, ?_, List.pairwise_cons.mpr ⟨older, sorted⟩, fun other => ?_⟩
  · change Chain (Function.update list.next k list.head)
      (Function.update list.next k list.head k) order
    rw [Function.update_self]
    exact forward.update_of_notMem absent
  · have head := forward.head?_eq
    cases order with
    | nil =>
        rw [List.head?_nil] at head
        simp [BackChain, head]
    | cons first rest =>
        rw [List.head?_cons] at head
        simp only [List.mem_cons, not_or] at absent
        have distinct := List.nodup_cons.mp forward.nodup
        refine ⟨?_, ?_, backward.2.congr fun other member => ?_⟩
        · simp [head, absent.1]
        · simp [head]
        · have notFirst : other ≠ first := fun same => distinct.1 (same ▸ member)
          have notNew : other ≠ k := fun same => absent.2 (same ▸ member)
          simp [head, notFirst, notNew]
  · by_cases same : other = k
    · simp [same]
    · simp [same, members]

end Listed

/-- What holds of the shared state whenever no handler is in the middle of a change. -/
structure Shared.Sound (view : View) (loose : Option (Fd × Socket)) (sh : Shared) : Prop where
  table : Table view.ends loose sh.sel.items sh.kern sh.acceptPausedFd
  slots : Slots view sh.pool
  listed : Listed view sh.list
  sizes : sh.config.BufferSizeInRange

namespace Shared.Sound

variable {view : View} {loose : Option (Fd × Socket)} {sh sh' : Shared}

theorem of_eq (sound : sh.Sound view loose) (items : sh'.sel.items = sh.sel.items)
    (kern : sh'.kern = sh.kern) (paused : sh'.acceptPausedFd = sh.acceptPausedFd)
    (pool : sh'.pool = sh.pool) (list : sh'.list = sh.list) (config : sh'.config = sh.config) :
    sh'.Sound view loose :=
  ⟨items ▸ kern ▸ paused ▸ sound.table, pool ▸ sound.slots, list ▸ sound.listed,
    config ▸ sound.sizes⟩

theorem env (sound : sh.Sound view loose) (env : Answers) :
    ({ sh with env } : Shared).Sound view loose :=
  sound.of_eq rfl rfl rfl rfl rfl rfl

theorem arm (sound : sh.Sound view loose) {k : ConnId} {e : Ends} {side : Side} {a : End}
    (mine : view k = some e) (has : e.get side = some a) (interest : Interest) :
    ({ sh with
        sel := { sh.sel with
          items := Function.update sh.sel.items a.fd (some ⟨interest, .conn k⟩) } } : Shared).Sound
      (Function.update view k (some (e.put side (some { a with interest })))) loose := by
  have held : view.ends k side = some a := by simp [View.ends, mine, has]
  have count : (e.put side (some { a with interest })).count = e.count := by
    rw [Ends.count_put, has]
    simp
  refine ⟨?_, ?_, sound.listed.update mine, sound.sizes⟩
  · rw [View.ends_put mine]
    exact sound.table.arm held interest
  · refine ⟨sound.slots.ok, fun other => ?_⟩
    rw [sound.slots.counts other]
    by_cases same : other = k
    · subst same
      simp [mine, count]
    · simp [same]

end Shared.Sound

end SocksProxy
