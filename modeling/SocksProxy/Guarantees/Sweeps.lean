import Mathlib.Data.List.Sort
import SocksProxy.Accounting.Moves
import SocksProxy.Guarantees.Connecting
import SocksProxy.Guarantees.Process

/-!
# The sweep for idle connections

`socks5_reap_idle` walks the list of connections and frees some of them on the
way. For every sweep of every run, the walk is the sequence of visits to the
connections that were live when it began, each of them once; `Visited` says what
a visit does to its connection. A visit is the only thing in the sweep that
touches the connection, so it finds what the sweep began with, and what it
leaves is what the sweep ends with.
-/

namespace SocksProxy

open Prog

/-- The connection once a handler of its request has returned `next` to the reaper. -/
def Conn.resumed (c : Conn) (now : Int) (next : State) : Conn :=
  { c with
    lastActivity := now
    current := some next
    hist := if c.current = some next then c.hist else .entered next :: c.hist }

/-- The request of `c` was answered with the failure `rep`, which leaves `c'`. -/
structure TimedOut (now : Int) (rep : UInt8) (id : ConnId) (c c' : Conn) (sh' : Shared) :
    Prop where
  state : c'.current = some .reqWrite
  active : c'.lastActivity = now
  reply : c'.writeBuffer.contents = nullReply rep SOCKS5_ATYP_IPV4
  client : c'.clientFd = c.clientFd
  armed : sh'.sel.armed c'.clientFd = some OP_WRITE
  jobless : ∃ s, sh'.pool.slots id = some s ∧ s.resolverJob = none
  origin : c'.originFd = none
  closed : ∀ fd, c.originFd = some fd → sh'.kern.sockets fd = none

/-- What a sweep at time `now` does to the connection `c`, which it finds in the shared state `sh`;
resolver threads may run before it looks at a lookup. -/
inductive Visited (now timeout : Int) (id : ConnId) (c : Conn) (sh : Shared) : Local → Prop where
  | continued (next : State) (c₁ : Conn) (sh₁ sh₂ : Shared) (resolving : stmState c = .reqResolve)
      (workers : runWorkers sh = .ok ((), sh₁)) (completed : sh₁.pool.hasResult id = true)
      (ran : requestResolveDone ⟨id, .live c, sh₁⟩ = .ok (next, ⟨id, .live c₁, sh₂⟩))
      (onward : next = .reqWrite ∨ next = .reqConnecting) :
      Visited now timeout id c sh ⟨id, .live (c₁.resumed now next), sh₂⟩
  | untouched (sh₁ : Shared) (workers : sh₁ = sh ∨ runWorkers sh = .ok ((), sh₁))
      (pending : stmState c = .reqResolve → sh.pool.hasResult id = false)
      (recent : now - c.lastActivity ≤ timeout) : Visited now timeout id c sh ⟨id, .live c, sh₁⟩
  | answered (rep : UInt8) (c' : Conn) (sh' : Shared) (idle : timeout < now - c.lastActivity)
      (waiting : (stmState c = .reqConnecting ∧ rep = SOCKS5_REP_TTL_EXPIRED) ∨
        (stmState c = .reqResolve ∧ sh.pool.hasResult id = false ∧
          rep = SOCKS5_REP_GENERAL_FAILURE))
      (timedOut : TimedOut now rep id c c' sh') : Visited now timeout id c sh ⟨id, .live c', sh'⟩
  | closed (c' : Conn) (sh' : Shared) (idle : timeout < now - c.lastActivity)
      (other : stmState c ≠ .reqConnecting ∧ stmState c ≠ .reqResolve)
      (released : ∀ fd, c.clientFd = some fd ∨ c.originFd = some fd → sh'.kern.sockets fd = none) :
      Visited now timeout id c sh ⟨id, .freed c' 0, sh'⟩

section

variable {trusted : Prop} {view : View} {id : ConnId} {c : Conn} {cell : Cell} {e : Ends}
  {sh sh₁ : Shared} {α : Type}

/-! ## Lookups -/

/-- Resolver threads never fail, and publish without taking anything back. -/
theorem exists_runWorkers (sound : sh.Sound view none) :
    ∃ sh₁, runWorkers sh = .ok ((), sh₁) ∧ sh₁.Sound view none ∧
      ∀ k, sh.pool.hasResult k = true → sh₁.pool.hasResult k = true := by
  have ran : wp runWorkers (fun _ sh₁ => sh₁.Sound view none) sh :=
    wp_runWorkers sound.slots fun pool jobs env slots =>
      ⟨sound.table, slots, sound.listed, sound.sizes⟩
  rcases ran with ⟨⟨⟩, sh₁, ran, sound₁⟩
  refine ⟨sh₁, ran, sound₁, fun k => ?_⟩
  have steady := steady_runWorkers anyFd (k + 1) sh () sh₁ ran
  exact steady.results k (Nat.ne_of_lt (Nat.lt_succ_self k))

theorem locked_eq {program : PoolM α} (workers : runWorkers sh = .ok ((), sh₁)) :
    locked program ⟨id, cell, sh⟩ = onPool program ⟨id, cell, sh₁⟩ := by
  rw [locked, bind_apply]
  simp only [Prog.focus, workers]

theorem hasResult_eq {pool : Pool} {s : Slot} (owner : pool.slots id = some s) :
    pool.hasResult id = s.resolverDone := by
  simp [Pool.hasResult, owner]

theorem wp_lookupCompleted_exact {post : Bool → Local → Prop}
    (sound : sh.Sound (Function.update view id (some e)) none)
    (resolved : ∀ sh₁, stmState c = .reqResolve → runWorkers sh = .ok ((), sh₁) →
      Shared.Sound (Function.update view id (some e)) none sh₁ → sh₁.pool.hasResult id = true →
      post true ⟨id, .live c, sh₁⟩)
    (pending : ∀ sh₁, (sh₁ = sh ∨ runWorkers sh = .ok ((), sh₁)) →
      Shared.Sound (Function.update view id (some e)) none sh₁ →
      (stmState c = .reqResolve → sh.pool.hasResult id = false) →
      post false ⟨id, .live c, sh₁⟩) :
    wp lookupCompleted post ⟨id, .live c, sh⟩ := by
  simp only [lookupCompleted, wp_bind, wp_get, wp_getConn, wp_ite, wp_pure]
  split
  · next resolving =>
      rcases exists_runWorkers sound with ⟨sh₁, workers, sound₁, published⟩
      rcases sound₁.slots.exists_slot (Function.update_self ..) with ⟨s, owner, -⟩
      rw [wp, locked_eq workers]
      change wp _ _ _
      simp only [wp_onPool, socks5ResolverIsCompleted, wp_bind, Pool.wp_slot, wp_pure]
      refine ⟨s, owner, ?_⟩
      have same := hasResult_eq owner
      cases done : s.resolverDone with
      | true => exact resolved sh₁ resolving workers sound₁ (same.trans done)
      | false =>
          refine pending sh₁ (.inr workers) sound₁ fun _ => Bool.eq_false_iff.mpr fun before => ?_
          simpa [same, done] using published id before
  · next elsewhere => exact pending sh (.inl rfl) sound fun resolving => absurd resolving elsewhere

theorem wlp_requestResolveDone (sound : sh.Sound (Function.update view id (some e)) none)
    (completed : sh.pool.hasResult id = true) :
    wlp requestResolveDone (fun next _ => next.Onward) ⟨id, cell, sh⟩ := by
  rcases exists_runWorkers sound with ⟨sh₁, workers, sound₁, published⟩
  rcases sound₁.slots.exists_slot (Function.update_self ..) with ⟨s, owner, -⟩
  have done : s.resolverDone = true := (hasResult_eq owner).symm.trans (published id completed)
  have takes : wp (locked (socks5ResolverTakeCompleted id)) (fun taken _ => taken = true)
      ⟨id, cell, sh⟩ := by
    rw [wp, locked_eq workers]
    change wp _ _ _
    rw [wp_onPool]
    refine wp_mono (Pool.wp_socks5ResolverTakeCompleted sound₁.slots.ok owner) ?_
    rintro taken pool ⟨-, -, rfl, -⟩
    exact done
  rcases takes with ⟨_, l, ran, rfl⟩
  rw [requestResolveDone, wlp_bind, wlp_get, wlp_bind]
  intro taken l' ran'
  obtain ⟨rfl, rfl⟩ : true = taken ∧ l = l' := by simpa [ran] using ran'
  have answers : Returns State.Onward (do
      let slot ← onPool (Pool.slot id)
      observe (.resolved slot.resolution)
      if slot.resolution = [] then requestFail SOCKS5_REP_GENERAL_FAILURE
      else do
        modifyConn fun c => { c with nextAddr := slot.resolution }
        requestConnect) :=
    .bind fun _ => .bind fun _ => .ite (returns_requestFail _)
      (.bind fun _ => returns_requestConnect)
  exact answers l

/-! ## Closed descriptors -/

/-- A descriptor that a connection held and holds no longer is closed. -/
theorem Shared.Sound.released {sh' : Shared} {mine : Option Ends} {side : Side} {a : End}
    (before : sh.Sound (Function.update view id (some e)) none)
    (after : sh'.Sound (Function.update view id mine) none) (has : e.get side = some a)
    (dropped : ∀ e' side' b, mine = some e' → e'.get side' = some b → b.fd ≠ a.fd) :
    sh'.kern.sockets a.fd = none := by
  by_contra still
  rcases Option.ne_none_iff_exists'.mp still with ⟨socket, isOpen⟩
  rcases after.table.held a.fd socket isOpen with loose | owned
  · cases loose
  rcases (Option.any_eq_true _ _).mp owned with ⟨⟨i, owner⟩, item, isConn⟩
  cases owner with
  | conn k =>
      rcases World.owner_of_item after item with ⟨e', side', b, held, got, same, -⟩
      by_cases own : k = id
      · subst own
        rw [Function.update_self] at held
        exact dropped e' side' b held got same
      · rw [Function.update_of_ne own] at held
        have first := (before.table.registered id side a (by simp [View.ends, has])).1
        have second := (before.table.registered k side' b
          (by simp [View.ends, Function.update_of_ne own, held, got])).1
        rw [same, first] at second
        exact own (by simpa using second.symm : _ ∧ _).2
  | listener | other => cases isConn

theorem exists_end_of_originFd (fits : Fits c e) {fd : Fd} (origin : c.originFd = some fd) :
    ∃ b, e.get .origin = some b ∧ b.fd = fd := by
  rw [fits.originFd] at origin
  exact Option.map_eq_some_iff.mp origin

/-! ## One visit -/

theorem wp_reapNext_resumed {now : Int} {next : State} {post : Unit → Local → Prop}
    (goesOn : ¬(next = .error ∨ next = .done))
    (resumed : post () ⟨id, .live (c.resumed now next), sh⟩) :
    wp (reapNext now next) post ⟨id, .live c, sh⟩ := by
  simp only [reapNext, goesOn, if_false, wp_bind, wp_modifyConn, setCurrent]
  exact resumed

/-- A request that took too long is answered; `c₀` is the connection before the sweep noted that. -/
theorem wp_timedOut (c₀ : Conn) {phase : State} {rep : UInt8} {now : Int}
    {post : Unit → Local → Prop} (sound : sh.Sound (Function.update view id (some e)) none)
    (fits : Fits c e) (current : c.current = some phase) (idle : e.job = false)
    (empty : c.writeBuffer.contents = []) (reachable : (c.session.fail rep).Reachable trusted)
    (clientFd : c.clientFd = c₀.clientFd) (originFd : c.originFd = c₀.originFd)
    (answered : ∀ c' sh', TimedOut now rep id c₀ c' sh' → post () ⟨id, .live c', sh'⟩) :
    wp (do
      let next ← requestFail rep
      reapNext now next) post ⟨id, .live c, sh⟩ := by
  rw [wp_bind]
  refine wp_mono (wp_requestFail_replied 0 sound fits current idle empty reachable) ?_
  rintro _ _ ⟨rfl, c', e', sh', rfl, result, reply, gone, same⟩
  refine wp_reapNext_resumed (by simp) (answered _ _ ?_)
  rcases result.fits.exists_client with ⟨a, client, held⟩
  refine ⟨rfl, rfl, reply, same.trans clientFd, ?_, ?_, gone, fun fd origin => ?_⟩
  · have item := (result.sound.table.registered id .client a
      (by simp [View.ends, Ends.get, client])).1
    have interest : some a.interest = some OP_WRITE := by simpa [client] using result.armed.1
    simpa [Conn.resumed, Selector.armed, held, item] using interest
  · rcases result.sound.slots.exists_slot (Function.update_self ..) with ⟨s, owner, -, job⟩
    refine ⟨s, owner, ?_⟩
    simpa [result.armed.2.2.1] using job
  · rcases exists_end_of_originFd fits (originFd.trans origin) with ⟨b, has, rfl⟩
    refine sound.released result.sound has ?_
    rintro _ side' b' ⟨⟩ got equal
    cases side' with
    | client =>
        -- The client kept its descriptor, which was never that of the origin.
        rcases fits.exists_client with ⟨a', client', held'⟩
        have kept : some b'.fd = some a'.fd := by
          rw [← held', ← same, result.fits.clientFd, show e'.client = some b' from got]
          rfl
        have sides := sound.table.distinct id .client a' .origin b
          (by simp [View.ends, Ends.get, client']) (by simp [View.ends, has])
          ((Option.some.inj kept).symm.trans equal)
        cases sides
    | origin =>
        have vacant : e'.origin.map End.fd = none := result.fits.originFd.symm.trans gone
        rw [show e'.origin = some b' from got] at vacant
        cases vacant

theorem wp_expired {now timeout : Int} (expired : timeout < now - c.lastActivity)
    (sound : sh₁.Sound (Function.update view id (some e)) none) (rest : AtRest trusted c e)
    (pending : stmState c = .reqResolve → sh.pool.hasResult id = false) :
    wp (reapExpired now) (fun _ => Visited now timeout id c sh) ⟨id, .live c, sh₁⟩ := by
  rcases rest.fits.exists_client with ⟨a, client, clientFd⟩
  have armed := rest.armed
  have stage := rest.reachable.invariant.2
  simp only [reapExpired, wp_bind, wp_get, wp_getConn, wp_observe, wp_ite]
  split
  · next connecting =>
      have current := current_of_stmState connecting (by simp)
      rw [connecting] at armed
      simp only [Session.Stage, Conn.session, current] at stage
      rw [← wp_bind]
      exact wp_timedOut c sound (rest.fits.of_eq rfl rfl rfl rfl rfl rfl rfl rfl) current
        armed.2.2.1 stage.1 (rest.reachable.step (.expireConnecting _ current armed.2.2.2.2.1))
        rfl rfl fun c' sh' => .answered _ c' sh' expired (.inl ⟨connecting, rfl⟩)
  · next unconnecting =>
      split
      · next resolving =>
          have current := current_of_stmState resolving (by simp)
          rw [resolving] at armed
          simp only [Session.Stage, Conn.session, current] at stage
          refine wp_lockedCancel sound fun sh' sound' => ?_
          rw [wp_bind, wp_getConn, if_neg (by simp [clientFd])]
          exact wp_timedOut c sound' ((rest.fits.job false).of_eq rfl rfl rfl rfl rfl rfl rfl rfl)
            current rfl stage.1 (rest.reachable.step (.expireResolving _ current armed.2.2.2.1))
            rfl rfl fun c' sh'' =>
              .answered _ c' sh'' expired (.inr ⟨resolving, pending resolving, rfl⟩)
      · next unresolving =>
          refine wp_socks5Done sound client clientFd rest.fits.originFd fun counted sh' sound' => ?_
          refine .closed _ sh' expired ⟨unconnecting, unresolving⟩ fun fd held => ?_
          have ended : ∃ side b, e.get side = some b ∧ b.fd = fd := by
            rcases held with held | held
            · exact ⟨.client, a, client, Option.some.inj (clientFd.symm.trans held)⟩
            · rcases exists_end_of_originFd rest.fits held with ⟨b, has, same⟩
              exact ⟨.origin, b, has, same⟩
          rcases ended with ⟨side, b, has, rfl⟩
          exact sound.released sound' has fun _ _ _ none => by cases none

theorem wp_visited (sound : sh.Sound (Function.update view id (some e)) none)
    (rest : AtRest trusted c e) :
    wp reapConn (fun _ => Visited sh.env.now sh.config.connTimeout.toNat id c sh)
      ⟨id, .live c, sh⟩ := by
  simp only [reapConn, wp_bind, wp_get]
  refine wp_lookupCompleted_exact sound ?_ ?_
  · intro sh₁ resolving workers sound₁ completed
    have entered := rest.entered sound₁ (current_of_stmState resolving (by simp))
    rcases wp_requestResolveDone 0 entered with ⟨next, l, ran, kind, c₁, e₁, sh₂, rfl, -⟩
    have onward := wlp_requestResolveDone sound₁ completed next _ ran
    have goesOn : next = .reqWrite ∨ next = .reqConnecting := by
      rcases kind with rfl | known
      · rcases onward with absurd | absurd | absurd <;> cases absurd
      · exact known
    simp only [if_true, wp_bind]
    refine ⟨next, _, ran, wp_reapNext_resumed ?_ ?_⟩
    · rcases goesOn with rfl | rfl <;> simp
    · exact .continued next c₁ sh₁ sh₂ resolving workers completed ran goesOn
  · intro sh₁ workers sound₁ pending
    simp only [Bool.false_eq_true, if_false, wp_bind, wp_getConn, wp_ite, wp_pure,
      idleTimeoutExpired, decide_eq_true_eq]
    split
    · next expired => exact wp_expired expired sound₁ rest pending
    · next recent => exact .untouched sh₁ workers pending (not_lt.mp recent)

/-- A connection that survives a visit was active recently enough. -/
theorem Visited.recent {now timeout : Int} {l : Local} {c' : Conn} (nonneg : 0 ≤ timeout)
    (visited : Visited now timeout id c sh l) (alive : l.cell = .live c') :
    now - c'.lastActivity ≤ timeout := by
  cases visited with
  | continued next c₁ sh₁ sh₂ =>
      cases alive
      simpa [Conn.resumed] using nonneg
  | untouched sh₁ workers pending recent =>
      cases alive
      exact recent
  | answered rep c'' sh' idle waiting timedOut =>
      cases alive
      simpa [timedOut.active] using nonneg
  | closed => cases alive

/-- The connections after `k` in the list are the live ones that are older. -/
theorem Listed.older {list : ConnList} {k : ConnId} (listed : Listed view list)
    (alive : (view k).isSome) :
    ∃ back : List ConnId, list.next k = back.head? ∧ back.Pairwise (· > ·) ∧
      ∀ other, other ∈ back ↔ (view other).isSome ∧ other < k := by
  rcases listed with ⟨order, forward, backward, sorted, members⟩
  rcases List.append_of_mem ((members k).mpr alive) with ⟨front, back, rfl⟩
  have behind : Chain list.next (list.next k) back := (forward.drop).2
  rcases List.pairwise_append.mp sorted with ⟨-, tail, across⟩
  refine ⟨back, behind.head?_eq, tail.of_cons, fun other => ⟨fun member => ?_, fun older => ?_⟩⟩
  · exact ⟨(members other).mp (by simp [member]), (List.pairwise_cons.mp tail).1 other member⟩
  · have listedToo := (members other).mpr older.1
    rcases List.mem_append.mp listedToo with member | member
    · exact absurd (across other member k (by simp)) (Nat.lt_asymm older.2)
    · exact (List.mem_cons.mp member).resolve_left (Nat.ne_of_lt older.2)

end

namespace World

/-- The process as the visit of a sweep at time `now` begins. -/
def atVisit (w : World) (now : Int) (envs : List Answers) : World :=
  w.withEnv { w.headEnv envs with now }

/-- The visits of a sweep to the listed connections, one after the other. -/
def visitAll (now : Int) : List ConnId → List Answers → World → Except Fault World
  | [], _, w => .ok w
  | k :: rest, envs, w =>
      match (w.atVisit now envs).onConn k reapConn with
      | .error fault => .error fault
      | .ok (_, w') => visitAll now rest envs.tail w'

/-- What became of connection `k` in the sweep of `order` that leads from `w` to `w'`: its visit
finds it as it was, in the state `m` that the visits before it lead to, and leaves it as it will be.
-/
def Treated (now : Int) (order : List ConnId) (envs : List Answers) (w w' : World) (k : ConnId)
    (c : Conn) : Prop :=
  ∃ (before after : List ConnId) (m : World) (l : Local),
    order = before ++ k :: after ∧ visitAll now before envs w = .ok m ∧
    m.heap k = some (.live c) ∧ (w.sh.pool.hasResult k = true → m.sh.pool.hasResult k = true) ∧
    Visited now w.sh.config.connTimeout.toNat k c
      (m.atVisit now (envs.drop before.length)).sh l ∧
    w'.heap k = some l.cell

/-- A sweep of `order` leads from `w` to `w'`. -/
structure Swept (now : Int) (order : List ConnId) (envs : List Answers) (w w' : World) : Prop where
  ran : visitAll now order envs w = .ok w'
  config : w'.sh.config = w.sh.config
  others : ∀ k, k ∉ order → w'.heap k = w.heap k
  treated : ∀ k ∈ order, ∃ c, w.heap k = some (.live c) ∧ Treated now order envs w w' k c

section

variable {trusted : Prop} {view : View} {w w' : World} {k : ConnId} {c : Conn}

theorem visitAll_cons {now : Int} {rest : List ConnId} {envs : List Answers}
    (visited : (w.atVisit now envs).onConn k reapConn = .ok ((), w')) :
    visitAll now (k :: rest) envs w = visitAll now rest envs.tail w' := by
  rw [visitAll, visited]

/-- One visit: the rest of the process is left alone, apart from what is shared. -/
theorem Inv.visit (now : Int) (envs : List Answers) (inv : Inv trusted view w)
    (running : w.mode = .running) (found : w.heap k = some (.live c)) :
    ∃ w₁ view₁ l, (w.atVisit now envs).onConn k reapConn = .ok ((), w₁) ∧
      After trusted view k w w₁ view₁ ∧
      Visited now w.sh.config.connTimeout.toNat k c (w.atVisit now envs).sh l ∧
      w₁.heap = Function.update w.heap k (some l.cell) ∧ Shared.Spares k w.sh w₁.sh := by
  rcases inv.resting found with ⟨e, mine, rest⟩
  have begun : Inv trusted view (w.atVisit now envs) := inv.withEnv _
  rcases begun.dispatch running mine (fun c sound rest => wp_reapConn sound rest) with
    ⟨⟨⟩, w₁, view₁, ran, after⟩
  have sound : (w.atVisit now envs).sh.Sound (Function.update view k (some e)) none := by
    rw [← mine, Function.update_eq_self]
    exact begun.sound
  simp only [running, Resting] at rest
  rcases wp_visited sound rest with ⟨⟨⟩, l, handled, visited⟩
  have result : (w.atVisit now envs).put k l = w₁ := by
    have known : (w.atVisit now envs).heap k = some (.live c) := found
    simpa [World.onConn, known, handled, put] using ran
  have spares := (keeps_reapConn _ (Turns.refl (owns_anyFd _)) () l handled).spares
  subst result
  exact ⟨_, view₁, l, ran,
    ⟨after.inv, after.mode, after.others, (evolves_withEnv w _).trans after.evolves⟩, visited, rfl,
    ⟨spares.users, spares.config, spares.results⟩⟩

theorem Swept.cons {now : Int} {rest : List ConnId} {envs : List Answers} {w₁ : World} {l : Local}
    (swept : Swept now rest envs.tail w₁ w') (new : k ∉ rest)
    (found : w.heap k = some (.live c))
    (ran : (w.atVisit now envs).onConn k reapConn = .ok ((), w₁))
    (visited : Visited now w.sh.config.connTimeout.toNat k c (w.atVisit now envs).sh l)
    (heap : w₁.heap = Function.update w.heap k (some l.cell))
    (spares : Shared.Spares k w.sh w₁.sh) : Swept now (k :: rest) envs w w' := by
  refine ⟨(visitAll_cons ran).trans swept.ran, swept.config.trans spares.config,
    fun other absent => ?_, fun other member => ?_⟩
  · rcases not_or.mp (List.mem_cons.not.mp absent) with ⟨ne, elsewhere⟩
    rw [swept.others other elsewhere, heap, Function.update_of_ne ne]
  · by_cases same : other = k
    · subst same
      refine ⟨c, found, [], rest, w, l, rfl, rfl, found, id, visited, ?_⟩
      rw [swept.others other new, heap, Function.update_self]
    · rcases swept.treated other ((List.mem_cons.mp member).resolve_left same) with
        ⟨c', found', before, after, m, l', order, ran', foundLater, kept, visited', left⟩
      refine ⟨c', ?_, k :: before, after, m, l', by rw [order]; rfl,
        (visitAll_cons ran).trans ran', foundLater, ?_, ?_, left⟩
      · rwa [heap, Function.update_of_ne same] at found'
      · exact fun result => kept (spares.results other same result)
      · rw [spares.config] at visited'
        simpa [List.drop_tail] using visited'

/-- The walk visits the live connections below `bound`, newest first. The list changes under the
walk, but only by the connection that is visited, so its rest is still the live ones below. -/
theorem Inv.swept (now : Int) {order : List ConnId} {bound rounds : Nat} (envs : List Answers)
    (inv : Inv trusted view w) (running : w.mode = .running) (sorted : order.Pairwise (· > ·))
    (members : ∀ k, k ∈ order ↔ (view k).isSome ∧ k < bound) (bounded : bound ≤ rounds) :
    ∃ w' view', World.reapFrom now rounds order.head? envs w = .ok w' ∧ Inv trusted view' w' ∧
      Swept now order envs w w' := by
  induction order generalizing w view bound rounds envs with
  | nil => exact ⟨w, view, by simp [World.reapFrom], inv, rfl, rfl, fun _ _ => rfl, by simp⟩
  | cons k rest ih =>
      rcases (members k).mp (by simp) with ⟨alive, small⟩
      rcases Option.isSome_iff_exists.mp alive with ⟨e, mine⟩
      rcases inv.live mine with ⟨c, found, -⟩
      rcases inv.visit now envs running found with
        ⟨w₁, view₁, l, ran, after, visited, heap, spares⟩
      rcases List.pairwise_cons.mp sorted with ⟨below, sortedRest⟩
      have older : ∀ other, other ∈ rest ↔ (view other).isSome ∧ other < k := by
        intro other
        constructor
        · exact fun member => ⟨((members other).mp (by simp [member])).1, below other member⟩
        · rintro ⟨live, less⟩
          have member := (members other).mpr ⟨live, Nat.lt_trans less small⟩
          exact (List.mem_cons.mp member).resolve_left (Nat.ne_of_lt less)
      rcases inv.sound.listed.older alive with ⟨back, next, sortedBack, olderBack⟩
      obtain rfl : back = rest := sortedBack.eq_of_mem_iff sortedRest fun other =>
        (olderBack other).trans (older other).symm
      have enough : k < rounds := Nat.lt_of_lt_of_le small bounded
      obtain ⟨rounds, rfl⟩ := Nat.exists_eq_succ_of_ne_zero (Nat.ne_zero_of_lt enough)
      have still : ∀ other, other ∈ back ↔ (view₁ other).isSome ∧ other < k := fun other => by
        rw [older other]
        exact and_congr_left fun less => by rw [after.others other (Nat.ne_of_lt less)]
      rcases ih envs.tail after.inv (after.mode.trans running) sortedRest still
        (Nat.lt_succ_iff.mp enough) with ⟨w', view', walked, inv', swept⟩
      refine ⟨w', view', ?_, inv', swept.cons (fun member => ?_) found ran visited heap spares⟩
      · have ran₀ : (w.withEnv { w.headEnv envs with now }).onConn k reapConn = .ok ((), w₁) := ran
        rw [List.head?_cons, World.reapFrom, ran₀, next]
        exact walked
      · exact Nat.lt_irrefl k (below k member)

/-- A sweep visits every connection that is live once, in the order of the list; each of them is
treated as `Visited` says, and those that are still listed afterwards were active within the
timeout. -/
theorem sweep_removes_exactly_idle (reachable : w.Reachable) (running : w.mode = .running)
    {now : Int} (due : now ≠ w.reapLastSweep) (envs : List Answers) :
    ∃ (w' : World) (order left : List ConnId),
      w.step (.reap now envs) = .ok w' ∧ Chain w.sh.list.next w.sh.list.head order ∧
      order.Nodup ∧ (∀ k, k ∈ order ↔ ∃ c, w.heap k = some (.live c)) ∧
      w.reapIdle now envs = visitAll now order envs { w with reapLastSweep := now } ∧
      (∀ k c, w.heap k = some (.live c) →
        Treated now order envs { w with reapLastSweep := now } w' k c) ∧
      Chain w'.sh.list.next w'.sh.list.head left ∧
      (∀ k, k ∈ left ↔ ∃ c, w'.heap k = some (.live c)) ∧
      ∀ k c, w'.heap k = some (.live c) → now - c.lastActivity ≤ w.sh.config.connTimeout.toNat := by
  rcases reachable.ok with ⟨view, inv⟩
  have inv₀ : Inv False view { w with reapLastSweep := now } := ⟨inv.sound, inv.cells, inv.fresh⟩
  rcases inv.sound.listed with ⟨order, forward, -, sorted, members⟩
  have live : ∀ k, k ∈ order ↔ ∃ c, w.heap k = some (.live c) := fun k =>
    (members k).trans inv.live_iff.symm
  have below : ∀ k, k ∈ order ↔ (view k).isSome ∧ k < w.nextId := fun k =>
    (members k).trans ⟨fun alive => ⟨alive, inv.lt_nextId alive⟩, And.left⟩
  rcases inv₀.swept now envs running sorted below le_rfl with
    ⟨w', view', walked, inv', swept⟩
  have reaped : w.reapIdle now envs = .ok w' := by
    rw [reapIdle, if_neg due, forward.head?_eq]
    exact walked
  have treated : ∀ k c, w.heap k = some (.live c) →
      Treated now order envs { w with reapLastSweep := now } w' k c := by
    intro k c found
    rcases swept.treated k ((live k).mpr ⟨c, found⟩) with ⟨c', found', outcome⟩
    obtain rfl : c' = c := by simpa [show w.heap k = some (.live c') from found'] using found
    exact outcome
  rcases inv'.listed_live with ⟨left, -, listed, -, alive⟩
  refine ⟨w', order, left, ?_, forward, forward.nodup, live, reaped.trans swept.ran.symm, treated,
    listed, alive, fun k c' found' => ?_⟩
  · simpa only [step, running, if_true] using reaped
  · by_cases visited : k ∈ order
    · rcases (live k).mp visited with ⟨c, found⟩
      rcases treated k c found with ⟨_, _, m, l, -, -, -, -, outcome, left⟩
      exact outcome.recent (Int.natCast_nonneg _) (Option.some.inj (left.symm.trans found'))
    · have same : w'.heap k = w.heap k := swept.others k visited
      exact absurd ((live k).mpr ⟨c', same ▸ found'⟩) visited

end

/-- A connection whose candidate does not answer, a thousand seconds later. -/
theorem sweep_removes_exactly_idle_after_inquiry :
    ∃ (w w' : World) (c : Conn) (order : List ConnId), w.Reachable ∧ w.mode = .running ∧
      1000 ≠ w.reapLastSweep ∧ w.heap 0 = some (.live c) ∧ stmState c = .reqConnecting ∧
      w.step (.reap 1000 []) = .ok w' ∧
      Treated 1000 order [] { w with reapLastSweep := 1000 } w' 0 c := by
  have ended : endsWith (arrival ++ inquiry) (fun w =>
      w.mode = .running && w.reapLastSweep = 0 &&
        liveTest 0 (fun c => stmState c = .reqConnecting) w) = true := by
    decide +kernel
  rcases exists_of_endsWith ended with ⟨w, reachable, passed⟩
  simp only [Bool.and_eq_true, decide_eq_true_eq] at passed
  rcases passed with ⟨⟨running, idle⟩, tested⟩
  have due : 1000 ≠ w.reapLastSweep := by rw [idle]; decide
  rcases exists_of_liveTest tested with ⟨c, found, connecting⟩
  rcases sweep_removes_exactly_idle reachable running due [] with
    ⟨w', order, left, stepped, -, -, -, -, treated, -⟩
  exact ⟨w, w', c, order, reachable, running, due, found, of_decide_eq_true connecting, stepped,
    treated 0 c found⟩

end World

end SocksProxy
