import SocksProxy.Safety.Machine
import SocksProxy.Server.EventLoop

/-!
# Every run of the process is safe

The invariant of the process as a whole: the shared state is sound for what the
live connections hold, every live connection is at rest, and a freed connection
has no references. Every event keeps it, and no event faults: nothing that was
freed is touched, the state machine never aborts, no descriptor is closed twice
and every loop ends.

`trusted` says whether write readiness can be relied on, see `World.Honest`; all
that does not depend on it holds for every run.
-/

namespace SocksProxy

open Prog

/-- A connection that only waits to be closed. -/
structure Closing (trusted : Prop) (c : Conn) (e : Ends) : Prop where
  clientFd : c.clientFd = e.client.map End.fd
  originFd : c.originFd = e.origin.map End.fd
  idle : e.job = false
  referred : 0 < e.count
  reachable : c.session.Reachable trusted

/-- What holds of a live connection between two events. Once the resolver pool was stopped nothing
is dispatched any more, and once the selector was destroyed no connection is left. -/
def Resting (trusted : Prop) (mode : Mode) (c : Conn) (e : Ends) : Prop :=
  match mode with
  | .running | .joining => AtRest trusted c e
  | .stopped => Closing trusted c e
  | .destroyed => False

/-- A connection is held exactly while it is live, and is freed with no references left. -/
def CellOk (trusted : Prop) (mode : Mode) : Option Cell → Option Ends → Prop
  | none, none => True
  | some (.live c), some e => Resting trusted mode c e
  | some (.freed c references), none => references = 0 ∧ c.session.Reachable trusted
  | _, _ => False

namespace World

/-- The invariant, for the ends `view` of the live connections. -/
structure Inv (trusted : Prop) (view : View) (w : World) : Prop where
  sound : w.sh.Sound view none
  cells : ∀ k, CellOk trusted w.mode (w.heap k) (view k)
  fresh : ∀ k, w.nextId ≤ k → w.heap k = none

def Ok (trusted : Prop) (w : World) : Prop := ∃ view, Inv trusted view w

/-- Memory is never used again: what was freed stays as it was freed. -/
structure Evolves (w w' : World) : Prop where
  freed : ∀ k c references, w.heap k = some (.freed c references) →
    w'.heap k = some (.freed c references)
  known : ∀ k, (w.heap k).isSome → (w'.heap k).isSome

theorem Evolves.refl (w : World) : Evolves w w := ⟨fun _ _ _ same => same, fun _ same => same⟩

theorem Evolves.trans {w w' w'' : World} (first : Evolves w w') (second : Evolves w' w'') :
    Evolves w w'' :=
  ⟨fun k c references before => second.freed k c references (first.freed k c references before),
    fun k before => second.known k (first.known k before)⟩

theorem Evolves.of_heap_eq {w w' : World} (same : w'.heap = w.heap) : Evolves w w' :=
  ⟨fun _ _ _ before => same ▸ before, fun _ before => same ▸ before⟩

theorem evolves_withEnv (w : World) (env : Answers) : Evolves w (w.withEnv env) := .of_heap_eq rfl

section

variable {trusted : Prop} {view : View} {w : World} {k : ConnId} {c : Conn} {e : Ends}

theorem Inv.live (inv : Inv trusted view w) (mine : view k = some e) :
    ∃ c, w.heap k = some (.live c) ∧ Resting trusted w.mode c e := by
  have cell := inv.cells k
  rw [mine] at cell
  rcases found : w.heap k with _ | ⟨c⟩ | ⟨c, references⟩ <;> simp only [found, CellOk] at cell
  exact ⟨c, rfl, cell⟩

theorem Inv.resting (inv : Inv trusted view w) (found : w.heap k = some (.live c)) :
    ∃ e, view k = some e ∧ Resting trusted w.mode c e := by
  have cell := inv.cells k
  rw [found] at cell
  cases mine : view k with
  | none =>
      rw [mine] at cell
      exact cell.elim
  | some e =>
      rw [mine] at cell
      exact ⟨e, rfl, cell⟩

theorem Inv.freed {references : Int} (inv : Inv trusted view w)
    (found : w.heap k = some (.freed c references)) :
    view k = none ∧ references = 0 ∧ c.session.Reachable trusted := by
  have cell := inv.cells k
  rw [found] at cell
  cases mine : view k with
  | none =>
      rw [mine] at cell
      exact ⟨rfl, cell⟩
  | some e =>
      rw [mine] at cell
      exact cell.elim

theorem Inv.lt_nextId (inv : Inv trusted view w) (alive : (view k).isSome) : k < w.nextId := by
  rcases Option.isSome_iff_exists.mp alive with ⟨e, mine⟩
  rcases inv.live mine with ⟨c, found, -⟩
  by_contra new
  rw [inv.fresh k (Nat.not_lt.mp new)] at found
  cases found

theorem owner_of_item {sh : Shared} (sound : sh.Sound view none) {fd : Fd}
    {i : Interest} (item : sh.sel.items fd = some ⟨i, .conn k⟩) :
    ∃ e side a, view k = some e ∧ e.get side = some a ∧ a.fd = fd ∧ a.interest = i ∧
      sh.kern.sockets fd = some a.socket := by
  have held : ∃ side a, view.ends k side = some a ∧ a.fd = fd := by
    rcases sound.table.owned fd i k item with client | origin
    · rcases Option.map_eq_some_iff.mp client with ⟨a, has, same⟩
      exact ⟨.client, a, has, same⟩
    · rcases Option.map_eq_some_iff.mp origin with ⟨a, has, same⟩
      exact ⟨.origin, a, has, same⟩
  rcases held with ⟨side, a, has, rfl⟩
  rcases sound.table.registered k side a has with ⟨registered, socket⟩
  rcases Option.bind_eq_some_iff.mp has with ⟨e, mine, got⟩
  have same : a.interest = i := by simpa [registered] using item
  exact ⟨e, side, a, mine, got, rfl, same, socket⟩

theorem Inv.withEnv (inv : Inv trusted view w) (env : Answers) : Inv trusted view (w.withEnv env) :=
  ⟨inv.sound.env env, inv.cells, inv.fresh⟩

/-- A computation succeeds and keeps the invariant. -/
def Continues (trusted : Prop) (w : World) (result : Except Fault World) : Prop :=
  ∃ w' view', result = .ok w' ∧ Inv trusted view' w' ∧ w'.mode = w.mode ∧ Evolves w w'

theorem Continues.of_eq {w₀ : World} {result : Except Fault World}
    (continues : Continues trusted w result) (heap : w.heap = w₀.heap) (mode : w.mode = w₀.mode) :
    Continues trusted w₀ result := by
  rcases continues with ⟨w', view', ran, inv, same, evolves⟩
  exact ⟨w', view', ran, inv, same.trans mode, heap ▸ evolves.freed, heap ▸ evolves.known⟩

/-- What an event that concerns one connection leads to. -/
structure After (trusted : Prop) (view : View) (k : ConnId) (w w' : World) (view' : View) :
    Prop where
  inv : Inv trusted view' w'
  mode : w'.mode = w.mode
  others : ∀ other, other ≠ k → view' other = view other
  evolves : Evolves w w'

/-- A handler whose outcome satisfies the invariant for some `good` new ends of its connection. -/
theorem Inv.onConn {α : Type} {handler : M α} (good : Option Ends → Prop) (inv : Inv trusted view w)
    (found : w.heap k = some (.live c))
    (handles : wp handler (fun _ l => ∃ mine : Option Ends, good mine ∧
      l.sh.Sound (Function.update view k mine) none ∧ CellOk trusted w.mode (some l.cell) mine)
      ⟨k, .live c, w.sh⟩) :
    ∃ value w' view', w.onConn k handler = .ok (value, w') ∧ After trusted view k w w' view' ∧
      good (view' k) := by
  rcases handles with ⟨value, l, ran, mine, isGood, sound, cell⟩
  refine ⟨value, { w with heap := Function.update w.heap k (some l.cell), sh := l.sh },
    Function.update view k mine, by simp only [World.onConn, found, ran],
    ⟨⟨sound, fun other => ?_, fun other new => ?_⟩, rfl, fun other ne =>
      Function.update_of_ne ne _ _,
      fun other c' references before => ?_, fun other known => ?_⟩, by simpa using isGood⟩
  · by_cases same : other = k
    · subst same
      simpa using cell
    · simpa [same] using inv.cells other
  · have old : other ≠ k := by
      rintro rfl
      rw [inv.fresh other new] at found
      cases found
    simpa [old] using inv.fresh other new
  · have ne : other ≠ k := by
      rintro rfl
      rw [found] at before
      cases before
    simpa [ne] using before
  · by_cases same : other = k
    · simp [same]
    · simpa [same] using known

theorem cellOk_of_ended {mode : Mode} {l : Local} (active : mode = .running ∨ mode = .joining)
    (ended : Ended trusted view k l) :
    ∃ mine : Option Ends, True ∧ l.sh.Sound (Function.update view k mine) none ∧
      CellOk trusted mode (some l.cell) mine := by
  cases ended with
  | resting c e sh sound rest =>
      refine ⟨some e, trivial, sound, ?_⟩
      rcases active with rfl | rfl <;> exact rest
  | freed c sh sound reachable => exact ⟨none, trivial, sound, rfl, reachable⟩

theorem Inv.dispatch {α : Type} {handler : M α} (inv : Inv trusted view w)
    (running : w.mode = .running) (mine : view k = some e)
    (handles : ∀ c, w.sh.Sound (Function.update view k (some e)) none → AtRest trusted c e →
      wp handler (fun _ => Ended trusted view k) ⟨k, .live c, w.sh⟩) :
    ∃ value w' view', w.onConn k handler = .ok (value, w') ∧ After trusted view k w w' view' := by
  rcases inv.live mine with ⟨c, found, rest⟩
  have sound : w.sh.Sound (Function.update view k (some e)) none := by
    rw [← mine, Function.update_eq_self]
    exact inv.sound
  simp only [running, Resting] at rest
  rcases inv.onConn (fun _ => True) found (wp_mono (handles c sound rest) fun _ _ =>
    cellOk_of_ended (.inl running)) with ⟨value, w', view', ran, after, -⟩
  exact ⟨value, w', view', ran, after⟩

/-! ## Events of connections -/

theorem Inv.blockNotifications (inv : Inv trusted view w) (running : w.mode = .running)
    (fds : List Fd) (envs : List Answers) :
    Continues trusted w (World.blockNotifications fds envs w) := by
  induction fds generalizing w view envs with
  | nil => exact ⟨w, view, rfl, inv, rfl, .refl w⟩
  | cons fd fds ih =>
      unfold World.blockNotifications
      split
      · next k item =>
          rcases owner_of_item inv.sound item with ⟨e, side, a, mine, -⟩
          rcases (inv.withEnv (w.headEnv envs)).dispatch running mine
            (fun c sound rest => wp_socks5Block fd sound rest) with ⟨_, w', view', ran, after⟩
          rw [ran]
          rcases ih after.inv (after.mode.trans running) envs.tail with
            ⟨w'', view'', rest, inv'', mode, evolves⟩
          exact ⟨w'', view'', rest, inv'', mode.trans after.mode,
            (evolves_withEnv w _).trans (after.evolves.trans evolves)⟩
      · exact ih inv running envs

/-- The loop of the reaper follows the list to ever older connections. -/
theorem Inv.reapFrom {now : Int} {rounds : Nat} {start : Option ConnId} {envs : List Answers}
    (inv : Inv trusted view w) (running : w.mode = .running)
    (bounded : ∀ k, start = some k → (view k).isSome ∧ k < rounds) :
    Continues trusted w (World.reapFrom now rounds start envs w) := by
  induction rounds generalizing w view start envs with
  | zero =>
      cases start with
      | none => exact ⟨w, view, by simp [World.reapFrom], inv, rfl, .refl w⟩
      | some k => exact absurd (bounded k rfl).2 (Nat.not_lt_zero k)
  | succ rounds ih =>
      cases start with
      | none => exact ⟨w, view, by simp [World.reapFrom], inv, rfl, .refl w⟩
      | some k =>
          rcases bounded k rfl with ⟨alive, small⟩
          rcases Option.isSome_iff_exists.mp alive with ⟨e, mine⟩
          rcases (inv.withEnv { w.headEnv envs with now }).dispatch running mine
            (fun c sound rest => wp_reapConn sound rest) with ⟨_, w', view', ran, after⟩
          have older : ∀ other, w.sh.list.next k = some other →
              (view' other).isSome ∧ other < rounds := by
            intro other next
            have less := inv.sound.listed.next_lt alive next
            have stays := (inv.sound.listed.neighbours alive).2 other next
            rw [after.others other (Nat.ne_of_lt less)]
            exact ⟨stays, Nat.lt_of_lt_of_le less (Nat.lt_succ_iff.mp small)⟩
          rcases ih after.inv (after.mode.trans running) older with
            ⟨w'', view'', rest, inv'', mode, evolves⟩
          refine ⟨w'', view'', ?_, inv'', mode.trans after.mode,
            (evolves_withEnv w _).trans (after.evolves.trans evolves)⟩
          simp only [World.reapFrom, ran]
          exact rest

/-! ## Accepting connections -/

/-- What a new connection holds. -/
def acceptedEnds (client : Fd) : Ends := ⟨some ⟨client, OP_READ, ⟨.connected, .other⟩⟩, none, false⟩

/-- One accepted descriptor: a connection is set up for it, or it is closed again. -/
theorem wp_acceptClient {client : Fd} {answer : AcceptAnswer} {sh : Shared}
    {post : Bool → Local → Prop} (sound : sh.Sound view none)
    (newest : ∀ other, (view other).isSome → other < k) (unused : sh.kern.isOpen client = false)
    (refused : ∀ sh', Shared.Sound view none sh' → sh'.kern.foreign = sh.kern.foreign →
      post false ⟨k, .live c, sh'⟩)
    (accepted : ∀ sh', Shared.Sound (Function.update view k (some (acceptedEnds client))) none sh' →
      sh'.kern.foreign = sh.kern.foreign → post true ⟨k, .live c, sh'⟩) :
    wp (acceptClient client answer) post ⟨k, .live c, sh⟩ := by
  have vacant : view k = none := by
    by_contra alive
    exact lt_irrefl k (newest k (Option.isSome_iff_ne_none.mpr alive))
  have loose : Shared.Sound view (some (client, ⟨.connected, .other⟩))
      { sh with kern := sh.kern.handOut client ⟨.connected, .other⟩ } :=
    ⟨sound.table.handOut _ unused, sound.slots, sound.listed, sound.sizes⟩
  -- Every refusal closes the descriptor again.
  have close : wp (closeFd client) (fun _ => wp (pure false : M Bool) post)
      ⟨k, .live c, { sh with kern := sh.kern.handOut client ⟨.connected, .other⟩ }⟩ :=
    wp_closeLoose loose fun sh' sound' foreign => (wp_pure ..).mpr (refused sh' sound' foreign)
  simp only [acceptClient, wp_bind, wp_modifyShared, wp_get, wp_ite]
  split
  · exact close
  · split
    · exact close
    · have missing : sh.sel.items client = none := (loose.table.unregistered client _ rfl).2
      simp only [selectorRegister, wp_bind, wp_get, Selector.register]
      by_cases small : client < FD_SETSIZE
      · simp only [Nat.not_le.mpr small, if_false, missing, wp_bind, wp_modifyShared, wp_pure,
          if_true, connListPush, wp_get]
        refine wp_requireAlive sound.slots ?_ ?_
        · exact fun first head => sound.listed.head_alive head
        · simp only [wp_bind, wp_modifyShared, wp_pure]
          refine accepted _ ⟨?_, ?_, ?_, sound.sizes⟩ rfl
          · have ends : View.ends (Function.update view k (some (acceptedEnds client))) =
                setEnd view.ends k .client (some ⟨client, OP_READ, ⟨.connected, .other⟩⟩) :=
              View.ends_add vacant .client _ false
            rw [ends]
            exact loose.table.enroll small (by simp [View.ends, vacant]) OP_READ
          · exact sound.slots.allocate vacant rfl rfl
          · exact sound.listed.push newest _
      · simp only [Nat.not_lt.mp small, if_true, wp_pure, Bool.false_eq_true, if_false, wp_bind]
        exact close

theorem atRest_newConn {client : Fd} {size : Nat} {now : Int} (large : 512 ≤ size) :
    AtRest trusted (newConn client size now) (acceptedEnds client) where
  fits := ⟨rfl, rfl, rfl, large, large, rfl, fun _ => ⟨rfl, rfl⟩⟩
  reachable := Relation.ReflTransGen.refl
  waits := by simp [stmState, newConn]
  armed := ⟨rfl, rfl, rfl⟩
  hungry := by simp [newConn]
  drained := by simp [newConn]

theorem setInterest_elsewhere {before sel : Selector} {kern : Kernel} {fd : Fd}
    {interest : Interest}
    {paused : Option Fd} (table : Table view.ends none before.items kern paused)
    (other : ∀ item, before.items fd = some item → item.isConn = false)
    (armed : before.setInterest fd interest = some sel) :
    Table view.ends none sel.items kern paused := by
  unfold Selector.setInterest at armed
  split at armed
  · cases armed
  · cases found : before.items fd with
    | none => simp [found] at armed
    | some item =>
        rw [found] at armed
        cases armed
        exact table.armElsewhere found (other item found) interest

theorem pause_sound {sh : Shared} {passive : Fd} {sel : Selector} (sound : sh.Sound view none)
    (listens : sh.kern.foreign passive = true)
    (armed : sh.sel.setInterest passive OP_NOOP = some sel) :
    ({ sh with sel, acceptPausedFd := some passive } : Shared).Sound view none := by
  have table := setInterest_elsewhere sound.table
    (fun _ found => sound.table.isConn_eq_false listens found) armed
  refine ⟨table.pause ?_, sound.slots, sound.listed, sound.sizes⟩
  rintro fd ⟨⟩
  exact listens

theorem Inv.acceptClient {client : Fd} (inv : Inv trusted view w) (running : w.mode = .running)
    (answer : AcceptAnswer) (unused : ¬w.sh.kern.isOpen client = true) :
    ∃ registered sh' view',
      World.acceptClient client answer ⟨w.nextId, .live (newConn client
          w.sh.config.ioBufferSize.toNat w.sh.env.now), w.sh⟩ =
        .ok (registered, ⟨w.nextId, .live (newConn client w.sh.config.ioBufferSize.toNat
          w.sh.env.now), sh'⟩) ∧
      sh'.kern.foreign = w.sh.kern.foreign ∧
      Inv trusted view'
        { w with
          heap := if registered then Function.update w.heap w.nextId
            (some (.live (newConn client w.sh.config.ioBufferSize.toNat w.sh.env.now))) else w.heap
          nextId := if registered then w.nextId + 1 else w.nextId
          sh := sh' } := by
  have newest : ∀ other, (view other).isSome → other < w.nextId :=
    fun other alive => inv.lt_nextId alive
  have large : 512 ≤ w.sh.config.ioBufferSize.toNat := inv.sound.sizes.1
  have outcome : wp (World.acceptClient client answer)
      (fun registered l => ∃ sh', l = ⟨w.nextId, .live (newConn client
          w.sh.config.ioBufferSize.toNat w.sh.env.now), sh'⟩ ∧
        sh'.kern.foreign = w.sh.kern.foreign ∧
        sh'.Sound (if registered then Function.update view w.nextId (some (acceptedEnds client))
          else view) none)
      ⟨w.nextId, .live (newConn client w.sh.config.ioBufferSize.toNat w.sh.env.now), w.sh⟩ :=
    wp_acceptClient inv.sound newest (by simpa using unused)
      (fun sh' sound foreign => ⟨sh', rfl, foreign, sound⟩)
      (fun sh' sound foreign => ⟨sh', rfl, foreign, sound⟩)
  rcases outcome with ⟨registered, l, ran, sh', rfl, foreign, sound⟩
  refine ⟨registered, sh', _, ran, foreign, sound, fun other => ?_, fun other new => ?_⟩
  · cases registered with
    | false => exact inv.cells other
    | true =>
        by_cases same : other = w.nextId
        · subst same
          simpa [running, CellOk, Resting] using atRest_newConn large
        · simpa [same] using inv.cells other
  · cases registered with
    | false => exact inv.fresh other new
    | true =>
        simp only [if_true] at new ⊢
        rw [Function.update_of_ne (Nat.ne_of_gt new)]
        exact inv.fresh other (Nat.le_of_lt new)

theorem Inv.evolves_add (inv : Inv trusted view w) {w' : World} (cell : Cell)
    (added : w'.heap = Function.update w.heap w.nextId (some cell)) : Evolves w w' := by
  have vacant := inv.fresh w.nextId (Nat.le_refl _)
  have kept : ∀ other, (w.heap other).isSome → w'.heap other = w.heap other := by
    intro other known
    have ne : other ≠ w.nextId := by
      rintro rfl
      simp [vacant] at known
    rw [added, Function.update_of_ne ne]
  refine ⟨fun other c references before => ?_, fun other known => ?_⟩
  · rw [kept other (by simp [before]), before]
  · rwa [kept other known]

theorem Inv.passiveAccept {passive : Fd} {answers : List AcceptAnswer} (inv : Inv trusted view w)
    (running : w.mode = .running) (listens : w.sh.kern.foreign passive = true) :
    Continues trusted w (World.passiveAccept passive answers w) := by
  induction answers generalizing w view with
  | nil => exact ⟨w, view, rfl, inv, rfl, .refl w⟩
  | cons answer later ih =>
      unfold World.passiveAccept
      cases answer.client with
      | error errno =>
          simp only
          split
          · have paused : ∀ fd, some passive = some fd → w.sh.kern.foreign fd = true := by
              rintro fd ⟨⟩
              exact listens
            split
            · refine ⟨_, view, rfl, ⟨⟨?_, inv.sound.slots, inv.sound.listed, inv.sound.sizes⟩,
                inv.cells, inv.fresh⟩, rfl, .of_heap_eq rfl⟩
              exact inv.sound.table.pause paused
            · next sel armed =>
                exact ⟨_, view, rfl, ⟨pause_sound inv.sound listens armed, inv.cells, inv.fresh⟩,
                  rfl, .of_heap_eq rfl⟩
          · exact ⟨w, view, rfl, inv, rfl, .refl w⟩
      | ok client =>
          simp only
          split
          · exact ⟨w, view, rfl, inv, rfl, .refl w⟩
          · next unused =>
              rcases inv.acceptClient running answer unused with
                ⟨registered, sh', view', ran, foreign, inv'⟩
              simp only [ran]
              rcases ih inv' running (foreign ▸ listens) with ⟨w'', view'', rest, inv'', mode,
                evolves⟩
              refine ⟨w'', view'', rest, inv'', mode, .trans ?_ evolves⟩
              cases registered with
              | true => exact inv.evolves_add _ rfl
              | false => exact .of_heap_eq rfl

/-! ## Single events -/

theorem After.continues {α : Type} {value : α} {w' : World} {view' : View}
    {result : Except Fault (α × World)} (ran : result = .ok (value, w'))
    (after : After trusted view k w w' view') : Continues trusted w (result.map Prod.snd) :=
  ⟨w', view', by rw [ran]; rfl, after.inv, after.mode, after.evolves⟩

theorem Inv.continues (inv : Inv trusted view w) : Continues trusted w (.ok w) :=
  ⟨w, view, rfl, inv, rfl, .refl w⟩

theorem Inv.dispatchRead (inv : Inv trusted view w) (running : w.mode = .running) (fd : Fd) :
    Continues trusted w (w.dispatchRead fd) := by
  unfold World.dispatchRead
  cases item : w.sh.sel.items fd with
  | none => exact inv.continues
  | some found =>
      rcases found with ⟨interest, owner⟩
      simp only
      split
      · next wanted =>
          cases owner with
          | conn k =>
              rcases owner_of_item inv.sound item with ⟨e, side, a, mine, has, rfl, rfl, -⟩
              rcases inv.dispatch running mine
                (fun c sound rest => wp_socks5Read side sound rest has wanted) with
                ⟨_, w', view', ran, after⟩
              exact after.continues ran
          | listener =>
              exact inv.passiveAccept running (inv.sound.table.elsewhere fd _ item rfl)
          | other => exact inv.continues
      · exact inv.continues

theorem Inv.dispatchWrite (inv : Inv trusted view w) (running : w.mode = .running) (fd : Fd)
    (honest : trusted → ∀ socket, w.sh.kern.sockets fd = some socket →
      socket.status ≠ .inProgress) :
    Continues trusted w (w.dispatchWrite fd) := by
  unfold World.dispatchWrite
  cases item : w.sh.sel.items fd with
  | none => exact inv.continues
  | some found =>
      rcases found with ⟨interest, owner⟩
      simp only
      split
      · next wanted =>
          cases owner with
          | conn k =>
              rcases owner_of_item inv.sound item with ⟨e, side, a, mine, has, rfl, rfl, socket⟩
              rcases inv.dispatch running mine
                (fun c sound rest => wp_socks5Write side sound rest has wanted
                  fun sure _ => honest sure a.socket socket) with
                ⟨_, w', view', ran, after⟩
              exact after.continues ran
          | listener => exact inv.continues
          | other => exact inv.continues
      · exact inv.continues

theorem Inv.handleBlockNotifications (inv : Inv trusted view w) (running : w.mode = .running)
    (envs : List Answers) : Continues trusted w (w.handleBlockNotifications envs) := by
  have holding : Inv trusted view
      { w with sh := { w.sh with sel := { w.sh.sel with resolutionLocked := true } } } :=
    ⟨inv.sound.of_eq rfl rfl rfl rfl rfl rfl, inv.cells, inv.fresh⟩
  rcases holding.blockNotifications running w.sh.sel.resolutionJobs envs with
    ⟨w', view', ran, inv', mode, evolves⟩
  refine ⟨{ w' with sh := { w'.sh with sel := { w'.sh.sel with
      resolutionJobs := [], resolutionLocked := false } } }, view', ?_,
    ⟨inv'.sound.of_eq rfl rfl rfl rfl rfl rfl, inv'.cells, inv'.fresh⟩, mode,
    evolves.freed, evolves.known⟩
  change (World.blockNotifications w.sh.sel.resolutionJobs envs _ >>= _) = _
  rw [ran]
  rfl

theorem Inv.reapIdle (inv : Inv trusted view w) (running : w.mode = .running) (now : Int)
    (envs : List Answers) : Continues trusted w (w.reapIdle now envs) := by
  unfold World.reapIdle
  split
  · exact inv.continues
  · have swept : Inv trusted view { w with reapLastSweep := now } :=
      ⟨inv.sound, inv.cells, inv.fresh⟩
    refine (swept.reapFrom running fun k head => ?_).of_eq rfl rfl
    have alive := inv.sound.listed.head_alive head
    exact ⟨alive, inv.lt_nextId alive⟩

theorem Inv.share {sh' : Shared} (inv : Inv trusted view w) (sound : sh'.Sound view none) :
    Continues trusted w (.ok { w with sh := sh' }) :=
  ⟨_, view, rfl, ⟨sound, inv.cells, inv.fresh⟩, rfl, .of_heap_eq rfl⟩

theorem Inv.worker (inv : Inv trusted view w) (step : WorkerStep) :
    ∃ sh', workerStep step w.sh = .ok ((), sh') ∧
      Continues trusted w (.ok { w with sh := sh' }) := by
  have stepped : wp (workerStep step) (fun _ sh' => sh'.Sound view none) w.sh :=
    wp_workerStep inv.sound.slots fun pool jobs slots =>
      ⟨inv.sound.table, slots, inv.sound.listed, inv.sound.sizes⟩
  rcases stepped with ⟨_, sh', ran, sound⟩
  exact ⟨sh', ran, inv.share sound⟩

theorem Inv.admin (inv : Inv trusted view w) (command : AdminCommand) :
    (applyAdmin w.sh command).Sound view none := by
  rcases inv.sound with ⟨table, slots, listed, sizes⟩
  refine ⟨?_, ?_, ?_, ?_⟩
  · cases command <;> exact table
  · cases command <;> exact slots
  · cases command <;> exact listed
  · cases command with
    | addUser name pass => exact sizes
    | delUser name => exact sizes
    | setConnTimeout v =>
        cases changed : configSetConnTimeout w.sh.config v with
        | none => simpa [applyAdmin, changed] using sizes
        | some config =>
            simpa [applyAdmin, changed] using configSetConnTimeout_bufferSizeInRange changed sizes
    | setIoBufferSize v =>
        cases changed : configSetIoBufferSize w.sh.config v with
        | none => simpa [applyAdmin, changed] using sizes
        | some config =>
            simpa [applyAdmin, changed] using configSetIoBufferSize_bufferSizeInRange changed
    | setMaxConnections v =>
        cases changed : configSetMaxConnections w.sh.config v with
        | none => simpa [applyAdmin, changed] using sizes
        | some config =>
            simpa [applyAdmin, changed] using configSetMaxConnections_bufferSizeInRange changed
              sizes

theorem ownedElsewhere_iff {sel : Selector} {fd : Fd} :
    ownedElsewhere sel fd = true ↔ ∃ item, sel.items fd = some item ∧ item.isConn = false := by
  unfold ownedElsewhere
  rcases sel.items fd with _ | ⟨interest, owner⟩
  · simp
  · cases owner <;> simp [Item.isConn]

theorem retryAccept_sound {sh : Shared} (sound : sh.Sound view none) :
    (retryAccept sh).Sound view none := by
  unfold retryAccept
  split
  · exact sound
  · next fd paused =>
      split
      · exact sound
      · next sel armed =>
          refine ⟨?_, sound.slots, sound.listed, sound.sizes⟩
          have table := setInterest_elsewhere sound.table (fun _ found =>
            sound.table.isConn_eq_false (sound.table.resumable fd paused) found) armed
          exact table.pause (by simp)

theorem Inv.foreign (inv : Inv trusted view w) (action : ForeignAction) :
    (applyForeign w.sh action).Sound view none := by
  have sound := inv.sound
  cases action with
  | opened fd interest listener =>
      simp only [applyForeign]
      split
      · exact sound
      · next unused =>
          have table := sound.table.openElsewhere (by simpa using unused)
          split
          · exact ⟨table, sound.slots, sound.listed, sound.sizes⟩
          · next sel registered =>
              refine ⟨?_, sound.slots, sound.listed, sound.sizes⟩
              unfold Selector.register at registered
              split at registered
              · cases registered
              · next small =>
                  split at registered
                  · cases registered
                  · cases registered
                    refine table.enrollElsewhere (by simp) (Nat.not_le.mp small) ?_
                    cases listener <;> rfl
  | armed fd interest =>
      simp only [applyForeign]
      split
      · next elsewhere =>
          rcases ownedElsewhere_iff.mp elsewhere with ⟨item, found, other⟩
          split
          · exact sound
          · next sel armed =>
              refine ⟨setInterest_elsewhere sound.table ?_ armed, sound.slots, sound.listed,
                sound.sizes⟩
              intro item' found'
              obtain rfl : item = item' := by simpa [found] using found'
              exact other
      · exact sound
  | closed fd =>
      simp only [applyForeign]
      split
      · refine retryAccept_sound ⟨?_, sound.slots, sound.listed, sound.sizes⟩
        have resumed : Table view.ends none w.sh.sel.items w.sh.kern
            (if w.sh.acceptPausedFd = some fd then none else w.sh.acceptPausedFd) := by
          refine sound.table.pause fun other paused => sound.table.resumable other ?_
          split at paused
          · cases paused
          · exact paused
        have forgotten : (if w.sh.acceptPausedFd = some fd then none else w.sh.acceptPausedFd) ≠
            some fd := by
          split
          · simp
          · next other => exact other
        by_cases elsewhere : ownedElsewhere w.sh.sel fd = true
        · rcases ownedElsewhere_iff.mp elsewhere with ⟨item, found, other⟩
          simp only [elsewhere, if_true]
          exact (resumed.clearElsewhere found other).closeElsewhere (by simp) forgotten
        · simp only [elsewhere]
          refine resumed.closeElsewhere (fun item found => ?_) forgotten
          by_contra other
          exact elsewhere (ownedElsewhere_iff.mpr ⟨item, found, by simpa using other⟩)
      · exact sound

end

end World

end SocksProxy
