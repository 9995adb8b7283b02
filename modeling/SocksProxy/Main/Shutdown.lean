import SocksProxy.Main.Steps

/-!
# Cleaning up

`server_cleanup()`, from whatever state `main()` leaves its loop or its startup
in. `selector_destroy` goes over all descriptors and calls the close handler of
whoever is registered there, a SOCKS5 connection or a management connection;
the listeners only lose their items and are closed last.
-/

namespace SocksProxy

open Prog

namespace Surroundings

variable {around : Surroundings} {sh : Shared} {fd : Fd}

/-- The item of another module is cleared; the descriptor stays open. -/
def clear (around : Surroundings) (fd : Fd) : Surroundings where
  foreign := around.foreign
  items := Function.update around.items fd none
  listener := if around.listener = some fd then none else around.listener
  users := around.users
  locked := around.locked
  config := around.config
  strange := by
    intro other item found
    by_cases same : other = fd
    · simp [same] at found
    · rw [Function.update_of_ne same] at found
      exact around.strange other item found

theorem listener_clear {other : Fd} :
    (around.clear fd).listener = some other ↔ around.listener = some other ∧ other ≠ fd := by
  simp only [clear]
  split
  · next listens => simp [listens, eq_comm]
  · next apart =>
      refine ⟨fun listens => ⟨listens, ?_⟩, And.left⟩
      rintro rfl
      exact apart listens

theorem Hold.clear (hold : around.Hold sh) :
    (around.clear fd).Hold { sh with sel := sh.sel.clear fd } := by
  refine ⟨hold.foreign, fun other strange elsewhere => ?_, fun other listens => ?_,
    fun other waits => ?_, hold.locked, hold.users, hold.config⟩
  · by_cases same : other = fd
    · simp [Selector.clear, Surroundings.clear, same]
    · simp only [Selector.clear, Surroundings.clear, Function.update_of_ne same]
      exact hold.others other strange fun listens =>
        elsewhere (listener_clear.mpr ⟨listens, same⟩)
  · rcases listener_clear.mp listens with ⟨listens, differs⟩
    simp only [Selector.clear, Function.update_of_ne differs]
    exact hold.listens other listens
  · by_cases same : other = fd
    · subst same
      refine .inr ⟨?_, by simp [Surroundings.clear]⟩
      rcases hold.paused other waits with listens | ⟨foreign, -⟩
      · exact (hold.listens other listens).1
      · exact foreign
    · rcases hold.paused other waits with listens | ⟨foreign, gone⟩
      · exact .inl (listener_clear.mpr ⟨listens, same⟩)
      · refine .inr ⟨foreign, ?_⟩
        simp only [Surroundings.clear, Function.update_of_ne same]
        exact gone

end Surroundings

namespace World

variable {around : Surroundings} {good : Obs → Prop} {w : World} {trusted : Prop} {view : View}
  {fd : Fd}

/-- Who has an item at a descriptor. -/
def Registered (view : View) (around : Surroundings) (fd : Fd) : Prop :=
  (∃ k side a, view.ends k side = some a ∧ a.fd = fd) ∨ around.listener = some fd ∨
    (around.foreign fd = true ∧ around.listener ≠ some fd ∧ (around.items fd).isSome = true)

theorem registered_iff (inv : Inv trusted view w) (within : w.Within around good) :
    (w.sh.sel.items fd).isSome = true ↔ Registered view around fd := by
  constructor
  · intro some
    rcases Option.isSome_iff_exists.mp some with ⟨item, found⟩
    cases conn : item.isConn with
    | true =>
        rcases item with ⟨interest, owner⟩
        cases owner with
        | conn k =>
            rcases inv.sound.table.owned fd interest k found with client | origin
            · rcases Option.map_eq_some_iff.mp client with ⟨a, has, same⟩
              exact .inl ⟨k, .client, a, has, same⟩
            · rcases Option.map_eq_some_iff.mp origin with ⟨a, has, same⟩
              exact .inl ⟨k, .origin, a, has, same⟩
        | listener | other => cases conn
    | false =>
        have foreign : around.foreign fd = true := by
          rw [← within.hold.foreign]
          exact inv.sound.table.elsewhere fd item found conn
        by_cases listens : around.listener = Option.some fd
        · exact .inr (.inl listens)
        · rw [within.hold.others fd foreign listens] at some
          exact .inr (.inr ⟨foreign, listens, some⟩)
  · rintro (⟨k, side, a, has, rfl⟩ | listens | ⟨foreign, apart, some⟩)
    · simp [(inv.sound.table.registered k side a has).1]
    · simp [(within.hold.listens fd listens).2]
    · rwa [within.hold.others fd foreign apart]

theorem fd_ne_of_foreign (inv : Inv trusted view w) (within : w.Within around good) {k : ConnId}
    {side : Side} {a : End} (has : view.ends k side = some a)
    (foreign : around.foreign fd = true) : a.fd ≠ fd := by
  rintro rfl
  rw [← within.hold.foreign] at foreign
  have socket := (inv.sound.table.registered k side a has).2
  rw [inv.sound.table.apart a.fd foreign] at socket
  cases socket

theorem destroyFrom_of_vacant (vacant : ∀ fd, w.sh.sel.items fd = none) (fds : List Fd) :
    destroyFrom fds (List.replicate fds.length w.sh.env) w = .ok w := by
  induction fds with
  | nil => rfl
  | cons fd fds ih =>
      have same : w.withEnv (w.headEnv (List.replicate (fds.length + 1) w.sh.env)) = w := rfl
      simp only [List.length_cons, destroyFrom, same, unregister, vacant fd]
      exact ih

theorem Inv.ok_destroyed (inv : Inv trusted view w) (stopped : w.mode = .stopped)
    (vacant : ∀ fd, w.sh.sel.items fd = none) :
    Ok trusted { w with mode := .destroyed } := by
  rcases inv.destroy stopped (List.replicate (List.range (FD_SETSIZE + 1)).length w.sh.env) with
    ⟨w', ran, ok, -, -⟩
  rw [destroyFrom_of_vacant vacant] at ran
  cases ran
  exact ok

theorem Ok.not_live (ok : w.Ok trusted) (ended : w.mode = .destroyed) (k : ConnId) (c : Conn) :
    w.heap k ≠ some (.live c) := by
  intro live
  rcases ok with ⟨view, inv⟩
  rcases inv.resting live with ⟨e, -, rest⟩
  rw [ended] at rest
  exact rest.elim

end World

namespace Process

open World

/-- The process while the selector is destroyed. -/
structure Winding (around : Surroundings) (good : Obs → Prop) (p : Process) : Prop where
  inv : ∃ view, Inv False view p.world
  stopped : p.world.mode = .stopped
  within : p.world.Within around good
  layout : Layout around p

/-- What destroying the selector leaves as it is; management connections may be gone. -/
structure Kept (p p' : Process) : Prop where
  phase : p'.phase = p.phase
  nextMgmt : p'.nextMgmt = p.nextMgmt
  heard : p'.heard = p.heard
  mgmt : ∀ fd slot, p'.mgmt fd = some slot → p.mgmt fd = some slot

/-- Some descriptors are left to no one, and nothing was added. -/
structure Sheds (fds : List Fd) (p p' : Process) : Prop extends Kept p p' where
  items : ∀ fd, (p'.world.sh.sel.items fd).isSome = true →
    (p.world.sh.sel.items fd).isSome = true ∧ fd ∉ fds

section

variable {around around' : Surroundings} {good : Obs → Prop} {p p' : Process} {fd : Fd}
  {view view' : View} {slot : MgmtSlot}

theorem Kept.hears {events : List ServiceEvent} (kept : Kept p p') (heard : LinesHeard events p) :
    LinesHeard events p' := by
  refine ⟨?_, fun fd slot found => ?_, ?_⟩
  · rw [kept.heard]
    exact heard.lines
  · rw [kept.heard]
    exact heard.slots fd slot (kept.mgmt fd slot found)
  · rw [kept.nextMgmt, kept.heard]
    exact heard.fresh

theorem Sheds.cons {fds : List Fd} {p'' : Process} (first : Sheds [fd] p p')
    (second : Sheds fds p' p'') : Sheds (fd :: fds) p p'' := by
  refine ⟨⟨second.phase.trans first.phase, second.nextMgmt.trans first.nextMgmt,
    second.heard.trans first.heard, fun other slot found => first.mgmt other slot
      (second.mgmt other slot found)⟩, fun other some => ?_⟩
  rcases second.items other some with ⟨before, later⟩
  rcases first.items other before with ⟨earlier, now⟩
  simp only [List.mem_singleton] at now
  exact ⟨earlier, by simp [now, later]⟩

theorem Sheds.of_registered (inv : Inv False view p.world) (within : p.world.Within around good)
    (inv' : Inv False view' p'.world) (within' : p'.world.Within around' good)
    (kept : Kept p p')
    (fewer : ∀ other, Registered view' around' other → Registered view around other ∧ other ≠ fd) :
    Sheds [fd] p p' := by
  refine ⟨kept, fun other some => ?_⟩
  rcases fewer other ((registered_iff inv' within').mp some) with ⟨before, differs⟩
  exact ⟨(registered_iff inv within).mpr before, by simpa using differs⟩

theorem Winding.unregisterMgmt {interest : Interest} (winding : Winding around good p)
    (found : p.mgmt fd = some slot) (item : p.world.sh.sel.items fd = some ⟨interest, .other⟩) :
    ∃ p', p.unregisterMgmt fd = .ok p' ∧ Winding (around.drop fd) good p' ∧ Sheds [fd] p p' := by
  rcases winding with ⟨⟨view, inv⟩, stopped, within, layout⟩
  rcases layout.apart found with ⟨foreign, apart, apartMng⟩
  have open_ := (congrFun within.hold.foreign fd).trans foreign
  have small : fd < FD_SETSIZE := inv.sound.table.range fd (by simp [item])
  have hold := hold_closed within.hold open_ (ownedElsewhere_of_item item rfl)
  have inv' : Inv False view
      { p.world with sh := applyForeign p.world.sh (.closed fd) } :=
    ⟨inv.foreign (.closed fd), inv.cells, inv.fresh⟩
  refine ⟨_, unregisterMgmt_eq open_ item (layout.not_paused within.hold found item),
    ⟨⟨view, inv'⟩, stopped, within.drop hold, ?_⟩, ?_⟩
  · refine layout.drop (if_neg apart).symm (if_neg apartMng).symm rfl ?_
    change p.activeMgmtConnections - 1 = (mgmtFds (Function.update p.mgmt fd none)).card
    rw [card_mgmtFds_close (mem_mgmtFds.mpr ⟨small, by simp [found]⟩), layout.active]
  · have fewer : ∀ other slot', Function.update p.mgmt fd none other = some slot' →
        p.mgmt other = some slot' := by
      intro other slot' found'
      by_cases same : other = fd
      · simp [same] at found'
      · rwa [Function.update_of_ne same] at found'
    refine .of_registered inv within inv' (within.drop hold) ⟨rfl, rfl, rfl, fewer⟩ ?_
    have listener : (around.drop fd).listener = around.listener :=
      if_neg (layout.not_listener apart)
    rintro other (⟨k, side, a, has, rfl⟩ | listens | ⟨strange, elsewhere, some⟩)
    · exact ⟨.inl ⟨k, side, a, has, rfl⟩, fd_ne_of_foreign inv within has foreign⟩
    · rw [listener] at listens
      refine ⟨.inr (.inl listens), ?_⟩
      rintro rfl
      exact layout.not_listener apart listens
    · rw [listener] at elsewhere
      have differs : other ≠ fd := by
        rintro rfl
        simp [Surroundings.drop] at strange
      simp only [Surroundings.drop, Function.update_of_ne differs] at strange
      exact ⟨.inr (.inr ⟨strange, elsewhere, some⟩), differs⟩

theorem Winding.clearItem {interest : Interest} {owner : Owner} (winding : Winding around good p)
    (vacant : p.mgmt fd = none) (item : p.world.sh.sel.items fd = some ⟨interest, owner⟩)
    (other : Item.isConn ⟨interest, owner⟩ = false) :
    Winding (around.clear fd) good (p.clearItem fd) ∧ Sheds [fd] p (p.clearItem fd) := by
  rcases winding with ⟨⟨view, inv⟩, stopped, within, layout⟩
  have foreign : around.foreign fd = true := by
    rw [← within.hold.foreign]
    exact inv.sound.table.elsewhere fd _ item other
  have inv' : Inv False view (p.clearItem fd).world :=
    ⟨⟨inv.sound.table.clearElsewhere item other, inv.sound.slots, inv.sound.listed,
      inv.sound.sizes⟩, inv.cells, inv.fresh⟩
  have within' : (p.clearItem fd).world.Within (around.clear fd) good :=
    ⟨within.hold.clear, within.apart, within.good⟩
  refine ⟨⟨⟨view, inv'⟩, stopped, within', ⟨layout.foreign, layout.passive, layout.mngPassive,
    fun other listens => ?_, fun other slot found => ?_, layout.active, layout.unlocked⟩⟩,
    ?_⟩
  · exact layout.listener other (Surroundings.listener_clear.mp listens).1
  · have differs : other ≠ fd := by
      rintro rfl
      change p.mgmt other = some slot at found
      rw [vacant] at found
      cases found
    simp only [Surroundings.clear, Function.update_of_ne differs]
    exact layout.held other slot found
  · refine .of_registered inv within inv' within' ⟨rfl, rfl, rfl, fun _ _ => id⟩ ?_
    rintro other (⟨k, side, a, has, rfl⟩ | listens | ⟨strange, elsewhere, some⟩)
    · exact ⟨.inl ⟨k, side, a, has, rfl⟩, fd_ne_of_foreign inv within has foreign⟩
    · rcases Surroundings.listener_clear.mp listens with ⟨listens, differs⟩
      exact ⟨.inr (.inl listens), differs⟩
    · have differs : other ≠ fd := by
        rintro rfl
        simp [Surroundings.clear] at some
      simp only [Surroundings.clear, Function.update_of_ne differs] at some
      exact ⟨.inr (.inr ⟨strange, fun listens => elsewhere
        (Surroundings.listener_clear.mpr ⟨listens, differs⟩), some⟩), differs⟩

theorem Winding.unregisterConn {interest : Interest} {k : ConnId}
    (winding : Winding around good p)
    (consulted : ∀ what : Obs, what.Consults around.users → good what)
    (item : p.world.sh.sel.items fd = some ⟨interest, .conn k⟩) :
    ∃ world, p.world.unregister fd = .ok world ∧ Winding around good { p with world } ∧
      Sheds [fd] p { p with world } := by
  rcases winding with ⟨⟨view, inv⟩, stopped, within, layout⟩
  rcases inv.unregister stopped fd with ⟨world, view', ran, inv', mode, -, vacated⟩
  have own : around.foreign fd = false := within.hold.own item
  have within' : world.Within around good := by
    have handled := ran
    simp only [World.unregister, item] at handled
    exact within.onConn_map consulted (fun _ => keeps_turns fun _ => keeps_selectorUnregisterFd own)
      handled
  refine ⟨world, ran, ⟨⟨view', inv'⟩, mode.trans stopped, within', ⟨layout.foreign, layout.passive,
    layout.mngPassive, layout.listener, layout.held, layout.active, layout.unlocked⟩⟩, ?_⟩
  refine .of_registered inv within inv' within' ⟨rfl, rfl, rfl, fun _ _ => id⟩ ?_
  have apart : ∀ other, around.foreign other = true → other ≠ fd := by
    rintro other foreign rfl
    rw [own] at foreign
    cases foreign
  rintro other (⟨k', side, a, has, rfl⟩ | listens | ⟨strange, elsewhere, some⟩)
  · rcases vacated k' side a has with ⟨differs, b, before, same⟩
    exact ⟨.inl ⟨k', side, b, before, same⟩, differs⟩
  · exact ⟨.inr (.inl listens), apart other (within.hold.listens other listens).1⟩
  · exact ⟨.inr (.inr ⟨strange, elsewhere, some⟩), apart other strange⟩

/-- One round of the loop of `selector_destroy`. -/
theorem Winding.unregister (winding : Winding around good p)
    (consulted : ∀ what : Obs, what.Consults around.users → good what) (fd : Fd) :
    ∃ p' around', p.unregister fd = .ok p' ∧ Winding around' good p' ∧
      around'.users = around.users ∧ Sheds [fd] p p' := by
  unfold Process.unregister
  split
  · next item found =>
      rcases winding.unregisterMgmt found item with ⟨p', ran, winding', sheds⟩
      exact ⟨p', _, ran, winding', rfl, sheds⟩
  · next unmanaged =>
      have cleared : ∀ interest owner, p.world.sh.sel.items fd = some ⟨interest, owner⟩ →
          Item.isConn ⟨interest, owner⟩ = false → p.mgmt fd = none → ∃ p' around',
            (.ok (p.clearItem fd) : Except Fault Process) = .ok p' ∧ Winding around' good p' ∧
            around'.users = around.users ∧ Sheds [fd] p p' := by
        intro interest owner item other vacant
        rcases winding.clearItem vacant item other with ⟨winding', sheds⟩
        exact ⟨_, _, rfl, winding', rfl, sheds⟩
      cases item : p.world.sh.sel.items fd with
      | none =>
          refine ⟨p, around, by simp [World.unregister, item], winding, rfl,
            ⟨rfl, rfl, rfl, fun _ _ => id⟩, ?_⟩
          intro other some
          refine ⟨some, ?_⟩
          rw [List.mem_singleton]
          rintro rfl
          simp [item] at some
      | some found =>
          rcases found with ⟨interest, owner⟩
          cases owner with
          | conn k =>
              rcases winding.unregisterConn consulted item with ⟨world, ran, winding', sheds⟩
              exact ⟨_, around, by rw [ran], winding', rfl, sheds⟩
          | listener =>
              rw [World.unregister, item]
              refine cleared interest .listener item rfl ?_
              by_contra managed
              rcases Option.ne_none_iff_exists'.mp managed with ⟨slot, found⟩
              rcases winding.layout.held fd slot found with ⟨interest', there⟩
              rw [winding.layout.items_eq winding.within.hold found, there] at item
              cases item
          | other =>
              rw [World.unregister, item]
              refine cleared interest .other item rfl ?_
              by_contra managed
              rcases Option.ne_none_iff_exists'.mp managed with ⟨slot, found⟩
              exact unmanaged interest slot item found

theorem Winding.withEnv (winding : Winding around good p) (env : Answers) :
    Winding around good { p with world := p.world.withEnv env } := by
  rcases winding with ⟨⟨view, inv⟩, stopped, within, layout⟩
  exact ⟨⟨view, inv.withEnv env⟩, stopped, within.withEnv env, ⟨layout.foreign, layout.passive,
    layout.mngPassive, layout.listener, layout.held, layout.active, layout.unlocked⟩⟩

theorem Winding.destroyFrom (winding : Winding around good p)
    (consulted : ∀ what : Obs, what.Consults around.users → good what) (fds : List Fd)
    (envs : List Answers) :
    ∃ p' around', destroyFrom fds envs p = .ok p' ∧ Winding around' good p' ∧
      around'.users = around.users ∧ Sheds fds p p' := by
  induction fds generalizing p around envs with
  | nil =>
      exact ⟨p, around, rfl, winding, rfl, ⟨rfl, rfl, rfl, fun _ _ => id⟩,
        fun fd some => ⟨some, by simp⟩⟩
  | cons fd fds ih =>
      rcases (winding.withEnv (p.world.headEnv envs)).unregister consulted fd with
        ⟨p₁, around₁, ran, winding₁, users₁, sheds₁⟩
      rw [← users₁] at consulted
      rcases ih winding₁ consulted envs.tail with ⟨p₂, around₂, rest, winding₂, users₂, sheds₂⟩
      refine ⟨p₂, around₂, ?_, winding₂, users₂.trans users₁, ?_⟩
      · simp only [Process.destroyFrom, ran]
        exact rest
      · have first : Sheds [fd] p p₁ :=
          ⟨⟨sheds₁.phase, sheds₁.nextMgmt, sheds₁.heard, sheds₁.mgmt⟩, sheds₁.items⟩
        exact first.cons sheds₂

end

section

variable {deps : MgmtDeps} {events : List ServiceEvent} {p : Process}

theorem Coherent.selectorDestroy (coherent : p.Coherent deps events) (left : p.phase ≠ .serving)
    (stopped : p.world.mode = .stopped) (envs : List Answers) :
    ∃ p', p.selectorDestroy envs = .ok p' ∧ p'.Coherent deps events ∧ p'.phase = p.phase := by
  rcases coherent with ⟨ok, ⟨around, within, current, layout, -, -⟩, -, heard⟩
  have winding : Winding around (Informed deps events) p := ⟨ok, stopped, within, layout⟩
  rcases winding.destroyFrom (fun _ => Informed.of_consults (known_current current))
    (List.range (FD_SETSIZE + 1)) envs with
    ⟨p', around', ran, ⟨⟨view, inv⟩, stopped', within', layout'⟩, users, sheds⟩
  have vacant : ∀ fd, p'.world.sh.sel.items fd = none := by
    intro fd
    by_contra registered
    have some := Option.isSome_iff_ne_none.mpr registered
    have small := inv.sound.table.range fd some
    exact (sheds.items fd some).2 (List.mem_range.mpr (Nat.lt_succ_of_lt small))
  have unlistened : around'.listener = none := by
    by_contra listened
    rcases Option.ne_none_iff_exists'.mp listened with ⟨fd, listens⟩
    have item := (within'.hold.listens fd listens).2
    rw [vacant fd] at item
    cases item
  refine ⟨{ p' with world := { p'.world with mode := .destroyed } },
    ?_, ⟨inv.ok_destroyed stopped' vacant, ⟨around',
      ⟨within'.hold, within'.apart, within'.good⟩, users ▸ current,
      ⟨layout'.foreign, layout'.passive, layout'.mngPassive, layout'.listener, layout'.held,
        layout'.active, layout'.unlocked⟩,
      fun serving => absurd (sheds.phase.symm.trans serving) left, nofun, fun _ => ⟨unlistened,
        fun fd foreign => ?_⟩⟩, fun serving => absurd (sheds.phase.symm.trans serving) left,
      (sheds.toKept.hears heard).still rfl rfl fun _ => rfl⟩, sheds.phase⟩
  · unfold Process.selectorDestroy
    rw [ran]
  · rw [← within'.hold.others fd foreign (by simp [unlistened])]
    exact vacant fd

/-- Nothing is left of the process. -/
structure Closed (p : Process) : Prop where
  descriptors : ∀ fd, p.world.sh.kern.isOpen fd = false
  selector : ∀ fd, p.world.sh.sel.items fd = none
  connections : ∀ k c, p.world.heap k ≠ some (.live c)
  sessions : ∀ fd, p.mgmt fd = none
  active : p.activeMgmtConnections = 0

/-- What is left when the selector was destroyed are the listeners. -/
theorem Coherent.destroyed (coherent : p.Coherent deps events)
    (ended : p.world.mode = .destroyed) :
    (∀ fd, p.world.sh.sel.items fd = none) ∧ (∀ k c, p.world.heap k ≠ some (.live c)) ∧
      (∀ fd, p.mgmt fd = none) ∧ p.activeMgmtConnections = 0 ∧
      (∀ fd, p.world.sh.kern.sockets fd = none) ∧
      (∀ fd, p.world.sh.kern.foreign fd = true ↔ p.passive = some fd ∨ p.mngPassive = some fd) ∧
      ∀ fd, p.passive = some fd → p.mngPassive ≠ some fd := by
  rcases coherent with ⟨ok, ⟨around, within, -, layout, -, winds⟩, -, -⟩
  have dead := ok.not_live ended
  rcases ok with ⟨view, inv⟩
  rcases winds.2 ended with ⟨unlistened, vacant⟩
  have sessions : ∀ fd, p.mgmt fd = none := by
    intro fd
    by_contra managed
    rcases Option.ne_none_iff_exists'.mp managed with ⟨slot, found⟩
    rcases layout.held fd slot found with ⟨interest, item⟩
    rw [vacant fd (layout.apart found).1] at item
    cases item
  have unheld : ∀ k side, view.ends k side = none := by
    intro k side
    by_contra held
    rcases Option.ne_none_iff_exists'.mp held with ⟨a, has⟩
    rcases Option.bind_eq_some_iff.mp has with ⟨e, mine, -⟩
    rcases inv.live mine with ⟨c, live, -⟩
    exact dead k c live
  have items : ∀ fd, p.world.sh.sel.items fd = none := by
    intro fd
    by_contra registered
    rcases (registered_iff inv within).mp (Option.isSome_iff_ne_none.mpr registered) with
      ⟨k, side, a, has, -⟩ | listens | ⟨foreign, -, some⟩
    · rw [unheld k side] at has
      cases has
    · rw [unlistened] at listens
      cases listens
    · rw [vacant fd foreign] at some
      cases some
  refine ⟨items, dead, sessions, ?_, fun fd => ?_, fun fd => ?_, fun fd listens =>
    (layout.passive fd listens).1⟩
  · rw [layout.active, Finset.card_eq_zero, Finset.eq_empty_iff_forall_notMem]
    intro fd member
    rw [mem_mgmtFds, sessions fd] at member
    cases member.2
  · by_contra open_
    rcases Option.ne_none_iff_exists'.mp open_ with ⟨socket, found⟩
    rcases inv.sound.table.held fd socket found with loose | item
    · cases loose
    · rw [items fd] at item
      cases item
  · rw [within.hold.foreign, layout.foreign, sessions fd]
    simp

theorem closeListener_ok {listener : Option Fd}
    (open_ : ∀ fd, listener = some fd → p.world.sh.kern.foreign fd = true) :
    ∃ foreign, p.closeListener listener =
        .ok (p.share fun sh => { sh with kern := { sh.kern with foreign } }) ∧
      ∀ fd, foreign fd = true ↔ p.world.sh.kern.foreign fd = true ∧ listener ≠ some fd := by
  cases listener with
  | none => exact ⟨p.world.sh.kern.foreign, rfl, by simp⟩
  | some fd =>
      refine ⟨Function.update p.world.sh.kern.foreign fd false, ?_, fun other => ?_⟩
      · simp only [Process.closeListener, closeFd, open_ fd rfl, if_true]
        rfl
      · by_cases same : other = fd
        · simp [same]
        · simp [same, Ne.symm same]

theorem Coherent.closeListeners (coherent : p.Coherent deps events)
    (ended : p.world.mode = .destroyed) (ret : Nat) :
    ∃ p', p.closeListeners ret = .ok p' ∧ p'.Closed ∧ p'.phase = .returned ret ∧
      p'.world.heap = p.world.heap ∧ p'.world.sh.users = p.world.sh.users ∧
      p'.heard = p.heard := by
  rcases coherent.destroyed ended with ⟨items, dead, sessions, active, sockets, foreign, apart⟩
  have open₀ : ∀ fd, p.passive = some fd → p.world.sh.kern.foreign fd = true :=
    fun fd listens => (foreign fd).mpr (.inl listens)
  rcases closeListener_ok open₀ with ⟨foreign₁, closed₁, left₁⟩
  let p₁ : Process :=
    p.share fun sh => { sh with kern := { sh.kern with foreign := foreign₁ } }
  have open₁ : ∀ fd, p.mngPassive = some fd → p₁.world.sh.kern.foreign fd = true := by
    intro fd manages
    exact (left₁ fd).mpr ⟨(foreign fd).mpr (.inr manages), fun listens => apart fd listens manages⟩
  rcases closeListener_ok open₁ with ⟨foreign₂, closed₂, left₂⟩
  refine ⟨{ p₁.share fun sh => { sh with kern := { sh.kern with foreign := foreign₂ } } with
      passive := none, mngPassive := none, phase := .returned ret }, ?_,
    ⟨fun fd => ?_, items, dead, sessions, active⟩, rfl, rfl, rfl, rfl⟩
  · rw [Process.closeListeners, show p.closeListener p.passive = .ok p₁ from closed₁]
    dsimp only
    rw [closed₂]
  rw [Kernel.isOpen, Bool.or_eq_false_iff]
  refine ⟨?_, ?_⟩
  · change (p.world.sh.kern.sockets fd).isSome = false
    rw [sockets fd]
    rfl
  · change foreign₂ fd = false
    rw [Bool.eq_false_iff]
    intro still
    rcases (left₂ fd).mp still with ⟨still, unmanaged⟩
    rcases (left₁ fd).mp still with ⟨still, unheard⟩
    rcases (foreign fd).mp still with listens | manages
    · exact unheard listens
    · exact unmanaged manages

end

end Process

end SocksProxy
