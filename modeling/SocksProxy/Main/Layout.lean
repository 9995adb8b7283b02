import SocksProxy.Management.Connections
import SocksProxy.Management.Service
import SocksProxy.Safety.Neighbours
import SocksProxy.Server.Main

/-!
# Who holds which descriptor

What `main()` and the management connections do to the selector and to their
descriptors, seen from the SOCKS5 side: each of it is one of the events in which
the event loop of the SOCKS5 connections allows for other modules, and changes
their surroundings in one place. `Layout` says to whom every foreign descriptor
belongs.
-/

namespace SocksProxy

open Prog

/-! ## Surroundings that change -/

namespace Surroundings

variable {around : Surroundings} {sh sh' : Shared} {fd : Fd}

/-- Other users and other settings. -/
def configured (around : Surroundings) (users : Users) (config : Config) : Surroundings :=
  { around with users, config }

/-- A descriptor of another module, registered for some interest. -/
def put (around : Surroundings) (fd : Fd) (interest : Interest) : Surroundings where
  foreign := Function.update around.foreign fd true
  items := Function.update around.items fd (some ⟨interest, .other⟩)
  listener := around.listener
  locked := around.locked
  users := around.users
  config := around.config
  strange := by
    intro other item found
    by_cases same : other = fd
    · subst same
      rw [Function.update_self] at found
      cases found
      rfl
    · rw [Function.update_of_ne same] at found
      exact around.strange other item found

theorem Hold.put (hold : around.Hold sh) {interest : Interest} (apart : around.listener ≠ some fd)
    (armed : sh.acceptPausedFd ≠ some fd)
    (foreign : sh'.kern.foreign = Function.update sh.kern.foreign fd true)
    (items : sh'.sel.items = Function.update sh.sel.items fd (some ⟨interest, .other⟩))
    (paused : sh'.acceptPausedFd = sh.acceptPausedFd)
    (locked : sh'.sel.resolutionLocked = sh.sel.resolutionLocked) (users : sh'.users = sh.users)
    (config : sh'.config = sh.config) : (around.put fd interest).Hold sh' := by
  refine ⟨?_, fun other strange elsewhere => ?_, fun other listens => ?_, fun other waits => ?_,
    locked.trans hold.locked, users.trans hold.users, config.trans hold.config⟩
  · rw [foreign, hold.foreign]
    rfl
  · rw [items]
    by_cases same : other = fd
    · simp [Surroundings.put, same]
    · simp only [Surroundings.put, Function.update_of_ne same] at strange ⊢
      exact hold.others other strange elsewhere
  · have differs : other ≠ fd := by
      rintro rfl
      exact apart listens
    simp only [Surroundings.put, items, paused, Function.update_of_ne differs]
    exact hold.listens other listens
  · rw [paused] at waits
    have differs : other ≠ fd := by
      rintro rfl
      exact armed waits
    simp only [Surroundings.put, Function.update_of_ne differs]
    exact hold.paused other waits

/-- Another module has closed a descriptor. -/
def drop (around : Surroundings) (fd : Fd) : Surroundings :=
  { around with
    foreign := Function.update around.foreign fd false
    listener := if around.listener = some fd then none else around.listener }

theorem Hold.drop (hold : around.Hold sh)
    (foreign : sh'.kern.foreign = Function.update sh.kern.foreign fd false)
    (items : ∀ other, other ≠ fd → sh'.sel.items other = sh.sel.items other)
    (paused : sh'.acceptPausedFd = if sh.acceptPausedFd = some fd then none else sh.acceptPausedFd)
    (locked : sh'.sel.resolutionLocked = sh.sel.resolutionLocked) (users : sh'.users = sh.users)
    (config : sh'.config = sh.config) : (around.drop fd).Hold sh' := by
  have still : ∀ other, other ≠ fd →
      (sh'.acceptPausedFd = some other ↔ sh.acceptPausedFd = some other) := by
    intro other differs
    rw [paused]
    split
    · next waits =>
        rw [waits]
        simpa using differs.symm
    · rfl
  refine ⟨?_, fun other strange elsewhere => ?_, fun other listens => ?_, fun other waits => ?_,
    locked.trans hold.locked, users.trans hold.users, config.trans hold.config⟩
  · rw [foreign, hold.foreign]
    rfl
  · by_cases gone : other = fd
    · simp [Surroundings.drop, gone] at strange
    · simp only [Surroundings.drop, Function.update_of_ne gone] at strange elsewhere ⊢
      rw [items other gone]
      refine hold.others other strange fun listens => elsewhere ?_
      rw [if_neg (by rw [listens]; simpa using gone)]
      exact listens
  · simp only [Surroundings.drop] at listens
    split at listens
    · cases listens
    · next apart =>
        have differs : other ≠ fd := by
          rintro rfl
          exact apart listens
        simp only [Surroundings.drop, items other differs, still other differs,
          Function.update_of_ne differs]
        exact hold.listens other listens
  · have differs : other ≠ fd := by
      rintro rfl
      rw [paused] at waits
      split at waits
      · cases waits
      · next apart => exact apart waits
    simp only [Surroundings.drop, Function.update_of_ne differs]
    rcases hold.paused other ((still other differs).mp waits) with listens | gone
    · left
      rw [if_neg (by rw [listens]; simpa using differs)]
      exact listens
    · exact .inr gone

end Surroundings

/-! ## Connections and their surroundings -/

namespace World

section

variable {around : Surroundings} {good : Obs → Prop} {w : World} {trusted : Prop} {view : View}
  {k : ConnId} {c : Conn} {fd : Fd}

theorem Inv.isSome_sockets (inv : Inv trusted view w) (found : w.heap k = some (.live c))
    (named : c.clientFd = some fd ∨ c.originFd = some fd) : (w.sh.kern.sockets fd).isSome := by
  rcases inv.resting found with ⟨e, mine, rest⟩
  have fields : c.clientFd = e.client.map End.fd ∧ c.originFd = e.origin.map End.fd := by
    cases mode : w.mode with
    | running | joining =>
        rw [mode] at rest
        exact ⟨rest.fits.clientFd, rest.fits.originFd⟩
    | stopped =>
        rw [mode] at rest
        exact ⟨rest.clientFd, rest.originFd⟩
    | destroyed =>
        rw [mode] at rest
        exact rest.elim
  have held : ∃ side a, view.ends k side = some a ∧ a.fd = fd := by
    rcases named with client | origin
    · rcases Option.map_eq_some_iff.mp (fields.1.symm.trans client) with ⟨a, has, same⟩
      exact ⟨.client, a, by simp [View.ends, mine, Ends.get, has], same⟩
    · rcases Option.map_eq_some_iff.mp (fields.2.symm.trans origin) with ⟨a, has, same⟩
      exact ⟨.origin, a, by simp [View.ends, mine, Ends.get, has], same⟩
  rcases held with ⟨side, a, has, rfl⟩
  simp [(inv.sound.table.registered k side a has).2]

/-- Another module registers a descriptor it has just opened, or arms one of its own. -/
theorem Within.put (within : Within around good w) {interest : Interest} {sh : Shared}
    (apart : ∀ k c, w.heap k = some (.live c) → c.clientFd ≠ some fd ∧ c.originFd ≠ some fd)
    (hold : (around.put fd interest).Hold sh) :
    Within (around.put fd interest) good { w with sh } := by
  refine ⟨hold, fun k c live other named => ?_, within.good⟩
  have differs : other ≠ fd := by
    rintro rfl
    rcases apart k c live with ⟨client, origin⟩
    exact named.elim client origin
  simp only [Surroundings.Own, Surroundings.put, Function.update_of_ne differs]
  exact within.apart k c live other named

theorem Within.drop (within : Within around good w) {sh : Shared}
    (hold : (around.drop fd).Hold sh) : Within (around.drop fd) good { w with sh } := by
  refine ⟨hold, fun k c live other named => ?_, within.good⟩
  by_cases same : other = fd
  · simp [Surroundings.Own, Surroundings.drop, same]
  · simp only [Surroundings.Own, Surroundings.drop, Function.update_of_ne same]
    exact within.apart k c live other named

theorem Within.configured (within : Within around good w) {sh : Shared} {users : Users}
    {config : Config} (hold : (around.configured users config).Hold sh) :
    Within (around.configured users config) good { w with sh } :=
  ⟨hold, within.apart, within.good⟩

theorem Within.mono {better : Obs → Prop} (within : Within around good w)
    (weaker : ∀ what, good what → better what) : Within around better w :=
  ⟨within.hold, within.apart, fun k cell found what member =>
    weaker what (within.good k cell found what member)⟩

end

/-! ## Events of other modules -/

section

variable {sh : Shared} {fd : Fd}

theorem itemsMaxFd_congr {items items' : Fd → Option Item} {maxFd : Nat}
    (same : ∀ fd, (items' fd).isSome = (items fd).isSome) :
    Selector.itemsMaxFd items' maxFd = Selector.itemsMaxFd items maxFd := by
  simp only [Selector.itemsMaxFd, same]

theorem setInterest_clear {sel : Selector} {other : Fd} (differs : other ≠ fd)
    (interest : Interest) :
    (sel.clear fd).setInterest other interest =
      (sel.setInterest other interest).map fun sel => sel.clear fd := by
  simp only [Selector.setInterest, Selector.clear, Function.update_of_ne differs]
  split
  · rfl
  cases found : sel.items other with
  | none => rfl
  | some item =>
      simp only [Option.map_some, Option.some.injEq, Selector.mk.injEq, and_self, and_true]
      refine ⟨Function.update_comm differs.symm _ _ _, ?_⟩
      refine itemsMaxFd_congr fun any => ?_
      by_cases cleared : any = fd
      · simp [cleared]
      · by_cases same : any = other
        · simp [same, differs, found]
        · simp [cleared, same]

/-- `mgmt_close` retries before its item is cleared; it might as well retry after. -/
theorem clear_retryAccept (forgotten : sh.acceptPausedFd ≠ some fd) :
    { retryAccept sh with sel := (retryAccept sh).sel.clear fd } =
      retryAccept { sh with sel := sh.sel.clear fd } := by
  unfold retryAccept
  cases paused : sh.acceptPausedFd with
  | none => simp [paused]
  | some other =>
      have differs : other ≠ fd := by
        rintro rfl
        exact forgotten paused
      simp only [setInterest_clear differs]
      cases sh.sel.setInterest other OP_READ <;> simp [paused]

theorem hold_opened {around : Surroundings} (hold : around.Hold sh)
    (closed : sh.kern.isOpen fd = false) (small : fd < FD_SETSIZE) (free : sh.sel.items fd = none)
    (interest : Interest) :
    (around.put fd interest).Hold (applyForeign sh (.opened fd interest false)) := by
  have unknown : around.foreign fd ≠ true := by
    rw [Kernel.isOpen, Bool.or_eq_false_iff] at closed
    rw [← hold.foreign, closed.2]
    simp
  have apart : around.listener ≠ some fd := fun listens => unknown (hold.listens fd listens).1
  have armed : sh.acceptPausedFd ≠ some fd := by
    intro waits
    rcases hold.paused fd waits with listens | ⟨foreign, -⟩
    · exact apart listens
    · exact unknown foreign
  simp only [applyForeign, closed, Bool.false_eq_true, if_false, Selector.register,
    if_neg (Nat.not_le.mpr small), free]
  exact hold.put apart armed rfl rfl rfl rfl rfl rfl

theorem hold_armed {around : Surroundings} {before : Interest} (hold : around.Hold sh)
    (foreign : around.foreign fd = true) (apart : around.listener ≠ some fd)
    (item : sh.sel.items fd = some ⟨before, .other⟩) (small : fd < FD_SETSIZE)
    (interest : Interest) :
    (around.put fd interest).Hold (applyForeign sh (.armed fd interest)) := by
  have armed : sh.acceptPausedFd ≠ some fd := by
    intro waits
    rcases hold.paused fd waits with listens | ⟨-, gone⟩
    · exact apart listens
    · rw [hold.others fd foreign apart, gone] at item
      cases item
  have same : Function.update sh.kern.foreign fd true = sh.kern.foreign := by
    rw [← foreign, ← hold.foreign, Function.update_eq_self]
  have owned : ownedElsewhere sh.sel fd = true := ownedElsewhere_iff.mpr ⟨_, item, rfl⟩
  simp only [applyForeign, owned, if_true, Selector.setInterest, if_neg (Nat.not_le.mpr small),
    item]
  exact hold.put apart armed same.symm rfl rfl rfl rfl rfl

theorem hold_closed {around : Surroundings} (hold : around.Hold sh)
    (foreign : sh.kern.foreign fd = true) (owned : ownedElsewhere sh.sel fd = true) :
    (around.drop fd).Hold (applyForeign sh (.closed fd)) := by
  simp only [applyForeign, foreign, owned, if_true]
  refine Surroundings.Hold.retryAccept (hold.drop rfl (fun other differs => ?_) rfl rfl rfl rfl)
  simp [Selector.clear, differs]

end

end World

namespace Process

open World

section

variable {p : Process} {fd : Fd} {interest : Interest} {owner : Owner}

theorem ownedElsewhere_of_item (item : p.world.sh.sel.items fd = some ⟨interest, owner⟩)
    (other : Item.isConn ⟨interest, owner⟩ = false) :
    ownedElsewhere p.world.sh.sel fd = true := ownedElsewhere_iff.mpr ⟨_, item, other⟩

theorem unregisterMgmt_eq (foreign : p.world.sh.kern.foreign fd = true)
    (item : p.world.sh.sel.items fd = some ⟨interest, .other⟩)
    (forgotten : p.world.sh.acceptPausedFd ≠ some fd) :
    p.unregisterMgmt fd = .ok
      { p.share fun sh => applyForeign sh (.closed fd) with
        mgmt := Function.update p.mgmt fd none
        activeMgmtConnections := p.activeMgmtConnections - 1 } := by
  have owned := ownedElsewhere_of_item item rfl
  simp only [unregisterMgmt, mgmtClose, closeFd, foreign, if_true, clearItem, share, applyForeign,
    owned, if_neg forgotten]
  congr 2
  exact congrArg (fun sh => ({ p.world with sh } : World)) (clear_retryAccept forgotten)

theorem selectorSetInterestKey_eq (item : p.world.sh.sel.items fd = some ⟨interest, owner⟩)
    (other : Item.isConn ⟨interest, owner⟩ = false) (wanted : Interest) :
    p.selectorSetInterestKey fd wanted =
      p.share fun sh => applyForeign sh (.armed fd wanted) := by
  have owned := ownedElsewhere_of_item item other
  simp only [selectorSetInterestKey, share, applyForeign, owned, if_true]
  cases p.world.sh.sel.setInterest fd wanted <;> rfl

theorem closePassive_eq (listening : p.passive = some fd)
    (foreign : p.world.sh.kern.foreign fd = true)
    (item : p.world.sh.sel.items fd = some ⟨interest, .listener⟩)
    (alone : p.world.sh.acceptPausedFd = none ∨ p.world.sh.acceptPausedFd = some fd) :
    p.closePassive = .ok
      { p.share fun sh => applyForeign sh (.closed fd) with passive := none } := by
  have owned := ownedElsewhere_of_item item rfl
  have forgotten : (if p.world.sh.acceptPausedFd = some fd then none
      else p.world.sh.acceptPausedFd) = none := by
    split
    · rfl
    · next apart => exact alone.resolve_right apart
  simp only [closePassive, listening, socks5ForgetPausedListener, clearItem, closeFd, share,
    foreign, if_true, applyForeign, owned, forgotten, retryAccept]

theorem closeMngPassive_eq (listening : p.mngPassive = some fd)
    (foreign : p.world.sh.kern.foreign fd = true)
    (item : p.world.sh.sel.items fd = some ⟨interest, .other⟩)
    (unpaused : p.world.sh.acceptPausedFd = none) :
    p.closeMngPassive = .ok
      { p.share fun sh => applyForeign sh (.closed fd) with mngPassive := none } := by
  have owned := ownedElsewhere_of_item item rfl
  simp only [closeMngPassive, listening, clearItem, closeFd, share, foreign, if_true, applyForeign,
    owned, unpaused, reduceCtorEq, if_false, retryAccept]

theorem closeFd_openFd (closed : p.world.sh.kern.isOpen fd = false) :
    (p.openFd fd).closeFd fd = .ok p := by
  have foreign : p.world.sh.kern.foreign fd = false := by
    rw [Kernel.isOpen, Bool.or_eq_false_iff] at closed
    exact closed.2
  have same : Function.update p.world.sh.kern.foreign fd false = p.world.sh.kern.foreign := by
    rw [← foreign, Function.update_eq_self]
  simp [openFd, closeFd, share, same]

/-- An accepted management connection, as the SOCKS5 side sees it. -/
theorem mgmtPassiveAccept_cases (answer : AcceptAnswer) :
    p.mgmtPassiveAccept answer = .ok p ∨
      ∃ client, p.world.sh.kern.isOpen client = false ∧ client < FD_SETSIZE ∧
        p.world.sh.sel.items client = none ∧
        p.mgmtPassiveAccept answer = .ok
          { p.share fun sh => applyForeign sh (.opened client OP_READ false) with
            mgmt := Function.update p.mgmt client (some ⟨p.nextMgmt, newMgmtConn⟩)
            nextMgmt := p.nextMgmt + 1
            activeMgmtConnections := p.activeMgmtConnections + 1 } := by
  unfold mgmtPassiveAccept
  cases answer.client with
  | error errno => exact .inl rfl
  | ok client =>
      by_cases inUse : p.world.sh.kern.isOpen client = true
      · simp [inUse]
      · have closed := Bool.eq_false_iff.mpr inUse
        have undone := closeFd_openFd closed
        simp only [closed, Bool.false_eq_true, if_false, undone]
        split
        · exact .inl rfl
        split
        · exact .inl rfl
        cases registered : p.world.sh.sel.register client OP_READ .other with
        | none =>
            simp only [openFd, share, registered]
            exact .inl trivial
        | some sel =>
            refine .inr ⟨client, closed, ?_⟩
            have free : client < FD_SETSIZE ∧ p.world.sh.sel.items client = none := by
              unfold Selector.register at registered
              split at registered
              · cases registered
              · next small =>
                  split at registered
                  · cases registered
                  · next free => exact ⟨Nat.not_le.mp small, free⟩
            refine ⟨free.1, free.2, ?_⟩
            simp only [openFd, share, registered, applyForeign, closed, Bool.false_eq_true,
              if_false]

end

end Process

end SocksProxy
