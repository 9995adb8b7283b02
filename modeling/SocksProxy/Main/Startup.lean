import SocksProxy.Main.Runs

/-!
# Starting up

`main()` up to its loop, with every failure on the way. A startup that succeeds
ends in a state that the SOCKS5 side reaches when two listeners are opened; one
that fails goes to `server_cleanup()` with what it has opened so far.
-/

namespace SocksProxy

open Prog

namespace Process

open World

/-- The process before its loop: at most the listeners are open, nobody is connected. -/
structure Starting (deps : MgmtDeps) (p : Process) : Prop where
  ok : p.world.Ok False
  mode : p.world.mode = .running
  heap : ∀ k, p.world.heap k = none
  deps : p.deps = deps
  paused : p.world.sh.acceptPausedFd = none
  unlocked : p.world.sh.sel.resolutionLocked = false
  foreign : ∀ fd, p.world.sh.kern.foreign fd = true ↔
    p.passive = some fd ∨ p.mngPassive = some fd
  apart : ∀ fd, p.passive = some fd → p.mngPassive ≠ some fd
  items : ∀ fd item, p.world.sh.sel.items fd = some item →
    (p.passive = some fd ∧ item = ⟨OP_READ, .listener⟩) ∨
      (p.mngPassive = some fd ∧ item = ⟨OP_READ, .other⟩)
  mgmt : ∀ fd, p.mgmt fd = none
  silent : ∀ id, p.heard id = []
  active : p.activeMgmtConnections = 0

/-- What is around connections before there are any. -/
def startSurroundings (p : Process) : Surroundings where
  foreign := p.world.sh.kern.foreign
  items := fun fd => (p.world.sh.sel.items fd).filter fun item => item.owner = .other
  listener := p.passive.filter fun fd => (p.world.sh.sel.items fd).isSome
  locked := p.world.sh.sel.resolutionLocked
  users := p.world.sh.users
  config := p.world.sh.config
  strange := by
    intro fd item found
    rcases Option.filter_eq_some_iff.mp found with ⟨-, other⟩
    simpa using other

section

variable {deps : MgmtDeps} {p : Process} {fd : Fd}

theorem listener_startSurroundings : p.startSurroundings.listener = some fd ↔
    p.passive = some fd ∧ (p.world.sh.sel.items fd).isSome = true := by
  simp [startSurroundings, Option.filter_eq_some_iff]

theorem Starting.hold (starting : Starting deps p) :
    p.startSurroundings.Hold p.world.sh := by
  refine ⟨rfl, fun fd _ elsewhere => ?_, fun fd listens => ?_, fun fd paused => ?_, rfl, rfl,
    rfl⟩
  · cases found : p.world.sh.sel.items fd with
    | none => simp [startSurroundings, found]
    | some item =>
        rcases starting.items fd item found with ⟨listens, -⟩ | ⟨-, rfl⟩
        · exact absurd (listener_startSurroundings.mpr ⟨listens, by simp [found]⟩) elsewhere
        · refine Eq.symm ?_
          simp [startSurroundings, found]
  · rcases listener_startSurroundings.mp listens with ⟨listens, some⟩
    refine ⟨(starting.foreign fd).mpr (.inl listens), ?_⟩
    rcases Option.isSome_iff_exists.mp some with ⟨item, found⟩
    rcases starting.items fd item found with ⟨-, rfl⟩ | ⟨manages, -⟩
    · rw [found, starting.paused]
      rfl
    · exact absurd manages (starting.apart fd listens)
  · rw [starting.paused] at paused
    cases paused

theorem Starting.layout (starting : Starting deps p) : Layout p.startSurroundings p := by
  refine ⟨fun fd => ?_, fun fd listens => ⟨starting.apart fd listens, starting.mgmt fd⟩,
    fun fd _ => starting.mgmt fd, fun fd listens => (listener_startSurroundings.mp listens).1,
    fun fd slot found => ?_, ?_, starting.unlocked⟩
  · simp [startSurroundings, starting.foreign, starting.mgmt]
  · rw [starting.mgmt] at found
    cases found
  · rw [starting.active, eq_comm, Finset.card_eq_zero, Finset.eq_empty_iff_forall_notMem]
    intro fd member
    rw [mem_mgmtFds, starting.mgmt] at member
    cases member.2

theorem Starting.within (starting : Starting deps p) (good : Obs → Prop) :
    p.world.Within p.startSurroundings good := by
  refine ⟨starting.hold, fun k c live => ?_, fun k cell found => ?_⟩
  · rw [starting.heap] at live
    cases live
  · rw [starting.heap] at found
    cases found

theorem Starting.current (starting : Starting deps p) :
    (service deps []).deps.users = p.startSurroundings.users :=
  (congrArg MgmtDeps.users starting.deps).symm

theorem Starting.heard (starting : Starting deps p) : LinesHeard [] p := by
  refine ⟨fun _ => List.nil_prefix, fun fd slot found => ?_, fun id _ => ⟨rfl, starting.silent id⟩⟩
  rw [starting.mgmt] at found
  cases found

theorem Starting.failed (starting : Starting deps p) : p.failed.Stands deps [] := by
  refine Coherent.stands ⟨starting.ok, ⟨p.startSurroundings, starting.within _, starting.current,
    ?_, nofun, windsDown_of_running starting.mode⟩, nofun,
    starting.heard.still rfl rfl fun _ => rfl⟩ rfl
  have layout := starting.layout
  exact ⟨layout.foreign, layout.passive, layout.mngPassive, layout.listener, layout.held,
    layout.active, layout.unlocked⟩

theorem Starting.serving {first second : Fd} (starting : Starting deps p)
    (reachable : p.world.Reachable) (serving : p.phase = .serving) (accepting : p.accepting = true)
    (listens : p.passive = some first) (manages : p.mngPassive = some second)
    (item₁ : (p.world.sh.sel.items first).isSome = true)
    (item₂ : (p.world.sh.sel.items second).isSome = true) : p.Stands deps [] := by
  refine Coherent.stands ⟨starting.ok, ⟨p.startSurroundings, starting.within _, starting.current,
    starting.layout, fun _ => ⟨starting.mode, reachable, ?_, fun fd manages' => ?_, ?_, ?_⟩,
    windsDown_of_running starting.mode⟩, fun _ => ⟨starting.deps.symm, fun _ _ => rfl, ?_, ?_, ?_⟩,
    starting.heard⟩ (by rw [serving]; rfl)
  · rw [listens]
    exact listener_startSurroundings.mpr ⟨listens, item₁⟩
  · obtain rfl : second = fd := Option.some.inj (manages.symm.trans manages')
    rcases Option.isSome_iff_exists.mp item₂ with ⟨item, found⟩
    rcases starting.items second item found with ⟨listens', -⟩ | ⟨-, rfl⟩
    · exact absurd manages (starting.apart second listens')
    · simp [startSurroundings, found]
  · rw [listens, accepting]
    rfl
  · rw [manages, accepting]
    rfl
  all_goals
    intro fd
    simp [starting.mgmt]

/-! ## The steps of the startup -/

theorem starting_loaded (args : Socks5Args) (log : AccessLog) (now : Int)
    (calendar : CalendarTime) :
    Starting (mgmtDepsInit args log) (loaded args log now calendar) := by
  have ok : (loaded args log now calendar).world.Ok False := by
    have initial : (World.initial (seedUsers usersInit args.users) log now calendar).Ok False :=
      ok_initial _ _ _ _
    rcases initial with ⟨view, inv⟩
    exact ⟨view, ⟨inv.sound.table, ⟨Pool.ok_initial, inv.sound.slots.counts⟩, inv.sound.listed,
      inv.sound.sizes⟩, inv.cells, inv.fresh⟩
  exact ⟨ok, rfl, fun _ => rfl, rfl, rfl, rfl, by simp [loaded, World.initial, Kernel.initial],
    nofun, by simp [loaded, World.initial, Selector.empty], fun _ => rfl, fun _ => rfl, rfl⟩

/-- `server_setup_passive` either leaves nothing behind or one open socket. -/
theorem setupPassiveFrom_cases (answers : List ListenAnswer) (p : Process) :
    setupPassiveFrom answers p = .ok (none, p) ∨ ∃ fd, p.world.sh.kern.isOpen fd = false ∧
      setupPassiveFrom answers p = .ok (some fd, p.openFd fd) := by
  induction answers with
  | nil => exact .inl rfl
  | cons answer rest ih =>
      unfold setupPassiveFrom
      split
      · exact ih
      · next fd _ =>
          split
          · exact ih
          · next unused =>
              have closed := Bool.eq_false_iff.mpr unused
              split
              · exact .inr ⟨fd, closed, rfl⟩
              · rw [closeFd_openFd closed]
                exact ih

theorem serverSetupPassive_cases (p : Process) (answers : Option (List ListenAnswer)) :
    p.serverSetupPassive answers = .ok (none, p) ∨ ∃ fd, p.world.sh.kern.isOpen fd = false ∧
      p.serverSetupPassive answers = .ok (some fd, p.openFd fd) := by
  cases answers with
  | none => exact .inl rfl
  | some answers => exact setupPassiveFrom_cases answers p

theorem Starting.openFd {passive mngPassive : Option Fd} (starting : Starting deps p)
    (closed : p.world.sh.kern.isOpen fd = false)
    (held : ∀ other, (passive = some other ∨ mngPassive = some other) ↔
      (p.passive = some other ∨ p.mngPassive = some other) ∨ other = fd)
    (apart : ∀ other, passive = some other → mngPassive ≠ some other)
    (kept : ∀ other, p.passive = some other → passive = some other)
    (keptMng : ∀ other, p.mngPassive = some other → mngPassive = some other) :
    Starting deps { p.openFd fd with passive, mngPassive } := by
  rcases starting.ok with ⟨view, inv⟩
  refine ⟨⟨view, ⟨inv.sound.table.openElsewhere closed, inv.sound.slots, inv.sound.listed,
    inv.sound.sizes⟩, inv.cells, inv.fresh⟩, starting.mode, starting.heap, starting.deps,
    starting.paused, starting.unlocked, fun other => ?_, apart, fun other item found => ?_,
    starting.mgmt, starting.silent, starting.active⟩
  · rw [held, ← starting.foreign]
    by_cases same : other = fd
    · simp [Process.openFd, share, same]
    · simp [Process.openFd, share, same]
  · rcases starting.items other item found with ⟨listens, same⟩ | ⟨manages, same⟩
    · exact .inl ⟨kept other listens, same⟩
    · exact .inr ⟨keptMng other manages, same⟩

theorem Starting.startPool (starting : Starting deps p) (created : Bool) :
    ∃ started pool, socks5ResolverPoolStart created p.world.sh.pool = .ok (started, pool) ∧
      Starting deps (p.share fun sh => { sh with pool }) := by
  rcases starting.ok with ⟨view, inv⟩
  rcases @Pool.wp_socks5ResolverPoolStart _ created inv.sound.slots.ok with
    ⟨started, pool, ran, ok, slots, -⟩
  have counts : Slots view pool := ⟨ok, by rw [slots]; exact inv.sound.slots.counts⟩
  refine ⟨started, pool, ran, ⟨⟨view, ⟨inv.sound.table, counts, inv.sound.listed,
    inv.sound.sizes⟩, inv.cells, inv.fresh⟩, starting.mode, starting.heap, starting.deps,
    starting.paused, starting.unlocked, starting.foreign, starting.apart, starting.items,
    starting.mgmt, starting.silent, starting.active⟩⟩

theorem Starting.register {owner : Owner} {sel : Selector} (starting : Starting deps p)
    (registered : p.world.sh.sel.register fd OP_READ owner = some sel)
    (listens : (p.passive = some fd ∧ owner = .listener) ∨
      (p.mngPassive = some fd ∧ owner = .other)) :
    Starting deps (p.share fun sh => { sh with sel }) ∧
      ∀ other, sel.items other = if other = fd then some ⟨OP_READ, owner⟩
        else p.world.sh.sel.items other := by
  rcases starting.ok with ⟨view, inv⟩
  unfold Selector.register at registered
  split at registered
  · cases registered
  next small =>
  split at registered
  · cases registered
  cases registered
  have foreign : p.world.sh.kern.foreign fd = true := by
    rw [starting.foreign]
    exact listens.imp And.left And.left
  have elsewhere : Item.isConn ⟨OP_READ, owner⟩ = false := by
    rcases listens with ⟨-, rfl⟩ | ⟨-, rfl⟩ <;> rfl
  have table := inv.sound.table.enrollElsewhere foreign (Nat.not_le.mp small) elsewhere
  refine ⟨⟨⟨view, ⟨table, inv.sound.slots, inv.sound.listed, inv.sound.sizes⟩, inv.cells,
    inv.fresh⟩, starting.mode, starting.heap, starting.deps, starting.paused, starting.unlocked,
    starting.foreign, starting.apart, fun other item found => ?_, starting.mgmt, starting.silent,
    starting.active⟩, fun other => ?_⟩
  · by_cases same : other = fd
    · subst same
      simp only [share, Function.update_self, Option.some.injEq] at found
      subst found
      rcases listens with ⟨listens, rfl⟩ | ⟨manages, rfl⟩
      · exact .inl ⟨listens, rfl⟩
      · exact .inr ⟨manages, rfl⟩
    · simp only [share, Function.update_of_ne same] at found
      exact starting.items other item found
  · by_cases same : other = fd
    · simp [same]
    · simp [same]

/-- Opening both listeners is what other modules may do on the SOCKS5 side. -/
theorem reachable_registered {users : Users} {log : AccessLog} {now : Int}
    {calendar : CalendarTime} {first second : Fd} {sel₁ sel₂ : Selector} {w : World}
    (begun : w = World.initial users log now calendar)
    (closed₁ : w.sh.kern.isOpen first = false)
    (closed₂ : ({ w.sh.kern with
      foreign := Function.update w.sh.kern.foreign first true } : Kernel).isOpen second = false)
    (registered₁ : w.sh.sel.register first OP_READ .listener = some sel₁)
    (registered₂ : sel₁.register second OP_READ .other = some sel₂) :
    ({ w with sh := { w.sh with
        kern := { w.sh.kern with
          foreign := Function.update (Function.update w.sh.kern.foreign first true) second true }
        sel := sel₂ } } : World).Reachable := by
  have start : w.Reachable := ⟨users, log, now, calendar, [], by rw [begun]; rfl⟩
  have running : w.mode = .running := by rw [begun]; rfl
  have opened := (start.foreign running (.opened first OP_READ true)).foreign running
    (.opened second OP_READ false)
  simpa only [applyForeign, closed₁, closed₂, registered₁, registered₂, Bool.false_eq_true,
    if_false, if_true] using opened

/-- Registering the listeners, when the selector was empty so far. -/
theorem Starting.registerListeners {first second : Fd} (starting : Starting deps p)
    (serving : p.phase = .serving) (accepting : p.accepting = true)
    (listens : p.passive = some first) (manages : p.mngPassive = some second)
    (reachable : ∀ sel₁ sel₂, p.world.sh.sel.register first OP_READ .listener = some sel₁ →
      sel₁.register second OP_READ .other = some sel₂ →
      (p.share fun sh => { sh with sel := sel₂ }).world.Reachable) :
    (p.registerListeners first second).Stands deps [] := by
  unfold Process.registerListeners
  split
  · exact starting.failed
  · next sel₁ registered₁ =>
      rcases starting.register registered₁ (.inl ⟨listens, rfl⟩) with ⟨starting₁, items₁⟩
      split
      · exact starting₁.failed
      · next sel₂ registered₂ =>
          rcases starting₁.register registered₂ (.inr ⟨manages, rfl⟩) with ⟨starting₂, items₂⟩
          refine Starting.serving starting₂ (reachable sel₁ sel₂ registered₁ registered₂) serving
            accepting listens manages ?_ ?_
          · change (sel₂.items first).isSome = true
            have differs : first ≠ second := by
              rintro rfl
              exact starting.apart first listens manages
            rw [items₂ first, if_neg differs]
            change (sel₁.items first).isSome = true
            rw [items₁ first, if_pos rfl]
            rfl
          · change (sel₂.items second).isSome = true
            rw [items₂ second, if_pos rfl]
            rfl

/-- The listener of the proxy is open, the one of the management service is next. -/
theorem Starting.startMng {users : Users} {log : AccessLog} {now : Int} {calendar : CalendarTime}
    {first : Fd} (starting : Starting deps p) (serving : p.phase = .serving)
    (accepting : p.accepting = true) (listens : p.passive = some first)
    (unmanaged : p.mngPassive = none) {w : World} (begun : w = World.initial users log now calendar)
    (closed₁ : w.sh.kern.isOpen first = false)
    (opened : p.world = { w with sh := { w.sh with
      pool := Pool.initial
      kern := { w.sh.kern with foreign := Function.update w.sh.kern.foreign first true } } })
    (answers : StartAnswers) :
    ∃ p', p.startMng answers first = .ok p' ∧ p'.Stands deps [] := by
  unfold Process.startMng
  rcases p.serverSetupPassive_cases answers.mngPassive with none | ⟨second, closed₂, some⟩
  · rw [none]
    exact ⟨_, rfl, starting.failed⟩
  have differs : first ≠ second := by
    rintro rfl
    rw [Kernel.isOpen, Bool.or_eq_false_iff, (starting.foreign first).mpr (.inl listens)] at closed₂
    cases closed₂.2
  have held : ∀ other, (p.passive = Option.some other ∨ Option.some second = Option.some other) ↔
      (p.passive = Option.some other ∨ p.mngPassive = Option.some other) ∨ other = second := by
    simp [unmanaged, eq_comm]
  have apart : ∀ other, p.passive = Option.some other → Option.some second ≠ Option.some other := by
    intro other listens' same
    rw [listens, ← same, Option.some.injEq] at listens'
    exact differs listens'
  have starting₂ : Starting deps { p.openFd second with mngPassive := Option.some second } :=
    starting.openFd closed₂ held apart (fun _ => id) (by rw [unmanaged]; rintro _ ⟨⟩)
  rw [some]
  dsimp only
  split
  swap
  · exact ⟨_, rfl, starting₂.failed⟩
  unfold Process.startPool
  rcases starting₂.startPool answers.poolStart with ⟨started, pool, ran, starting₃⟩
  rw [ran]
  refine ⟨_, rfl, ?_⟩
  split
  swap
  · exact starting₃.failed
  next running =>
  have ready : pool = Pool.ready := by
    have before : ({ p.openFd second with mngPassive := Option.some second } :
        Process).world.sh.pool = Pool.initial := congrArg (fun world => world.sh.pool) opened
    rw [before] at ran
    cases created : answers.poolStart with
    | true =>
        rw [created] at ran
        cases ran
        rfl
    | false =>
        rw [created] at ran
        cases ran
        cases running
  refine starting₃.registerListeners serving accepting listens rfl fun sel₁ sel₂ registered₁
    registered₂ => ?_
  subst begun
  have registered : Selector.empty.register first OP_READ .listener = Option.some sel₁ := by
    have sel : p.world.sh.sel = Selector.empty := congrArg (fun world => world.sh.sel) opened
    rw [← sel]
    exact registered₁
  have kern : p.world.sh.kern = { Kernel.initial with
      foreign := Function.update Kernel.initial.foreign first true } :=
    congrArg (fun world => world.sh.kern) opened
  rw [kern] at closed₂
  have reached := reachable_registered (w := World.initial users log now calendar) rfl closed₁
    closed₂ registered registered₂
  simp only [share, Process.openFd, opened, ready]
  exact reached

/-- `main()` reaches its loop or leaves through `server_cleanup()`, and nothing faults on the
way. -/
theorem start_stands (args : Socks5Args) (log : AccessLog) (now : Int) (calendar : CalendarTime)
    (answers : StartAnswers) :
    ∃ p, start args log now calendar answers = .ok p ∧ p.Stands (mgmtDepsInit args log) [] := by
  have starting₀ := starting_loaded args log now calendar
  unfold start
  rcases (loaded args log now calendar).serverSetupPassive_cases answers.passive with
    none | ⟨first, closed₁, some⟩
  · rw [none]
    exact ⟨_, rfl, starting₀.failed⟩
  have held : ∀ other, (Option.some first = Option.some other ∨ none = Option.some other) ↔
      (none = Option.some other ∨ none = Option.some other) ∨ other = first := by
    simp [eq_comm]
  have starting₁ : Starting (mgmtDepsInit args log)
      { (loaded args log now calendar).openFd first with passive := Option.some first } :=
    starting₀.openFd closed₁ held (fun _ _ => nofun) nofun nofun
  rw [some]
  dsimp only
  split
  · exact starting₁.startMng rfl rfl rfl rfl rfl closed₁ rfl answers
  · exact ⟨_, rfl, starting₁.failed⟩

/-- No run of `main()` faults, and its invariant holds at the end. -/
theorem main_stands (args : Socks5Args) (log : AccessLog) (now : Int) (calendar : CalendarTime)
    (answers : StartAnswers) (happens : List ProcessEvent) :
    ∃ p events, main args log now calendar answers happens = .ok p ∧
      p.Stands (mgmtDepsInit args log) events := by
  rcases start_stands args log now calendar answers with ⟨p₀, started, stands₀⟩
  rcases stands₀.run happens with ⟨p, events, ran, stands⟩
  exact ⟨p, events, by simp only [main, started, ran], stands⟩

theorem stands_of_main {args : Socks5Args} {log : AccessLog} {now : Int}
    {calendar : CalendarTime} {answers : StartAnswers} {happens : List ProcessEvent}
    (ran : main args log now calendar answers happens = .ok p) :
    ∃ events, p.Stands (mgmtDepsInit args log) events := by
  rcases main_stands args log now calendar answers happens with ⟨p', events, ran', stands⟩
  rw [ran] at ran'
  cases ran'
  exact ⟨events, stands⟩

/-! ## A server that listens

Both listeners can be opened, as descriptors 3 and 4. The theorems about runs are applied to it. -/

def sampleLog : AccessLog := ⟨true, []⟩

def sampleTime : CalendarTime := ⟨2026, 7, 9, 14, 22, 1⟩

def listening : StartAnswers where
  passive := some [⟨.ok 3, true, true⟩]
  passiveNio := true
  mngPassive := some [⟨.ok 4, true, true⟩]
  mngPassiveNio := true
  selectorInit := true
  selectorNew := true
  poolStart := true

/-- Whether what happens leads to such a state. -/
def leadsTo (p : Process) (happens : List ProcessEvent) (holds : Process → Bool) : Bool :=
  match p.run happens with
  | .ok p' => holds p'
  | .error _ => false

theorem run_of_leadsTo {happens : List ProcessEvent} {holds : Process → Bool}
    (leads : p.leadsTo happens holds = true) : ∃ p', p.run happens = .ok p' ∧ holds p' = true := by
  unfold leadsTo at leads
  split at leads
  · next p' ran => exact ⟨p', ran, leads⟩
  · cases leads

/-- The same from the start on. -/
def endsWith (happens : List ProcessEvent) (holds : Process → Bool) : Bool :=
  match start defaultArgs sampleLog 0 sampleTime listening with
  | .ok p => p.leadsTo happens holds
  | .error _ => false

theorem main_of_endsWith {happens : List ProcessEvent} {holds : Process → Bool}
    (ended : endsWith happens holds = true) :
    ∃ p, main defaultArgs sampleLog 0 sampleTime listening happens = .ok p ∧ holds p = true := by
  unfold endsWith at ended
  split at ended
  · next p₀ started =>
      rcases run_of_leadsTo ended with ⟨p, ran, holds⟩
      exact ⟨p, by simp only [main, started, ran], holds⟩
  · cases ended

end

end Process

end SocksProxy
