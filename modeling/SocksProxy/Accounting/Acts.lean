import Mathlib.Logic.Relation
import SocksProxy.Server.Completion
import SocksProxy.Server.Socks5

/-!
# What a handler can do

Metrics, access log, kernel and selector are shared by all connections and other
modules, and each handler touches them in a few ways only. `Act` lists these
ways, together with what happens to the history of the connection at the same
time; the handlers are shown to be made of acts. What holds of every act then
holds of every dispatch, with no further look at the handlers.

This is a statement about the program text alone, and says nothing of runs that
fault. It holds for every choice of descriptors that a handler may touch, as
long as they include what its connection has and what no other module has.
-/

namespace SocksProxy

open Prog

/-- A connection attempt of `fd` is still pending. -/
def Kernel.Pending (k : Kernel) (fd : Fd) : Prop :=
  (k.sockets fd).map Socket.status = some .inProgress

/-- Only a number that is handed out anew gets a pending connection attempt. -/
def Kernel.Renews (k k' : Kernel) : Prop :=
  ∀ fd, k.opened fd ≤ k'.opened fd ∧ (k'.opened fd = k.opened fd → k'.Pending fd → k.Pending fd)

namespace Kernel

theorem Renews.refl (k : Kernel) : k.Renews k := fun _ => ⟨Nat.le_refl _, fun _ pending => pending⟩

theorem Renews.trans {k k' k'' : Kernel} (first : k.Renews k') (second : k'.Renews k'') :
    k.Renews k'' := by
  intro fd
  rcases first fd with ⟨less, old⟩
  rcases second fd with ⟨less', old'⟩
  refine ⟨Nat.le_trans less less', fun same pending => ?_⟩
  exact old (Nat.le_antisymm (by omega) less) (old' (by omega) pending)

theorem renews_release (k : Kernel) (fd : Fd) : k.Renews (k.release fd) := by
  intro other
  refine ⟨Nat.le_refl _, fun _ pending => ?_⟩
  by_cases same : other = fd
  · subst same
    simp [Pending, release] at pending
  · simpa [Pending, release, same] using pending

theorem renews_handOut (k : Kernel) (fd : Fd) (socket : Socket) :
    k.Renews (k.handOut fd socket) := by
  intro other
  by_cases same : other = fd
  · subst same
    simp [handOut]
  · simp [Pending, handOut, same]

theorem renews_handOut_setSocket (k : Kernel) (fd : Fd) (socket changed : Socket) :
    k.Renews ((k.handOut fd socket).setSocket fd changed) := by
  intro other
  by_cases same : other = fd
  · subst same
    simp [handOut, setSocket]
  · simp [Pending, handOut, setSocket, same]

theorem renews_settle (k : Kernel) (fd : Fd) (error : Option Errno) :
    k.Renews (k.settle fd error) := by
  intro other
  unfold settle
  split
  · split
    · refine ⟨Nat.le_refl _, fun _ pending => ?_⟩
      by_cases same : other = fd
      · subst same
        cases error <;> simp [Pending, setSocket] at pending
      · simpa [Pending, setSocket, same] using pending
    · exact Renews.refl k other
  · exact Renews.refl k other

end Kernel

/-- The counters and the note of it, once `metrics_connection_closed` was called for `id`. -/
def Shared.uncount (sh : Shared) (id : ConnId) : Shared :=
  { sh with
    metrics := metricsConnectionClosed sh.metrics
    closings := (id, sh.metrics.activeConnections) :: sh.closings }

/-- Log, metrics and calendar are left alone, and the kernel at most hands out numbers. -/
structure Shared.SameBooks (sh sh' : Shared) : Prop where
  log : sh'.log = sh.log
  metrics : sh'.metrics = sh.metrics
  closings : sh'.closings = sh.closings
  calendar : sh'.env.calendar = sh.env.calendar
  kern : sh.kern.Renews sh'.kern

theorem Shared.SameBooks.refl (sh : Shared) : sh.SameBooks sh := ⟨rfl, rfl, rfl, rfl, .refl _⟩

theorem Shared.SameBooks.trans {sh sh' sh'' : Shared} (first : sh.SameBooks sh')
    (second : sh'.SameBooks sh'') : sh.SameBooks sh'' :=
  ⟨second.log.trans first.log, second.metrics.trans first.metrics,
    second.closings.trans first.closings, second.calendar.trans first.calendar,
      first.kern.trans second.kern⟩

/-- Users and settings are left alone, and no connection other than `id` loses the result of its
lookup. -/
structure Shared.Spares (id : ConnId) (sh sh' : Shared) : Prop where
  users : sh'.users = sh.users
  config : sh'.config = sh.config
  results : ∀ k, k ≠ id → sh.pool.hasResult k = true → sh'.pool.hasResult k = true

theorem Shared.Spares.refl (id : ConnId) (sh : Shared) : Shared.Spares id sh sh :=
  ⟨rfl, rfl, fun _ _ held => held⟩

theorem Shared.Spares.trans {id : ConnId} {sh sh' sh'' : Shared} (first : Shared.Spares id sh sh')
    (second : Shared.Spares id sh' sh'') : Shared.Spares id sh sh'' :=
  ⟨second.users.trans first.users, second.config.trans first.config,
    fun k other held => second.results k other (first.results k other held)⟩

/-- What belongs to other modules is left alone: items are touched only at descriptors of `own`. -/
structure Shared.SparesOthers (own : Fd → Prop) (sh sh' : Shared) : Prop where
  foreign : sh'.kern.foreign = sh.kern.foreign
  items : ∀ fd, ¬own fd → sh'.sel.items fd = sh.sel.items fd
  locked : sh'.sel.resolutionLocked = sh.sel.resolutionLocked
  paused : sh'.acceptPausedFd = sh.acceptPausedFd

/-- Nothing happens that the books depend on, or that concerns another connection than `id`, or a
descriptor that is not of `own`. -/
structure Shared.Steady (own : Fd → Prop) (id : ConnId) (sh sh' : Shared) : Prop
    extends Shared.SameBooks sh sh', Shared.Spares id sh sh', Shared.SparesOthers own sh sh'

namespace Shared

variable {own : Fd → Prop} {id : ConnId} {sh sh' sh'' : Shared}

theorem SparesOthers.refl (own : Fd → Prop) (sh : Shared) : SparesOthers own sh sh :=
  ⟨rfl, fun _ _ => rfl, rfl, rfl⟩

theorem SparesOthers.trans (first : SparesOthers own sh sh') (second : SparesOthers own sh' sh'') :
    SparesOthers own sh sh'' :=
  ⟨second.foreign.trans first.foreign,
    fun fd other => (second.items fd other).trans (first.items fd other),
    second.locked.trans first.locked, second.paused.trans first.paused⟩

theorem Steady.refl (own : Fd → Prop) (id : ConnId) (sh : Shared) : Steady own id sh sh :=
  ⟨.refl sh, .refl id sh, .refl own sh⟩

theorem Steady.trans (first : Steady own id sh sh') (second : Steady own id sh' sh'') :
    Steady own id sh sh'' :=
  ⟨first.toSameBooks.trans second.toSameBooks, first.toSpares.trans second.toSpares,
    first.toSparesOthers.trans second.toSparesOthers⟩

theorem steady_env (own : Fd → Prop) (id : ConnId) {env : Answers}
    (calendar : env.calendar = sh.env.calendar) : Steady own id sh { sh with env } :=
  ⟨⟨rfl, rfl, rfl, calendar, .refl _⟩, ⟨rfl, rfl, fun _ _ held => held⟩, rfl, fun _ _ => rfl, rfl,
    rfl⟩

theorem steady_kern (own : Fd → Prop) (id : ConnId) {kern : Kernel}
    (renews : sh.kern.Renews kern) (foreign : kern.foreign = sh.kern.foreign) :
    Steady own id sh { sh with kern } :=
  ⟨⟨rfl, rfl, rfl, rfl, renews⟩, ⟨rfl, rfl, fun _ _ held => held⟩, foreign, fun _ _ => rfl, rfl,
    rfl⟩

theorem steady_sel (id : ConnId) {sel : Selector}
    (items : ∀ fd, ¬own fd → sel.items fd = sh.sel.items fd)
    (locked : sel.resolutionLocked = sh.sel.resolutionLocked) :
    Steady own id sh { sh with sel } :=
  ⟨⟨rfl, rfl, rfl, rfl, .refl _⟩, ⟨rfl, rfl, fun _ _ held => held⟩, rfl, items, locked, rfl⟩

theorem steady_pool (own : Fd → Prop) (id : ConnId) {pool : Pool}
    (results : ∀ k, k ≠ id → sh.pool.hasResult k = true → pool.hasResult k = true) :
    Steady own id sh { sh with pool } :=
  ⟨⟨rfl, rfl, rfl, rfl, .refl _⟩, ⟨rfl, rfl, results⟩, rfl, fun _ _ => rfl, rfl, rfl⟩

end Shared

namespace Selector

variable {s s' : Selector} {fd : Fd} {interest : Interest}

theorem items_setInterest (armed : s.setInterest fd interest = some s') :
    (∃ item, s'.items = Function.update s.items fd item) ∧
      s'.resolutionLocked = s.resolutionLocked := by
  unfold setInterest at armed
  split at armed
  · cases armed
  split at armed
  · cases armed
  · cases armed
    exact ⟨⟨_, rfl⟩, rfl⟩

theorem items_register {owner : Owner} (registered : s.register fd interest owner = some s') :
    (∃ item, s'.items = Function.update s.items fd item) ∧
      s'.resolutionLocked = s.resolutionLocked := by
  unfold register at registered
  split at registered
  · cases registered
  split at registered
  · cases registered
  · cases registered
    exact ⟨⟨_, rfl⟩, rfl⟩

end Selector

theorem Shared.steady_update {own : Fd → Prop} (id : ConnId) {sh : Shared} {fd : Fd} (mine : own fd)
    {sel : Selector} {item : Option Item} (items : sel.items = Function.update sh.sel.items fd item)
    (locked : sel.resolutionLocked = sh.sel.resolutionLocked) :
    Shared.Steady own id sh { sh with sel } := by
  refine steady_sel id (fun other strange => ?_) locked
  rw [items, Function.update_of_ne]
  rintro rfl
  exact strange mine

namespace Obs

/-- Observations that no book depends on, and that tell nothing of the users. -/
def isPlain : Obs → Bool
  | .received _ | .fetched _ | .entered _ | .leftover _ | .logged _ _ _ | .chose _ _
  | .validated _ _ => false
  | _ => true

/-- Bytes that came in. -/
def isInput : Obs → Bool
  | .received _ | .fetched _ => true
  | _ => false

end Obs

/-- The connection is in a phase in which its parser reads. -/
def Conn.Reads (c : Conn) : Prop := ∃ phase, c.current = some phase ∧ isReadState phase = true

/-- The descriptors of the connection are of `own`. -/
def Conn.Owned (own : Fd → Prop) (c : Conn) : Prop :=
  ∀ fd, c.clientFd = some fd ∨ c.originFd = some fd → own fd

/-- What a handler can do. Bytes that come in are counted exactly while relaying; a method is
chosen, and credentials are checked, by the users of the moment; a record is written when it is
noted; a connection leaves the count of active ones when its client is gone or when it is freed; and
the one thing that is not of `own`, the listener, may be resumed. -/
inductive Act (own : Fd → Prop) : Local → Local → Prop where
  | conn {id : ConnId} {c c' : Conn} {sh : Shared} (hist : c'.hist = c.hist)
      (current : c'.current = c.current) (counted : c'.activeCounted = c.activeCounted)
      (client : c'.clientFd = c.clientFd ∨ c'.clientFd = none)
      (origin : ∀ fd, c'.originFd = some fd → c.originFd = some fd ∨ own fd) :
      Act own ⟨id, .live c, sh⟩ ⟨id, .live c', sh⟩
  | shared {id : ConnId} {cell : Cell} {sh sh' : Shared} (same : Shared.Steady own id sh sh') :
      Act own ⟨id, cell, sh⟩ ⟨id, cell, sh'⟩
  | resume {id : ConnId} {cell : Cell} {sh : Shared} {fd : Fd} {sel : Selector}
      (paused : sh.acceptPausedFd = some fd) (armed : sh.sel.setInterest fd OP_READ = some sel) :
      Act own ⟨id, cell, sh⟩ ⟨id, cell, { sh with sel, acceptPausedFd := none }⟩
  | observe {id : ConnId} {c : Conn} {sh : Shared} (what : Obs)
      (fits : what.isPlain = true ∨ (what.isInput = true ∧ c.Reads)) :
      Act own ⟨id, .live c, sh⟩ ⟨id, .live { c with hist := what :: c.hist }, sh⟩
  | choose {id : ConnId} {c : Conn} {sh : Shared} (p : NegotiationParser) :
      Act own ⟨id, .live c, sh⟩
        ⟨id, .live { c with
            hist := .chose (negotiationMethod p (authRequired sh.users)) sh.users :: c.hist }, sh⟩
  | validate {id : ConnId} {c : Conn} {sh : Shared} (status : UInt8) :
      Act own ⟨id, .live c, sh⟩
        ⟨id, .live { c with hist := .validated status sh.users :: c.hist }, sh⟩
  | relay {id : ConnId} {c : Conn} {sh : Shared} (fromClient : Bool) (bytes : List UInt8)
      (phase : c.current = some .relay) :
      Act own ⟨id, .live c, sh⟩
        ⟨id, .live { c with
            hist := (if fromClient then .received bytes else .fetched bytes) :: c.hist },
          { sh with
            metrics :=
              if fromClient then metricsBytesClientToOrigin sh.metrics bytes.length
              else metricsBytesOriginToClient sh.metrics bytes.length }⟩
  | log {id : ConnId} {c : Conn} {sh : Shared} (user dest result : List UInt8) :
      Act own ⟨id, .live c, sh⟩
        ⟨id, .live { c with hist := .logged user dest result :: c.hist },
          { sh with log := accessLogRecord sh.log sh.env.calendar user dest result }⟩
  | deactivate {id : ConnId} {c : Conn} {sh : Shared} (counted : c.activeCounted = true)
      (gone : c.clientFd = none) :
      Act own ⟨id, .live c, sh⟩
        ⟨id, .live { c with activeCounted := false }, sh.uncount id⟩
  | free {id : ConnId} {c : Conn} {sh : Shared} (references : Int) (list : ConnList) (pool : Pool)
      (others : ∀ k, k ≠ id → pool.slots k = sh.pool.slots k) :
      Act own ⟨id, .live c, sh⟩
        ⟨id, .freed { c with activeCounted := false } references,
          { (if c.activeCounted then sh.uncount id else sh) with list, pool }⟩

/-- What a handler may touch is `own`: what the connection has, and what no other module has. -/
structure Owns (own : Fd → Prop) (l : Local) : Prop where
  named : ∀ c, l.cell = .live c → c.Owned own
  unclaimed : ∀ fd, l.sh.kern.foreign fd = false → own fd

/-- Any number of acts, that leave the connection with descriptors of `own`. -/
structure Does (own : Fd → Prop) (l₀ l : Local) : Prop where
  owns : Owns own l
  acts : Relation.ReflTransGen (Act own) l₀ l

section

variable {own : Fd → Prop} {l₀ l l' : Local}

/-- Acts change neither users nor settings, and take no result from another connection. -/
theorem Act.spares (act : Act own l l') : Shared.Spares l.id l.sh l'.sh := by
  cases act with
  | shared same => exact same.toSpares
  | free references list pool others =>
      refine ⟨?_, ?_, fun k other held => ?_⟩
      · dsimp only
        split <;> rfl
      · dsimp only
        split <;> rfl
      · simpa [Pool.hasResult, others k other] using held
  | _ => exact ⟨rfl, rfl, fun _ _ held => held⟩

theorem Act.current (act : Act own l l') : l'.cell.conn.current = l.cell.conn.current := by
  cases act with
  | conn hist current counted client origin => exact current
  | _ => rfl

theorem Act.foreign (act : Act own l l') : l'.sh.kern.foreign = l.sh.kern.foreign := by
  cases act with
  | shared same => exact same.foreign
  | free references list pool others =>
      dsimp only
      split <;> rfl
  | _ => rfl

theorem Act.owned (act : Act own l l') (named : ∀ c, l.cell = .live c → c.Owned own) :
    ∀ c, l'.cell = .live c → c.Owned own := by
  cases act with
  | conn hist current counted client origin =>
      rintro c ⟨⟩ fd (had | had)
      · exact named _ rfl fd (.inl (client.elim (fun same => same ▸ had)
          fun none => absurd (none ▸ had) (by simp)))
      · exact (origin fd had).elim (fun before => named _ rfl fd (.inr before)) id
  | shared same => exact named
  | resume paused armed => exact named
  | free references list pool others => exact fun _ live => absurd live (by simp)
  | _ =>
      rintro c ⟨⟩ fd had
      exact named _ rfl fd had

theorem Does.refl (owns : Owns own l) : Does own l l := ⟨owns, .refl⟩

theorem Does.tail (done : Does own l₀ l) (act : Act own l l') : Does own l₀ l' where
  owns := ⟨act.owned done.owns.named, by rw [act.foreign]; exact done.owns.unclaimed⟩
  acts := done.acts.tail act

theorem Does.current (done : Does own l l') : l'.cell.conn.current = l.cell.conn.current := by
  rcases done with ⟨-, acts⟩
  induction acts with
  | refl => rfl
  | tail _ act ih => exact act.current.trans ih

theorem Does.users (done : Does own l l') : l'.sh.users = l.sh.users := by
  rcases done with ⟨-, acts⟩
  induction acts with
  | refl => rfl
  | tail _ act ih => exact act.spares.users.trans ih

end

section

variable {own : Fd → Prop} {l₀ l : Local} {α : Type}

/-! ## Primitives -/

theorem wlp_getConn {post : Conn → Local → Prop} {id : ConnId} {cell : Cell} {sh : Shared} :
    wlp getConn post ⟨id, cell, sh⟩ ↔ ∀ c, cell = .live c → post c ⟨id, cell, sh⟩ := by
  cases cell with
  | live c => simp [getConn]
  | freed c references => simp [getConn]

theorem keeps_getConn : Keeps (Does own l₀) getConn := by
  rintro ⟨id, cell, sh⟩ done
  rw [wlp_getConn]
  exact fun _ _ => done

theorem keeps_getConn_bind {next : Conn → M α}
    (continues : ∀ c, c.Owned own → Keeps (Does own l₀) (next c)) :
    Keeps (Does own l₀) (getConn >>= next) := by
  rintro ⟨id, cell, sh⟩ done
  rw [wlp_bind, wlp_getConn]
  rintro c rfl
  exact continues c (done.owns.named c rfl) _ done

theorem wlp_modifyConn {change : Conn → Conn} {post : Unit → Local → Prop} {id : ConnId}
    {cell : Cell} {sh : Shared} :
    wlp (modifyConn change) post ⟨id, cell, sh⟩ ↔
      ∀ c, cell = .live c → post () ⟨id, .live (change c), sh⟩ := by
  simp only [modifyConn, wlp_bind, wlp_getConn, wlp_modify]

theorem wlp_modifyShared {change : Shared → Shared} {post : Unit → Local → Prop} {id : ConnId}
    {cell : Cell} {sh : Shared} :
    wlp (modifyShared change) post ⟨id, cell, sh⟩ ↔ post () ⟨id, cell, change sh⟩ := by
  simp only [modifyShared, wlp_modify]

theorem wlp_observe {what : Obs} {post : Unit → Local → Prop} {id : ConnId} {cell : Cell}
    {sh : Shared} :
    wlp (observe what) post ⟨id, cell, sh⟩ ↔
      ∀ c, cell = .live c → post () ⟨id, .live { c with hist := what :: c.hist }, sh⟩ := by
  simp only [observe, wlp_modifyConn]

theorem keeps_modifyConn {change : Conn → Conn}
    (same : ∀ c, (change c).hist = c.hist ∧ (change c).current = c.current ∧
      (change c).activeCounted = c.activeCounted ∧
      ((change c).clientFd = c.clientFd ∨ (change c).clientFd = none) ∧
      ∀ fd, (change c).originFd = some fd → c.originFd = some fd ∨ own fd) :
    Keeps (Does own l₀) (modifyConn change) := by
  rintro ⟨id, cell, sh⟩ done
  rw [wlp_modifyConn]
  rintro c rfl
  rcases same c with ⟨hist, current, counted, client, origin⟩
  exact done.tail (.conn hist current counted client origin)

theorem keeps_setFields {change : Conn → Conn}
    (same : ∀ c, (change c).hist = c.hist ∧ (change c).current = c.current ∧
      (change c).activeCounted = c.activeCounted ∧ (change c).clientFd = c.clientFd ∧
      (change c).originFd = c.originFd) : Keeps (Does own l₀) (modifyConn change) := by
  refine keeps_modifyConn fun c => ?_
  rcases same c with ⟨hist, current, counted, client, origin⟩
  exact ⟨hist, current, counted, .inl client, fun fd named => .inl (origin ▸ named)⟩

theorem keeps_modifyShared {change : Shared → Shared}
    (same : ∀ id sh, Shared.Steady own id sh (change sh)) :
    Keeps (Does own l₀) (modifyShared change) := by
  rintro ⟨id, cell, sh⟩ done
  rw [wlp_modifyShared]
  exact done.tail (.shared (same id sh))

theorem keeps_observe {what : Obs} (plain : what.isPlain = true) :
    Keeps (Does own l₀) (observe what) := by
  rintro ⟨id, cell, sh⟩ done
  rw [wlp_observe]
  rintro c rfl
  exact done.tail (.observe what (.inl plain))

theorem keeps_get_bind {next : Local → M α}
    (continues : ∀ l, l.sh.users = l₀.sh.users → Keeps (Does own l₀) (next l)) :
    Keeps (Does own l₀) (get >>= next) := by
  intro l done
  rw [wlp_bind, wlp_get]
  exact continues l done.users l done

theorem keeps_chose (p : NegotiationParser) {users : Users} (current : users = l₀.sh.users) :
    Keeps (Does own l₀) (observe (.chose (negotiationMethod p (authRequired users)) users)) := by
  rintro ⟨id, cell, sh⟩ done
  rw [wlp_observe, current, ← done.users]
  rintro c rfl
  exact done.tail (.choose p)

theorem keeps_validated (status : UInt8) {users : Users} (current : users = l₀.sh.users) :
    Keeps (Does own l₀) (observe (.validated status users)) := by
  rintro ⟨id, cell, sh⟩ done
  rw [wlp_observe, current, ← done.users]
  rintro c rfl
  exact done.tail (.validate status)

/-- A section on behalf of connection `id` that takes no result from another one. -/
theorem wlp_onPool {program : PoolM α} {id : ConnId} {cell : Cell} {sh : Shared}
    (done : Does own l₀ ⟨id, cell, sh⟩)
    (results : ∀ k, k ≠ id → Keeps (fun p => p.hasResult k = true) program) :
    wlp (onPool program) (fun _ => Does own l₀) ⟨id, cell, sh⟩ := by
  simp only [onPool, wlp_focus]
  intro value pool ran
  exact done.tail (.shared (Shared.steady_pool own id fun k other held =>
    results k other sh.pool held value pool ran))

theorem keeps_onPool {program : PoolM α}
    (results : ∀ k, Keeps (fun p => p.hasResult k = true) program) :
    Keeps (Does own l₀) (onPool program) := by
  rintro ⟨id, cell, sh⟩ done
  exact wlp_onPool done fun k _ => results k

theorem steady_workerStep (own : Fd → Prop) (id : ConnId) (step : WorkerStep) (sh : Shared) :
    wlp (workerStep step) (fun _ sh' => Shared.Steady own id sh sh') sh := by
  have pooled : wlp (Prog.focus Shared.pool (fun pool sh => { sh with pool })
      (resolverWorkerStep step)) (fun _ sh' => Shared.Steady own id sh sh') sh := by
    rw [wlp_focus]
    intro notified pool ran
    exact Shared.steady_pool own id fun k _ held =>
      keeps_hasResult_resolverWorkerStep step sh.pool held notified pool ran
  cases step with
  | pop | finish =>
      simp only [workerStep, wlp_bind, wlp_get]
      exact wlp_mono pooled fun _ _ same => (wlp_pure ..).mpr same
  | notify =>
      simp only [workerStep, wlp_bind, wlp_get, wlp_ite, wlp_pure]
      split
      · exact .refl own id sh
      · refine wlp_mono pooled fun found sh' same => ?_
        cases found with
        | none => simpa using same
        | some fd =>
            rw [wlp_modify]
            exact same.trans (Shared.steady_sel id (fun _ _ => rfl) rfl)

theorem steady_workerSteps (own : Fd → Prop) (id : ConnId) (steps : List WorkerStep) (sh : Shared) :
    wlp (workerSteps steps) (fun _ sh' => Shared.Steady own id sh sh') sh := by
  induction steps generalizing sh with
  | nil =>
      simp only [workerSteps, wlp_pure]
      exact .refl own id sh
  | cons step rest ih =>
      simp only [workerSteps, wlp_bind]
      refine wlp_mono (steady_workerStep own id step sh) fun _ middle first => ?_
      exact wlp_mono (ih middle) fun _ _ second => first.trans second

theorem steady_runWorkers (own : Fd → Prop) (id : ConnId) (sh : Shared) :
    wlp runWorkers (fun _ sh' => Shared.Steady own id sh sh') sh := by
  simp only [runWorkers, wlp_bind, wlp_get]
  cases sh.env.workers with
  | nil =>
      simp only [wlp_pure]
      exact .refl own id sh
  | cons batch later =>
      simp only [wlp_bind, wlp_modify]
      have taken : Shared.Steady own id sh { sh with env := { sh.env with workers := later } } :=
        Shared.steady_env own id rfl
      exact wlp_mono (steady_workerSteps own id batch _) fun _ _ same => taken.trans same

theorem wlp_locked {program : PoolM α} {id : ConnId} {cell : Cell} {sh : Shared}
    (done : Does own l₀ ⟨id, cell, sh⟩)
    (results : ∀ k, k ≠ id → Keeps (fun p => p.hasResult k = true) program) :
    wlp (locked program) (fun _ => Does own l₀) ⟨id, cell, sh⟩ := by
  rw [locked, wlp_bind, wlp_focus]
  exact wlp_mono (steady_runWorkers own id sh) fun _ _ same =>
    wlp_onPool (done.tail (.shared same)) results

theorem keeps_locked {program : PoolM α}
    (results : ∀ k, Keeps (fun p => p.hasResult k = true) program) :
    Keeps (Does own l₀) (locked program) := by
  rintro ⟨id, cell, sh⟩ done
  exact wlp_locked done fun k _ => results k

theorem keeps_nextSend : Keeps (Does own l₀) nextSend := by
  refine .bind .get fun l => ?_
  cases l.sh.env.sends with
  | nil => exact .pure _
  | cons answer later =>
      exact .bind (keeps_modifyShared fun id _ => Shared.steady_env own id rfl) fun _ => .pure _

theorem keeps_nextRecv : Keeps (Does own l₀) nextRecv := by
  refine .bind .get fun l => ?_
  cases l.sh.env.recvs with
  | nil => exact .pure _
  | cons answer later =>
      exact .bind (keeps_modifyShared fun id _ => Shared.steady_env own id rfl) fun _ => .pure _

theorem keeps_observeError (errno : Errno) : Keeps (Does own l₀) (observeError errno) :=
  .ite (fun _ => .pure _) fun _ => keeps_observe rfl

theorem keeps_send (fd : Option Fd) (pending : List UInt8) :
    Keeps (Does own l₀) (send fd pending) := by
  refine .bind keeps_getConn fun c => .ite (fun _ => ?_) fun _ => .bind keeps_nextSend fun answer =>
    ?_
  · exact .bind (keeps_observe rfl) fun _ => .pure _
  · cases answer with
    | error errno => exact .bind (keeps_observeError errno) fun _ => .pure _
    | taken n =>
        dsimp only
        split
        · exact .bind (keeps_observe rfl) fun _ => .pure _
        · refine .bind (keeps_observe ?_) fun _ => .pure _
          split <;> rfl

theorem keeps_closeFd (fd : Fd) : Keeps (Does own l₀) (closeFd fd) := by
  refine .bind .get fun l => ?_
  cases l.sh.kern.sockets fd with
  | none => exact .throw _
  | some socket =>
      exact keeps_modifyShared fun id sh =>
        Shared.steady_kern own id (sh.kern.renews_release fd) rfl

theorem keeps_shutdownWrite (fd : Option Fd) : Keeps (Does own l₀) (shutdownWrite fd) := by
  refine .bind keeps_getConn fun c => keeps_observe ?_
  split <;> rfl

theorem keeps_selectorSetInterest {fd : Option Fd} (interest : Interest)
    (mine : ∀ n, fd = some n → own n) : Keeps (Does own l₀) (selectorSetInterest fd interest) := by
  cases fd with
  | none => exact .pure _
  | some fd =>
      rintro ⟨id, cell, sh⟩ done
      rw [selectorSetInterest, wlp_bind, wlp_get]
      split
      · exact (wlp_pure ..).mpr done
      · next sel armed =>
          rcases Selector.items_setInterest armed with ⟨⟨item, items⟩, locked⟩
          rw [wlp_bind, wlp_modifyShared, wlp_pure]
          exact done.tail (.shared (Shared.steady_update id (mine fd rfl) items locked))

theorem keeps_selectorRegister {fd : Fd} (interest : Interest) (mine : own fd) :
    Keeps (Does own l₀) (selectorRegister fd interest) := by
  rintro ⟨id, cell, sh⟩ done
  rw [selectorRegister, wlp_bind, wlp_get]
  split
  · exact (wlp_pure ..).mpr done
  · next sel registered =>
      rcases Selector.items_register registered with ⟨⟨item, items⟩, locked⟩
      rw [wlp_bind, wlp_modifyShared, wlp_pure]
      exact done.tail (.shared (Shared.steady_update id mine items locked))

theorem keeps_addReferences (n : Int) : Keeps (Does own l₀) (addReferences n) :=
  .bind .get fun l => keeps_onPool fun _ => keeps_hasResult_modifySlot l.id fun _ _ held => held

/-! ## Lifetime -/

theorem wlp_requireAlive {id : ConnId} {cell : Cell} {sh : Shared} {other : Option ConnId}
    {post : Unit → Local → Prop} (next : post () ⟨id, cell, sh⟩) :
    wlp (requireAlive other) post ⟨id, cell, sh⟩ := by
  cases other with
  | none => exact (wlp_pure ..).mpr next
  | some k =>
      simp only [requireAlive, onPool, wlp_focus, wlp_bind, wlp_slot, wlp_pure]
      exact fun _ _ => next

theorem wlp_connListRemove {id : ConnId} {cell : Cell} {sh : Shared} {post : Unit → Local → Prop}
    (next : ∀ list, post () ⟨id, cell, { sh with list }⟩) :
    wlp connListRemove post ⟨id, cell, sh⟩ := by
  simp only [connListRemove, wlp_bind, wlp_get]
  refine wlp_requireAlive ?_
  rw [wlp_bind]
  refine wlp_requireAlive ?_
  rw [wlp_modifyShared]
  exact next _

/-- Leaving the count of active connections, for a connection whose client is gone. -/
theorem wlp_connMarkInactive {id : ConnId} {c : Conn} {sh : Shared}
    (done : Does own l₀ ⟨id, .live c, sh⟩) (gone : c.clientFd = none) :
    wlp connMarkInactive (fun _ => Does own l₀) ⟨id, .live c, sh⟩ := by
  simp only [connMarkInactive, wlp_bind, wlp_getConn, Cell.live.injEq, forall_eq', wlp_ite,
    wlp_pure]
  split
  · next counted =>
      simp only [wlp_bind, wlp_modifyConn, Cell.live.injEq, forall_eq', wlp_get, wlp_modifyShared]
      exact done.tail (.deactivate counted gone)
  · exact done

/-- The parts of freeing a connection are one act. -/
theorem keeps_socks5ConnFreeIfUnreferenced :
    Keeps (Does own l₀) socks5ConnFreeIfUnreferenced := by
  rintro ⟨id, cell, sh⟩ done
  simp only [socks5ConnFreeIfUnreferenced, wlp_bind, wlp_get]
  refine wlp_mono (keeps_onPool (fun _ => keeps_hasResult_slot _) _ done) fun slot l => ?_
  rcases l with ⟨id, cell, sh⟩
  intro done
  rw [wlp_ite]
  split
  · exact (wlp_pure ..).mpr done
  · simp only [connMarkInactive, wlp_bind, wlp_getConn]
    rintro c rfl
    rw [wlp_ite]
    split
    · next counted =>
        simp only [wlp_bind, wlp_modifyConn, Cell.live.injEq, forall_eq', wlp_get, wlp_modifyShared]
        refine wlp_connListRemove fun list => ?_
        simp only [wlp_bind, wlp_getConn, Cell.live.injEq, forall_eq', wlp_modify]
        have act := done.tail (.free slot.references list
          { sh.pool with slots := Function.update sh.pool.slots id none }
          fun k other => Function.update_of_ne other _ _)
        rwa [if_pos counted] at act
    · next uncounted =>
        rw [wlp_pure, wlp_bind]
        refine wlp_connListRemove fun list => ?_
        simp only [wlp_bind, wlp_getConn, Cell.live.injEq, forall_eq', wlp_modify]
        have act := done.tail (.free slot.references list
          { sh.pool with slots := Function.update sh.pool.slots id none }
          fun k other => Function.update_of_ne other _ _)
        have same : ({ c with activeCounted := false } : Conn) = c := by
          rw [← Bool.eq_false_iff.mpr uncounted]
        rwa [if_neg uncounted, same] at act

/-- The only call on a descriptor that is not the connection's: the listener is resumed. -/
theorem keeps_socks5RetryAccept : Keeps (Does own l₀) socks5RetryAccept := by
  rintro ⟨id, cell, sh⟩ done
  rw [socks5RetryAccept, wlp_bind, wlp_get]
  split
  · exact (wlp_pure ..).mpr done
  · next fd paused =>
      simp only [selectorSetInterest, wlp_bind, wlp_get]
      split
      · rw [wlp_pure, if_neg (by simp), wlp_pure]
        exact done
      · next sel armed =>
          simp only [wlp_bind, wlp_modifyShared, wlp_pure, if_true]
          exact done.tail (.resume paused armed)

theorem keeps_socks5Close (fd : Fd) : Keeps (Does own l₀) (socks5Close fd) := by
  refine .bind keeps_getConn fun _ => .bind (keeps_closeFd fd) fun _ => .bind ?_ fun _ =>
    .bind (keeps_addReferences _) fun _ => ?_
  · refine keeps_modifyConn fun c => ?_
    split
    · exact ⟨rfl, rfl, rfl, .inr rfl, fun _ => .inl⟩
    · split
      · exact ⟨rfl, rfl, rfl, .inl rfl, by rintro _ ⟨⟩⟩
      · exact ⟨rfl, rfl, rfl, .inl rfl, fun _ => .inl⟩
  · have rest : Keeps (Does own l₀) (do
        socks5ConnFreeIfUnreferenced
        socks5RetryAccept) :=
      .bind keeps_socks5ConnFreeIfUnreferenced fun _ => keeps_socks5RetryAccept
    rintro ⟨id, cell, sh⟩ done
    rw [wlp_bind, wlp_getConn]
    rintro c rfl
    rw [wlp_bind, wlp_get, wlp_ite]
    split
    · next gone =>
        rw [wlp_bind]
        refine wlp_mono (wlp_connMarkInactive done gone.1) fun _ l kept => ?_
        exact Keeps.bind (keeps_locked fun _ => keeps_hasResult_socks5ResolverCancelConn id)
          (fun _ => rest) l kept
    · exact Keeps.bind (keeps_locked fun _ => keeps_hasResult_socks5ResolverTakeCompleted id)
        (fun _ => rest) _ done

theorem keeps_selectorUnregisterFd {fd : Fd} (mine : own fd) :
    Keeps (Does own l₀) (selectorUnregisterFd fd) := by
  refine .bind .get fun l => .ite (fun _ => .pure _) fun _ => ?_
  cases l.sh.sel.items fd with
  | none => exact .pure _
  | some item =>
      refine .ite (fun _ => ?_) fun _ => .throw _
      exact .bind (keeps_socks5Close fd) fun _ =>
        keeps_modifyShared fun id _ => Shared.steady_update id mine rfl rfl

theorem keeps_socks5Done : Keeps (Does own l₀) socks5Done := by
  refine keeps_getConn_bind fun c owned => .bind ?_ fun _ => ?_
  · exact keeps_modifyConn fun _ => ⟨rfl, rfl, rfl, .inr rfl, by rintro _ ⟨⟩⟩
  · rcases origin : c.originFd with _ | ofd <;> rcases client : c.clientFd with _ | cfd
    · exact .pure _
    · exact keeps_selectorUnregisterFd (owned cfd (.inl client))
    · exact .bind (keeps_selectorUnregisterFd (owned ofd (.inr origin))) fun _ => .pure _
    · exact .bind (keeps_selectorUnregisterFd (owned ofd (.inr origin))) fun _ =>
        keeps_selectorUnregisterFd (owned cfd (.inl client))

/-! ## Reading and answering -/

theorem Does.reads (done : Does own l₀ l) (reads : l₀.cell.conn.Reads) : l.cell.conn.Reads := by
  rcases reads with ⟨phase, current, reading⟩
  exact ⟨phase, done.current.trans current, reading⟩

theorem keeps_recv (reads : l₀.cell.conn.Reads) (fd : Fd) (space : Nat) :
    Keeps (Does own l₀) (recv fd space) := by
  refine .bind keeps_getConn fun c => .ite (fun _ => .throw _) fun _ =>
    .bind keeps_nextRecv fun answer => ?_
  have taken : ∀ what : Obs, what.isInput = true → Keeps (Does own l₀) (observe what) := by
    rintro what input ⟨id, cell, sh⟩ done
    rw [wlp_observe]
    rintro c rfl
    exact done.tail (.observe what (.inr ⟨input, done.reads reads⟩))
  split
  · exact .bind (keeps_observeError _) fun _ => .pure _
  · refine .bind (keeps_observe ?_) fun _ => .pure _
    split <;> rfl
  · split
    · exact .pure _
    · refine .bind (taken _ ?_) fun _ => .pure _
      split <;> rfl

theorem keeps_fillReadBuffer (reads : l₀.cell.conn.Reads) (fd : Fd) :
    Keeps (Does own l₀) (fillReadBuffer fd) := by
  refine .bind keeps_getConn fun c => .bind (keeps_recv reads fd _) fun result => ?_
  cases result with
  | bytes received =>
      exact .bind (keeps_setFields fun _ => ⟨rfl, rfl, rfl, rfl, rfl⟩) fun _ => .pure _
  | failed errno => exact .pure _
  | zero => exact .pure _

theorem keeps_feedParser (reads : l₀.cell.conn.Reads) (fd : Fd) {feed : Conn → Conn}
    {stopped : Conn → Bool}
    (same : ∀ c, (feed c).hist = c.hist ∧ (feed c).current = c.current ∧
      (feed c).activeCounted = c.activeCounted ∧ (feed c).clientFd = c.clientFd ∧
      (feed c).originFd = c.originFd) :
    Keeps (Does own l₀) (feedParser fd feed stopped) := by
  refine .bind (keeps_setFields same) fun _ => .bind keeps_getConn fun c =>
    .ite (fun _ => .pure _) fun _ => .bind (keeps_fillReadBuffer reads fd) fun closed => ?_
  cases closed with
  | none => exact .bind (keeps_setFields same) fun _ => .pure _
  | some state => exact .pure _

theorem keeps_armed {fd : Option Fd} (interest : Interest) (yes no : State)
    (mine : ∀ n, fd = some n → own n) :
    Keeps (Does own l₀) (do if ← selectorSetInterest fd interest then pure yes else pure no) :=
  .bind (keeps_selectorSetInterest interest mine) fun _ => .ite (fun _ => .pure _) fun _ => .pure _

theorem own_given {fd : Fd} (mine : own fd) : ∀ n, some fd = some n → own n := by
  rintro _ ⟨⟩
  exact mine

theorem Conn.Owned.client {c : Conn} (owned : c.Owned own) : ∀ fd, c.clientFd = some fd → own fd :=
  fun fd named => owned fd (.inl named)

theorem Conn.Owned.origin {c : Conn} (owned : c.Owned own) : ∀ fd, c.originFd = some fd → own fd :=
  fun fd named => owned fd (.inr named)

theorem keeps_negotiationRead (reads : l₀.cell.conn.Reads) {fd : Fd} (mine : own fd) :
    Keeps (Does own l₀) (negotiationRead fd) := by
  refine .bind (keeps_feedParser reads fd fun _ => ⟨rfl, rfl, rfl, rfl, rfl⟩) fun closed => ?_
  cases closed with
  | some state => exact .pure _
  | none =>
      refine .bind keeps_getConn fun c => .ite (fun _ => .pure _) fun _ => .ite (fun _ => .pure _)
        fun _ => ?_
      refine keeps_get_bind fun l users => ?_
      exact .bind (keeps_setFields fun _ => ⟨rfl, rfl, rfl, rfl, rfl⟩) fun _ =>
        .bind (keeps_chose c.neg users) fun _ => keeps_armed _ _ _ (own_given mine)

theorem keeps_sendPending (fd : Option Fd) (again : State) :
    Keeps (Does own l₀) (sendPending fd again) := by
  refine .bind keeps_getConn fun c => .bind (keeps_send fd _) fun result => ?_
  cases result with
  | bytes n =>
      exact .bind (keeps_setFields fun _ => ⟨rfl, rfl, rfl, rfl, rfl⟩) fun _ =>
        .bind keeps_getConn fun _ => .pure _
  | failed errno => exact .pure _
  | zero => exact .pure _

theorem keeps_negotiationWrite {fd : Fd} (mine : own fd) :
    Keeps (Does own l₀) (negotiationWrite fd) := by
  refine .bind (keeps_sendPending _ _) fun sent => ?_
  cases sent with
  | some state => exact .pure _
  | none =>
      exact .bind keeps_getConn fun c => .ite (fun _ => .pure _) fun _ =>
        keeps_armed _ _ _ (own_given mine)

theorem keeps_authRead (reads : l₀.cell.conn.Reads) {fd : Fd} (mine : own fd) :
    Keeps (Does own l₀) (authRead fd) := by
  refine .bind (keeps_feedParser reads fd fun _ => ⟨rfl, rfl, rfl, rfl, rfl⟩) fun closed => ?_
  cases closed with
  | some state => exact .pure _
  | none =>
      refine .bind keeps_getConn fun c => .ite (fun _ => .pure _) fun _ => .ite (fun _ => .pure _)
        fun _ => ?_
      refine keeps_get_bind fun l users => ?_
      exact .bind (keeps_setFields fun _ => ⟨rfl, rfl, rfl, rfl, rfl⟩) fun _ =>
        .bind (keeps_validated _ users) fun _ => keeps_armed _ _ _ (own_given mine)

theorem keeps_authWrite {fd : Fd} (mine : own fd) :
    Keeps (Does own l₀) (authWrite fd) := by
  refine .bind (keeps_sendPending _ _) fun sent => ?_
  cases sent with
  | some state => exact .pure _
  | none =>
      exact .bind keeps_getConn fun c => .ite (fun _ => .pure _) fun _ =>
        keeps_armed _ _ _ (own_given mine)

/-! ## Requests -/

theorem keeps_socks5LogAccess (result : List UInt8) :
    Keeps (Does own l₀) (socks5LogAccess result) := by
  rintro ⟨id, cell, sh⟩ done
  simp only [socks5LogAccess, wlp_bind, wlp_getConn]
  rintro c rfl
  simp only [wlp_modifyShared, wlp_observe, Cell.live.injEq, forall_eq']
  exact done.tail (.log _ _ _)

theorem keeps_logFailure (rep : UInt8) : Keeps (Does own l₀) (logFailure rep) :=
  .bind keeps_getConn fun _ => .ite (fun _ => keeps_socks5LogAccess _) fun _ => .pure _

theorem keeps_abandonOrigin : Keeps (Does own l₀) abandonOrigin := by
  refine keeps_getConn_bind fun c owned => ?_
  split
  · exact .pure _
  · next ofd named =>
      exact .bind (keeps_modifyConn fun _ => ⟨rfl, rfl, rfl, .inl rfl, by rintro _ ⟨⟩⟩) fun _ =>
        keeps_selectorUnregisterFd (owned.origin ofd named)

theorem keeps_requestFail (rep : UInt8) : Keeps (Does own l₀) (requestFail rep) := by
  refine .bind (keeps_setFields fun _ => ⟨rfl, rfl, rfl, rfl, rfl⟩) fun _ =>
    .bind (keeps_logFailure rep) fun _ =>
    .bind (keeps_setFields fun _ => ⟨rfl, rfl, rfl, rfl, rfl⟩) fun _ =>
    .bind (keeps_observe rfl) fun _ => .bind keeps_abandonOrigin fun _ => ?_
  exact keeps_getConn_bind fun c owned => keeps_armed _ _ _ owned.client

theorem keeps_getsockname : Keeps (Does own l₀) getsockname :=
  .bind .get fun _ => .bind keeps_getConn fun _ => .pure _

theorem keeps_requestConnectSuccess : Keeps (Does own l₀) requestConnectSuccess := by
  refine .bind keeps_getConn fun c => .bind .get fun l => .bind (keeps_observe rfl) fun _ =>
    .bind keeps_getsockname fun name => .bind (keeps_observe rfl) fun _ => ?_
  cases name with
  | none => exact keeps_requestFail _
  | some sa =>
      refine .bind (keeps_setFields fun _ => ⟨rfl, rfl, rfl, rfl, rfl⟩) fun _ =>
        .bind keeps_getConn fun c => ?_
      split
      · exact keeps_requestFail _
      · exact .bind (keeps_setFields fun _ => ⟨rfl, rfl, rfl, rfl, rfl⟩) fun _ =>
          .bind (keeps_observe rfl) fun _ => .bind (keeps_socks5LogAccess _) fun _ =>
          keeps_getConn_bind fun c owned =>
          .bind (keeps_selectorSetInterest _ owned.origin) fun _ =>
          .ite (fun _ => keeps_getConn_bind fun c owned => keeps_armed _ _ _ owned.client)
            fun _ => .pure _

theorem keeps_nextAttempt : Keeps (Does own l₀) nextAttempt := by
  refine .bind .get fun l => ?_
  cases l.sh.env.attempts with
  | nil => exact .pure _
  | cons answer later =>
      exact .bind (keeps_modifyShared fun id _ => Shared.steady_env own id rfl) fun _ => .pure _

theorem keeps_failAttempt (target : Sockaddr) (errno : Errno) :
    Keeps (Does own l₀) (failAttempt target errno) :=
  .bind (keeps_setFields fun _ => ⟨rfl, rfl, rfl, rfl, rfl⟩) fun _ => keeps_observe rfl

theorem keeps_registerOrigin {fd : Fd} (interest : Interest) (mine : own fd) :
    Keeps (Does own l₀) (registerOrigin fd interest) := by
  refine .bind (keeps_modifyConn fun _ => ⟨rfl, rfl, rfl, .inl rfl, fun other named => ?_⟩)
    fun _ => .bind (keeps_selectorRegister interest mine) fun _ => .ite (fun _ => ?_) fun _ => ?_
  · exact .inr (own_given mine other named)
  · exact .bind (keeps_addReferences 1) fun _ => .pure _
  · exact .bind (keeps_closeFd fd) fun _ =>
      .bind (keeps_modifyConn fun _ => ⟨rfl, rfl, rfl, .inl rfl, by rintro _ ⟨⟩⟩) fun _ => .pure _

theorem keeps_attempted {fd : Fd} (mine : own fd) (interest : Interest) (target : Sockaddr)
    (result : AttemptResult) {works : M (Option State)} (continues : Keeps (Does own l₀) works) :
    Keeps (Does own l₀) (do
      if ← registerOrigin fd interest then do
        observe (.attempt target result)
        works
      else do
        observe (.attempt target .unregistrable)
        let next ← requestFail SOCKS5_REP_GENERAL_FAILURE
        pure (some next)) :=
  .bind (keeps_registerOrigin interest mine) fun _ =>
    .ite (fun _ => .bind (keeps_observe rfl) fun _ => continues) fun _ =>
      .bind (keeps_observe rfl) fun _ => .bind (keeps_requestFail _) fun _ => .pure _

/-- A socket is handed out before its connection is attempted, so the two are one act. -/
theorem keeps_tryCandidate (target : Sockaddr) : Keeps (Does own l₀) (tryCandidate target) := by
  have failed (errno : Errno) : Keeps (Does own l₀) (do
      failAttempt target errno
      pure (none : Option State)) := .bind (keeps_failAttempt target errno) fun _ => .pure _
  refine .bind keeps_nextAttempt fun answer => ?_
  rintro ⟨id, cell, sh⟩ done
  rw [wlp_bind, openSocket]
  cases socket : answer.socket with
  | error errno => exact (wlp_pure ..).mpr (failed errno _ done)
  | ok fd =>
      rw [wlp_bind, wlp_get, wlp_ite]
      split
      · exact (wlp_pure ..).mpr (failed _ _ done)
      next closed =>
      have mine : own fd := by
        rw [Bool.not_eq_true, Kernel.isOpen, Bool.or_eq_false_iff] at closed
        exact done.owns.unclaimed fd closed.2
      rw [wlp_bind, wlp_getConn]
      rintro c rfl
      rw [wlp_ite]
      split
      · exact (wlp_throw ..).mpr trivial
      · rw [wlp_bind, wlp_modifyShared, wlp_pure]
        cases answer.nio with
        | some errno =>
            exact Keeps.bind (keeps_closeFd fd) (fun _ => failed errno) _
              (done.tail (.shared (Shared.steady_kern own id (sh.kern.renews_handOut fd _) rfl)))
        | none =>
            rw [wlp_bind, connectSocket, wlp_modifyShared]
            have connected : ∀ changed, Does own l₀ ⟨id, .live c, { sh with kern :=
                (sh.kern.handOut fd ⟨.unconnected, answer.localName⟩).setSocket fd changed }⟩ :=
              fun changed => done.tail (.shared (Shared.steady_kern own id
                (sh.kern.renews_handOut_setSocket fd _ changed) rfl))
            split
            · exact keeps_attempted mine OP_NOOP target .established
                (.bind keeps_requestConnectSuccess fun _ => .pure _) _ (connected _)
            · refine keeps_attempted mine OP_WRITE target .pending ?_ _ (connected _)
              exact keeps_getConn_bind fun c owned =>
                .bind (keeps_selectorSetInterest _ owned.client) fun _ =>
                .ite (fun _ => .pure _) fun _ => .pure _
            · next errno _ _ =>
                exact Keeps.bind (keeps_closeFd fd) (fun _ => failed errno) _ (connected _)

theorem keeps_requestConnectFrom (targets : List Sockaddr) :
    Keeps (Does own l₀) (requestConnectFrom targets) := by
  induction targets with
  | nil => exact .bind keeps_getConn fun _ => keeps_requestFail _
  | cons target rest ih =>
      refine .bind (keeps_setFields fun _ => ⟨rfl, rfl, rfl, rfl, rfl⟩) fun _ =>
        .bind (keeps_tryCandidate target) fun result => ?_
      cases result with
      | none => exact ih
      | some next => exact .pure _

theorem keeps_requestConnect : Keeps (Does own l₀) requestConnect :=
  .bind keeps_getConn fun _ => keeps_requestConnectFrom _

theorem keeps_requestRead (reads : l₀.cell.conn.Reads) {fd : Fd} (mine : own fd) :
    Keeps (Does own l₀) (requestRead fd) := by
  refine .bind (keeps_feedParser reads fd fun _ => ⟨rfl, rfl, rfl, rfl, rfl⟩) fun closed => ?_
  cases closed with
  | some state => exact .pure _
  | none =>
      refine .bind keeps_getConn fun c => .ite (fun _ => keeps_requestFail _) fun _ =>
        .ite (fun _ => .pure _) fun _ => .ite (fun _ => keeps_requestFail _) fun _ =>
        .ite (fun _ => ?_) fun _ => .bind (keeps_selectorSetInterest _ (own_given mine)) fun _ =>
        .ite (fun _ => ?_) fun _ => .pure _
      · exact .bind (keeps_setFields fun _ => ⟨rfl, rfl, rfl, rfl, rfl⟩) fun _ =>
          keeps_requestConnect
      · rintro ⟨id, cell, sh⟩ done
        rw [wlp_bind, wlp_get, wlp_bind, wlp_getConn]
        rintro c' rfl
        rw [wlp_bind]
        refine wlp_mono (wlp_locked done fun k other =>
          keeps_hasResult_socks5ResolverQueueJob (Ne.symm other) _ _ _ _ _) fun queued l asked => ?_
        exact Keeps.bind (keeps_observe rfl) (fun _ => .ite (fun _ => .pure _) fun _ =>
          keeps_requestFail _) l asked

theorem keeps_requestResolveDone : Keeps (Does own l₀) requestResolveDone := by
  refine .bind .get fun l =>
    .bind (keeps_locked fun _ => keeps_hasResult_socks5ResolverTakeCompleted l.id) fun _ =>
      .ite (fun _ => ?_) fun _ => .pure _
  refine .bind (keeps_onPool fun _ => keeps_hasResult_slot l.id) fun slot =>
    .bind (keeps_observe rfl) fun _ => .ite (fun _ => keeps_requestFail _) fun _ => ?_
  exact .bind (keeps_setFields fun _ => ⟨rfl, rfl, rfl, rfl, rfl⟩) fun _ => keeps_requestConnect

theorem keeps_closeFailedOrigin : Keeps (Does own l₀) closeFailedOrigin := by
  refine keeps_getConn_bind fun c owned => ?_
  split
  · exact .pure _
  · next ofd named => exact keeps_selectorUnregisterFd (owned.origin ofd named)

theorem keeps_requestConnecting (fd : Fd) : Keeps (Does own l₀) (requestConnecting fd) := by
  refine .bind (.bind .get fun _ => .pure _) fun soError => .bind (keeps_observe rfl) fun _ => ?_
  cases soError with
  | none => exact keeps_requestConnectSuccess
  | some errno =>
      exact .bind (keeps_setFields fun _ => ⟨rfl, rfl, rfl, rfl, rfl⟩) fun _ =>
        .bind keeps_closeFailedOrigin fun _ =>
        .bind (keeps_modifyConn fun _ => ⟨rfl, rfl, rfl, .inl rfl, by rintro _ ⟨⟩⟩) fun _ =>
        keeps_requestConnect

theorem keeps_requestWrite : Keeps (Does own l₀) requestWrite := by
  refine .bind keeps_getConn fun c => .bind (keeps_sendPending _ _) fun sent => ?_
  cases sent with
  | some state => exact .pure _
  | none => exact .bind keeps_getConn fun _ => .pure _

/-! ## Relay -/

theorem keeps_propagateClientClose : Keeps (Does own l₀) propagateClientClose :=
  .bind keeps_getConn fun _ => .ite (fun _ => .bind (keeps_shutdownWrite _) fun _ =>
    keeps_setFields fun _ => ⟨rfl, rfl, rfl, rfl, rfl⟩) fun _ => .pure _

theorem keeps_propagateOriginClose : Keeps (Does own l₀) propagateOriginClose :=
  .bind keeps_getConn fun _ => .ite (fun _ => .bind (keeps_shutdownWrite _) fun _ =>
    keeps_setFields fun _ => ⟨rfl, rfl, rfl, rfl, rfl⟩) fun _ => .pure _

theorem keeps_relayArmClient : Keeps (Does own l₀) relayArmClient :=
  keeps_getConn_bind fun _ owned => .ite (fun _ =>
    .bind (keeps_selectorSetInterest _ owned.client) fun _ =>
    .ite (fun _ => .bind (keeps_setFields fun _ => ⟨rfl, rfl, rfl, rfl, rfl⟩) fun _ => .pure _)
      fun _ => .pure _) fun _ => .pure _

theorem keeps_relayArmOrigin : Keeps (Does own l₀) relayArmOrigin :=
  keeps_getConn_bind fun _ owned => .ite (fun _ =>
    .bind (keeps_selectorSetInterest _ owned.origin) fun _ =>
    .ite (fun _ => .bind (keeps_setFields fun _ => ⟨rfl, rfl, rfl, rfl, rfl⟩) fun _ => .pure _)
      fun _ => .pure _) fun _ => .pure _

theorem keeps_relayUpdate : Keeps (Does own l₀) relayUpdate := by
  refine .bind (keeps_setFields fun _ => ⟨rfl, rfl, rfl, rfl, rfl⟩) fun _ =>
    .bind keeps_propagateClientClose fun _ => .bind keeps_propagateOriginClose fun _ =>
    .bind keeps_getConn fun c => .ite (fun _ => .pure _) fun _ => ?_
  exact .bind keeps_relayArmClient fun _ => .ite (fun _ => .bind keeps_relayArmOrigin fun _ =>
    .ite (fun _ => .pure _) fun _ => .pure _) fun _ => .pure _

theorem keeps_relayFlushLoop (toClient : Bool) (rounds : Nat) :
    Keeps (Does own l₀) (relayFlushLoop toClient rounds) := by
  induction rounds with
  | zero => exact .bind keeps_getConn fun c => .ite (fun _ => .throw _) fun _ => .pure _
  | succ rounds ih =>
      rw [relayFlushLoop]
      refine .bind keeps_getConn fun c => .ite (fun _ => .bind (keeps_send _ _) fun result => ?_)
        fun _ => .pure _
      cases result with
      | bytes n =>
          refine .bind (keeps_setFields fun c => ?_) fun _ => ih
          cases toClient <;> exact ⟨rfl, rfl, rfl, rfl, rfl⟩
      | failed errno => exact .pure _
      | zero => exact .pure _

theorem keeps_relayFlush (toClient : Bool) : Keeps (Does own l₀) (relayFlush toClient) :=
  .bind keeps_getConn fun _ => keeps_relayFlushLoop toClient _

theorem wlp_nextRecv {id : ConnId} {cell : Cell} {sh : Shared} {post : RecvAnswer → Local → Prop}
    (next : ∀ answer env, env.calendar = sh.env.calendar →
      post answer ⟨id, cell, { sh with env }⟩) :
    wlp nextRecv post ⟨id, cell, sh⟩ := by
  simp only [nextRecv, wlp_bind, wlp_get]
  cases sh.env.recvs with
  | nil => exact (wlp_pure ..).mpr (next _ sh.env rfl)
  | cons answer later =>
      simp only [wlp_bind, wlp_modifyShared, wlp_pure]
      exact next answer _ rfl

theorem keeps_relayRead (relaying : l₀.cell.conn.current = some .relay) (fd : Fd) :
    Keeps (Does own l₀) (relayRead fd) := by
  rintro ⟨id, cell, sh⟩ done
  rw [relayRead, wlp_bind, wlp_getConn]
  rintro c rfl
  have phase : c.current = some .relay := done.current.trans relaying
  rw [wlp_bind, recv, wlp_bind, wlp_getConn]
  rintro _ ⟨⟩
  generalize (if decide (c.clientFd = some fd) = true then c.readBuffer
    else c.writeBuffer).space = space
  rw [wlp_ite]
  by_cases full : space = 0
  · rw [if_pos full]
    exact (wlp_throw ..).mpr trivial
  rw [if_neg full, wlp_bind]
  refine wlp_nextRecv fun answer env calendar => ?_
  have read : Does own l₀ ⟨id, .live c, { sh with env }⟩ :=
    done.tail (.shared (Shared.steady_env own id calendar))
  have ended : Keeps (Does own l₀) (do
      modifyConn fun c' =>
        if decide (c.clientFd = some fd) then { c' with clientClosed := true }
        else { c' with originClosed := true }
      relayUpdate) := by
    refine .bind (keeps_setFields fun c' => ?_) fun _ => keeps_relayUpdate
    split <;> exact ⟨rfl, rfl, rfl, rfl, rfl⟩
  split
  · rw [wlp_bind]
    refine wlp_mono (keeps_observeError _ _ read) fun _ l' done' => ?_
    exact (wlp_pure ..).mpr ((wlp_pure ..).mpr done')
  · rw [wlp_bind]
    refine wlp_mono (keeps_observe ?_ _ read) fun _ l' done' => ?_
    · split <;> rfl
    · exact (wlp_pure ..).mpr (ended _ done')
  · split
    · exact (wlp_pure ..).mpr (ended _ read)
    · have flushed : ∀ toClient, Keeps (Does own l₀) (do
          if (← relayFlush toClient) = .error then pure .error else relayUpdate) :=
        fun toClient => .bind (keeps_relayFlush toClient) fun _ =>
          .ite (fun _ => .pure _) fun _ => keeps_relayUpdate
      rw [wlp_bind, wlp_observe]
      rintro _ ⟨⟩
      rw [wlp_pure, wlp_bind, wlp_modifyConn]
      rintro _ ⟨⟩
      rw [wlp_bind, wlp_modifyShared]
      by_cases client : c.clientFd = some fd
      · simp only [if_pos client, decide_eq_true client, if_true]
        have counted := fun taken => read.tail (.relay true taken phase)
        simp only [if_true] at counted
        refine flushed _ _ ((counted _).tail (.conn ?_ ?_ ?_ (.inl ?_) fun _ => .inl)) <;> rfl
      · simp only [if_neg client, decide_eq_false client, Bool.false_eq_true, if_false]
        have counted := fun taken => read.tail (.relay false taken phase)
        simp only [Bool.false_eq_true, if_false] at counted
        refine flushed _ _ ((counted _).tail (.conn ?_ ?_ ?_ (.inl ?_) fun _ => .inl)) <;> rfl

theorem keeps_relayWrite (fd : Fd) : Keeps (Does own l₀) (relayWrite fd) :=
  .bind keeps_getConn fun _ => .bind (keeps_relayFlush _) fun _ =>
    .ite (fun _ => .pure _) fun _ => keeps_relayUpdate

end

end SocksProxy
