import SocksProxy.Accounting.Moves
import SocksProxy.Safety.Runs

/-!
# Handlers keep to their own descriptors

The selector is one table for SOCKS5 connections, the two listeners and the
management connections, and what its items mean to others is not for a SOCKS5
handler to change. `Surroundings` is everything that is not a connection's own:
the descriptors of other modules with their items, and what is configured. The
handlers leave it alone, but for two things they do on purpose: the listener is
paused when no descriptors are left, and resumed when one was closed.

Like what handlers do to the books, this follows from the acts they are made of:
as long as the descriptor fields of a connection name nothing foreign, nothing
else is touched.
-/

namespace SocksProxy

open Prog

/-- What of the shared state belongs to other modules: their open descriptors, the items at them,
the listener among these, the selector's mutex, and what is configured. -/
structure Surroundings where
  foreign : Fd → Bool
  items : Fd → Option Item
  listener : Option Fd
  locked : Bool
  users : Users
  config : Config
  strange : ∀ fd item, items fd = some item → item.owner = .other

namespace Surroundings

/-- The selector's mutex is taken or released. -/
def lock (around : Surroundings) (locked : Bool) : Surroundings := { around with locked }

/-- The shared state is as other modules have left it. A listener that waits for a descriptor is not
armed; its item may be gone, once the selector is being destroyed. -/
structure Hold (around : Surroundings) (sh : Shared) : Prop where
  foreign : sh.kern.foreign = around.foreign
  others : ∀ fd, around.foreign fd = true → around.listener ≠ some fd →
    sh.sel.items fd = around.items fd
  listens : ∀ fd, around.listener = some fd → around.foreign fd = true ∧
    sh.sel.items fd = some ⟨if sh.acceptPausedFd = some fd then OP_NOOP else OP_READ, .listener⟩
  paused : ∀ fd, sh.acceptPausedFd = some fd →
    around.listener = some fd ∨ (around.foreign fd = true ∧ around.items fd = none)
  locked : sh.sel.resolutionLocked = around.locked
  users : sh.users = around.users
  config : sh.config = around.config

variable {around : Surroundings} {sh sh' : Shared}

theorem Hold.of_eq (hold : around.Hold sh) (foreign : sh'.kern.foreign = sh.kern.foreign)
    (items : sh'.sel.items = sh.sel.items)
    (locked : sh'.sel.resolutionLocked = sh.sel.resolutionLocked)
    (paused : sh'.acceptPausedFd = sh.acceptPausedFd)
    (users : sh'.users = sh.users) (config : sh'.config = sh.config) : around.Hold sh' := by
  refine ⟨foreign.trans hold.foreign, ?_, ?_, ?_, locked.trans hold.locked,
    users.trans hold.users, config.trans hold.config⟩
  · rw [items]
    exact hold.others
  · rw [items, paused]
    exact hold.listens
  · rw [paused]
    exact hold.paused

/-- The descriptors that are not foreign. -/
def Own (around : Surroundings) (fd : Fd) : Prop := around.foreign fd = false

theorem Hold.of_spares (hold : around.Hold sh) (spares : Shared.SparesOthers around.Own sh sh')
    (users : sh'.users = sh.users) (config : sh'.config = sh.config) : around.Hold sh' := by
  have elsewhere : ∀ fd, around.foreign fd = true → sh'.sel.items fd = sh.sel.items fd :=
    fun fd foreign => spares.items fd (by rw [Own, foreign]; exact Bool.noConfusion)
  refine ⟨spares.foreign.trans hold.foreign, fun fd foreign apart => ?_, fun fd listens => ?_, ?_,
    spares.locked.trans hold.locked, users.trans hold.users, config.trans hold.config⟩
  · exact (elsewhere fd foreign).trans (hold.others fd foreign apart)
  · rcases hold.listens fd listens with ⟨foreign, item⟩
    rw [spares.paused]
    exact ⟨foreign, (elsewhere fd foreign).trans item⟩
  · rw [spares.paused]
    exact hold.paused

theorem Hold.of_steady {id : ConnId} (hold : around.Hold sh)
    (steady : Shared.Steady around.Own id sh sh') : around.Hold sh' :=
  hold.of_spares steady.toSparesOthers steady.users steady.config

theorem Hold.lock (hold : around.Hold sh) (locked : Bool) (resolutionJobs : List Fd) :
    (around.lock locked).Hold
      { sh with sel := { sh.sel with resolutionJobs, resolutionLocked := locked } } :=
  ⟨hold.foreign, hold.others, hold.listens, hold.paused, rfl, hold.users, hold.config⟩

theorem Hold.resume (hold : around.Hold sh) {fd : Fd} (paused : sh.acceptPausedFd = some fd)
    {sel : Selector} (armed : sh.sel.setInterest fd OP_READ = some sel) :
    around.Hold { sh with sel, acceptPausedFd := none } := by
  unfold Selector.setInterest at armed
  split at armed
  · cases armed
  split at armed
  · cases armed
  next item found =>
    cases armed
    by_cases listens : around.listener = some fd
    · refine ⟨hold.foreign, fun other foreign apart => ?_, fun other listens' => ?_, by simp,
        hold.locked, hold.users, hold.config⟩
      · have differs : other ≠ fd := by
          rintro rfl
          exact apart listens
        simpa [Function.update_of_ne differs] using hold.others other foreign apart
      · have same : other = fd := Option.some.inj (listens'.symm.trans listens)
        subst same
        rcases hold.listens other listens with ⟨foreign, registered⟩
        rw [registered] at found
        cases found
        exact ⟨foreign, by simp⟩
    · rcases (hold.paused fd paused).resolve_left listens with ⟨foreign, gone⟩
      rw [hold.others fd foreign listens, gone] at found
      cases found

theorem Hold.pause (hold : around.Hold sh) {fd : Fd} (listens : around.listener = some fd)
    {sel : Selector} (armed : sh.sel.setInterest fd OP_NOOP = some sel) :
    around.Hold { sh with sel, acceptPausedFd := some fd } := by
  rcases hold.listens fd listens with ⟨foreign, registered⟩
  simp only [Selector.setInterest, registered] at armed
  split at armed
  · cases armed
  cases armed
  refine ⟨hold.foreign, fun other strange apart => ?_, fun other same => ?_, fun other same => ?_,
    hold.locked, hold.users, hold.config⟩
  · have differs : other ≠ fd := by
      rintro rfl
      exact apart listens
    simpa [Function.update_of_ne differs] using hold.others other strange apart
  · rw [listens] at same
    cases same
    exact ⟨foreign, by simp⟩
  · cases same
    exact .inl listens

theorem Hold.own (hold : around.Hold sh) {fd : Fd} {interest : Interest} {k : ConnId}
    (item : sh.sel.items fd = some ⟨interest, .conn k⟩) : around.foreign fd = false := by
  rw [Bool.eq_false_iff]
  intro foreign
  by_cases listens : around.listener = some fd
  · rw [(hold.listens fd listens).2] at item
    cases item
  · rw [hold.others fd foreign listens] at item
    exact nomatch around.strange fd _ item

theorem Hold.listener_eq {view : View} (hold : around.Hold sh) (sound : sh.Sound view none)
    {fd : Fd} {interest : Interest} (item : sh.sel.items fd = some ⟨interest, .listener⟩) :
    around.listener = some fd := by
  by_contra apart
  have foreign := sound.table.elsewhere fd _ item rfl
  rw [hold.foreign] at foreign
  rw [hold.others fd foreign apart] at item
  exact nomatch around.strange fd _ item

theorem Hold.retryAccept (hold : around.Hold sh) : around.Hold (World.retryAccept sh) := by
  unfold World.retryAccept
  split
  · exact hold
  · next fd paused =>
      split
      · exact hold
      · next armed => exact hold.resume paused armed

end Surroundings

/-- The store a decision was made by. -/
def Obs.consulted : Obs → Option Users
  | .chose _ store | .validated _ store => some store
  | _ => none

/-- An observation asks these users, or none. -/
def Obs.Consults (users : Users) (what : Obs) : Prop :=
  what.consulted = none ∨ what.consulted = some users

/-- The handler has kept to its connection so far, and to the users there are. -/
structure Confined (around : Surroundings) (before : List Obs) (l : Local) : Prop where
  hold : around.Hold l.sh
  apart : ∀ c, l.cell = .live c → c.Owned around.Own
  consulted : ∀ what ∈ l.cell.conn.hist, what ∈ before ∨ what.Consults around.users

section

variable {around : Surroundings} {before : List Obs} {id : ConnId} {c : Conn} {cell : Cell}
  {sh sh' : Shared} {l l' : Local}

theorem Confined.owns (confined : Confined around before l) : Owns around.Own l :=
  ⟨confined.apart, fun fd unclaimed => by rwa [confined.hold.foreign] at unclaimed⟩

theorem Confined.share (confined : Confined around before ⟨id, cell, sh⟩)
    (hold : around.Hold sh') : Confined around before ⟨id, cell, sh'⟩ :=
  ⟨hold, confined.apart, confined.consulted⟩

theorem Obs.Consults.of_isPlain {users : Users} {what : Obs} (plain : what.isPlain = true) :
    what.Consults users := by
  cases what <;> first | exact .inl rfl | cases plain

theorem Obs.Consults.of_isInput {users : Users} {what : Obs} (input : what.isInput = true) :
    what.Consults users := by
  cases what <;> first | exact .inl rfl | cases input

theorem Confined.note (confined : Confined around before ⟨id, .live c, sh⟩) {c' : Conn}
    (what : Obs) (consults : what.Consults around.users) (hist : c'.hist = what :: c.hist)
    (client : c'.clientFd = c.clientFd) (origin : c'.originFd = c.originFd)
    (hold : around.Hold sh') : Confined around before ⟨id, .live c', sh'⟩ := by
  refine ⟨hold, ?_, fun other member => ?_⟩
  · rintro _ ⟨⟩ fd named
    rw [client, origin] at named
    exact confined.apart c rfl fd named
  · rw [Cell.conn, hist] at member
    rcases List.mem_cons.mp member with rfl | earlier
    · exact .inr consults
    · exact confined.consulted other earlier

/-- An act on descriptors that are not foreign leaves other modules alone. -/
theorem Act.confined (act : Act around.Own l l') (confined : Confined around before l) :
    Confined around before l' := by
  have apart := act.owned confined.apart
  have hold := confined.hold
  cases act with
  | conn hist current counted client origin =>
      refine ⟨hold, apart, fun what member => confined.consulted what ?_⟩
      rwa [Cell.conn, hist] at member
  | shared same => exact confined.share (hold.of_steady same)
  | resume paused armed => exact confined.share (hold.resume paused armed)
  | observe what fits =>
      refine confined.note what ?_ rfl rfl rfl hold
      exact fits.elim (.of_isPlain ·) fun input => .of_isInput input.1
  | choose p => exact confined.note (.chose _ _) (.inr (congrArg some hold.users)) rfl rfl rfl hold
  | validate status =>
      exact confined.note (.validated _ _) (.inr (congrArg some hold.users)) rfl rfl rfl hold
  | relay fromClient bytes phase =>
      refine confined.note _ (.of_isInput ?_) rfl rfl rfl (hold.of_eq rfl rfl rfl rfl rfl rfl)
      cases fromClient <;> rfl
  | log user dest result =>
      exact confined.note (.logged _ _ _) (.inl rfl) rfl rfl rfl
        (hold.of_eq rfl rfl rfl rfl rfl rfl)
  | deactivate counted gone =>
      exact ⟨hold.of_eq rfl rfl rfl rfl rfl rfl, apart, confined.consulted⟩
  | free references list pool others =>
      refine ⟨?_, apart, confined.consulted⟩
      dsimp only
      split <;> exact hold.of_eq rfl rfl rfl rfl rfl rfl

theorem Turn.confined (turn : Turn around.Own l l') (confined : Confined around before l) :
    Confined around before l' := by
  cases turn with
  | act act => exact act.confined confined
  | @move _ c _ next handshake last =>
      by_cases stays : c.current = some next
      · refine ⟨confined.hold, ?_, ?_⟩
        · rintro _ ⟨⟩ fd named
          exact confined.apart c rfl fd named
        · simpa [Cell.conn, stays] using confined.consulted
      · exact confined.note (.entered next) (.inl rfl) (if_neg stays) rfl rfl confined.hold
  | @openRelay id c sh bytes early =>
      have entered : Confined around before
          ⟨id, .live { c with hist := .entered .relay :: c.hist }, sh⟩ :=
        confined.note (.entered .relay) (.inl rfl) rfl rfl rfl confined.hold
      exact entered.note (.leftover bytes) (.inl rfl) rfl rfl rfl confined.hold

theorem Turns.confined (turned : Turns around.Own l l') (confined : Confined around before l) :
    Confined around before l' := by
  rcases turned with ⟨-, turns⟩
  induction turns with
  | refl => exact confined
  | tail _ turn ih => exact turn.confined ih

end

end SocksProxy
