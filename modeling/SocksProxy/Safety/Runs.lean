import SocksProxy.Safety.World

/-!
# Runs of the process

The remaining events (the progress of connection attempts and the shutdown of
the process), the step lemma over all events, and the run lemma: every list of
events can be run from the initial state, and every state of the run satisfies
the invariant.
-/

namespace SocksProxy

open Prog

/-! ## Connection attempts make progress -/

/-- The ends of a connection after a pending connection attempt of `fd` ended. -/
def Ends.settle (e : Ends) (fd : Fd) (error : Option Errno) : Ends :=
  ⟨e.client.map (settleEnd fd error), e.origin.map (settleEnd fd error), e.job⟩

section

variable {trusted : Prop} {view : View} {c : Conn} {e : Ends} {fd : Fd} {error : Option Errno}

theorem Ends.count_settle : (e.settle fd error).count = e.count := by
  rcases e with ⟨_ | _, _ | _, _⟩ <;> rfl

theorem map_fd_settle (a : Option End) :
    (a.map (settleEnd fd error)).map End.fd = a.map End.fd := by cases a <;> rfl

theorem map_interest_settle (a : Option End) :
    (a.map (settleEnd fd error)).map End.interest = a.map End.interest := by cases a <;> rfl

theorem status_settle {a : End} (begun : a.socket.status ≠ .unconnected) :
    (settleEnd fd error a).socket.status ≠ .unconnected := by
  unfold settleEnd Socket.settled
  split
  · split
    · cases error <;> simp
    · exact begun
  · exact begun

theorem Fits.settle (fits : Fits c e) : Fits c (e.settle fd error) :=
  ⟨by simpa [Ends.settle] using fits.present, by rw [fits.clientFd, Ends.settle, map_fd_settle],
    by rw [fits.originFd, Ends.settle, map_fd_settle], fits.readLimit, fits.writeLimit,
      fits.arrived,
    fits.cached⟩

theorem Armed.settle {phase : State} (armed : Armed phase c e) :
    Armed phase c (e.settle fd error) := by
  cases phase with
  | negRead | authRead | reqRead =>
      exact ⟨by rw [Ends.settle, map_interest_settle, armed.1], by simp [Ends.settle, armed.2.1],
        armed.2.2⟩
  | negWrite | authWrite =>
      exact ⟨by rw [Ends.settle, map_interest_settle, armed.1], by simp [Ends.settle, armed.2.1],
        armed.2.2⟩
  | reqResolve =>
      exact ⟨by rw [Ends.settle, map_interest_settle, armed.1], by simp [Ends.settle, armed.2.1],
        armed.2.2⟩
  | reqConnecting =>
      refine ⟨by rw [Ends.settle, map_interest_settle, armed.1],
        by rw [Ends.settle, map_interest_settle, armed.2.1], armed.2.2.1, ?_, armed.2.2.2.2⟩
      intro b origin
      rcases Option.map_eq_some_iff.mp origin with ⟨b', origin', rfl⟩
      exact status_settle (armed.2.2.2.1 b' origin')
  | reqWrite =>
      refine ⟨by rw [Ends.settle, map_interest_settle, armed.1], ?_, armed.2.2.1, armed.2.2.2.1, ?_⟩
      · rw [Ends.settle, map_interest_settle, Option.map_eq_none_iff]
        exact armed.2.1
      · simpa [Ends.settle] using armed.2.2.2.2
  | relay =>
      refine ⟨armed.1, ?_⟩
      have relays := armed.2
      split at relays
      · rw [if_pos ‹_›]
        exact ⟨⟨by rw [Ends.settle, map_interest_settle]; exact relays.client,
          by rw [Ends.settle, map_interest_settle]; exact relays.origin⟩, relays.clientWanted,
          relays.originWanted, relays.packed, relays.clientPassed, relays.originPassed,
          relays.goesOn⟩
      · rw [if_neg ‹_›, Ends.settle, map_interest_settle, map_interest_settle]
        exact relays
  | done | error => trivial

theorem Resting.settle {mode : Mode} (rest : Resting trusted mode c e) :
    Resting trusted mode c (e.settle fd error) := by
  have resting : AtRest trusted c e → AtRest trusted c (e.settle fd error) := fun rest =>
    ⟨⟨rest.fits.settle, rest.reachable, rest.waits, rest.armed.settle, rest.hungry⟩, rest.drained⟩
  have closing : Closing trusted c e → Closing trusted c (e.settle fd error) := fun rest =>
    ⟨by rw [rest.clientFd, Ends.settle, map_fd_settle],
      by rw [rest.originFd, Ends.settle, map_fd_settle], rest.idle,
      by rw [Ends.count_settle]; exact rest.referred, rest.reachable⟩
  cases mode with
  | running | joining => exact resting rest
  | stopped => exact closing rest
  | destroyed => exact rest

/-! ## Connections that are closed -/

theorem Closing.of_atRest (rest : AtRest trusted c e) :
    Closing trusted c { e with job := false } := by
  refine ⟨rest.fits.clientFd, rest.fits.originFd, rfl, ?_, rest.reachable⟩
  refine lt_of_le_of_ne (Ends.count_nonneg _) fun zero => ?_
  have client : e.client = none := (Ends.of_count_eq_zero zero.symm).2 .client
  simpa [client] using rest.fits.present

theorem session_closeFd (c : Conn) (fd : Fd) (counted : Bool) :
    ({ c.closeFd fd with activeCounted := counted } : Conn).session = c.session := by
  unfold Conn.closeFd
  split
  · rfl
  · split <;> rfl

/-- The descriptor fields follow the ends when one of them is closed. -/
theorem Closing.closeFd {side : Side} {a : End} (closing : Closing trusted c e)
    (has : e.get side = some a)
    (apart : ∀ b, e.client = some b → e.origin = some a → b.fd ≠ a.fd) (counted : Bool)
    (referred : 0 < (e.close side false).count) :
    Closing trusted { c.closeFd a.fd with activeCounted := counted } (e.close side false) := by
  have fields : (c.closeFd a.fd).clientFd = (e.close side false).client.map End.fd ∧
      (c.closeFd a.fd).originFd = (e.close side false).origin.map End.fd := by
    rcases closing with ⟨clientFd, originFd, -⟩
    cases side with
    | client =>
        have client : e.client = some a := has
        rw [client, Option.map_some] at clientFd
        rw [Conn.closeFd, if_pos clientFd]
        exact ⟨rfl, originFd⟩
    | origin =>
        have origin : e.origin = some a := has
        rw [origin, Option.map_some] at originFd
        have notClient : c.clientFd ≠ some a.fd := by
          rw [clientFd]
          intro same
          rcases Option.map_eq_some_iff.mp same with ⟨b, client, clash⟩
          exact apart b client origin clash
        rw [Conn.closeFd, if_neg notClient, if_pos originFd]
        exact ⟨clientFd, rfl⟩
  exact ⟨fields.1, fields.2, rfl, referred, (session_closeFd c a.fd counted).symm ▸
    closing.reachable⟩

namespace World

variable {w : World}

theorem Inv.settle (inv : Inv trusted view w) (fd : Fd) (error : Option Errno) :
    Continues trusted w (.ok { w with sh := { w.sh with kern := w.sh.kern.settle fd error } }) := by
  refine ⟨_, fun k => (view k).map fun e => e.settle fd error, rfl,
    ⟨⟨?_, ⟨inv.sound.slots.ok, fun k => ?_⟩, ?_, inv.sound.sizes⟩, fun k => ?_, inv.fresh⟩, rfl,
    .of_heap_eq rfl⟩
  · have ends : View.ends (fun k => (view k).map fun e => e.settle fd error) =
        fun k side => (view.ends k side).map (settleEnd fd error) := by
      funext k side
      cases mine : view k with
      | none => simp [View.ends, mine]
      | some e => cases side <;> simp [View.ends, mine, Ends.get, Ends.settle]
    rw [ends]
    exact inv.sound.table.settle fd error
  · rw [inv.sound.slots.counts k, Option.map_map]
    congr 1
    funext e
    exact congrArg (fun n => (n, e.job)) Ends.count_settle.symm
  · exact inv.sound.listed.congr fun k => by simp
  · have cell := inv.cells k
    revert cell
    rcases w.heap k with _ | ⟨c⟩ | ⟨c, references⟩ <;> cases view k with
    | none => exact fun cell => cell
    | some e => first | exact fun cell => cell | exact fun cell => Resting.settle cell

/-! ## Shutdown -/

theorem Inv.stopBegin (inv : Inv trusted view w) (running : w.mode = .running) :
    ∃ stopping pool, socks5ResolverPoolStopBegin w.sh.pool = .ok (stopping, pool) ∧
      Ok trusted { w with
        mode := if stopping then .joining else .stopped
        sh := { w.sh with pool } } := by
  rcases Pool.wp_socks5ResolverPoolStopBegin inv.sound.slots.ok with
    ⟨stopping, pool, ran, ok, same, unstarted⟩
  have slots : Slots view pool := ⟨ok, fun k => by rw [same]; exact inv.sound.slots.counts k⟩
  refine ⟨stopping, pool, ran, view, ⟨inv.sound.table, slots, inv.sound.listed, inv.sound.sizes⟩,
    fun k => ?_, inv.fresh⟩
  have cell := inv.cells k
  rw [running] at cell
  cases stopping with
  | true =>
      revert cell
      rcases w.heap k with _ | ⟨c⟩ | ⟨c, references⟩ <;> cases view k <;> exact fun cell => cell
  | false =>
      revert cell
      rcases w.heap k with _ | ⟨c⟩ | ⟨c, references⟩ <;> cases mine : view k with
      | none => exact fun cell => cell
      | some e =>
          first
          | exact fun cell => cell
          | intro rest
            rcases slots.exists_slot mine with ⟨s, present, -, job⟩
            have idle : e.job = false := by
              simpa [ok.jobless (unstarted rfl) present] using job.symm
            have closing := Closing.of_atRest rest
            rwa [← idle] at closing

/-- Taking the jobs from their connections, as stopping the pool does. -/
theorem Inv.stopJoined (inv : Inv trusted view w) (joining : w.mode = .joining)
    (exited : allExited w.sh.pool = true) :
    ∃ owners pool view', socks5ResolverPoolStopJoined w.sh.pool = .ok (owners, pool) ∧
      (∀ k ∈ owners, (view' k).isSome) ∧
      Inv trusted view' { w with mode := .stopped, sh := { w.sh with pool } } := by
  have gone : ∀ i, w.sh.pool.workers i = .exited := by simpa [allExited] using exited
  rcases Pool.wp_socks5ResolverPoolStopJoined inv.sound.slots.ok gone with
    ⟨owners, pool, ran, ok, released, inside, -⟩
  let jobless : View := fun k => (view k).map fun e => { e with job := false }
  have slots : Slots jobless pool := by
    refine ⟨ok, fun k => ?_⟩
    rw [released k]
    cases mine : view k with
    | none =>
        have absent := inv.sound.slots.counts k
        rw [mine, Option.map_none, Option.map_eq_none_iff] at absent
        simp [jobless, mine, absent]
    | some e =>
        rcases inv.sound.slots.exists_slot mine with ⟨s, present, references, job⟩
        have count := e.count_setJob false
        cases owns : s.resolverJob <;>
          simp_all [jobless, Pool.releasedSlot]
  refine ⟨owners, pool, jobless, ran, fun k member => ?_,
    ⟨?_, slots, inv.sound.listed.congr fun k => by simp [jobless], inv.sound.sizes⟩, fun k => ?_,
    inv.fresh⟩
  · rcases inside k member with ⟨s, present⟩
    have counts := slots.counts k
    rw [present, Option.map_some] at counts
    exact Option.isSome_iff_exists.mpr (Option.map_eq_some_iff.mp counts.symm |>.imp fun _ h => h.1)
  · have ends : View.ends jobless = view.ends := by
      funext k side
      cases mine : view k with
      | none => simp [View.ends, jobless, mine]
      | some e => cases side <;> simp [View.ends, jobless, mine, Ends.get]
    rw [ends]
    exact inv.sound.table
  · have cell := inv.cells k
    rw [joining] at cell
    revert cell
    change CellOk trusted .joining (w.heap k) (view k) →
      CellOk trusted .stopped (w.heap k) ((view k).map fun e => { e with job := false })
    rcases w.heap k with _ | ⟨c⟩ | ⟨c, references⟩ <;> cases mine : view k with
    | none => exact fun cell => cell
    | some e =>
        first
        | exact fun cell => cell
        | exact fun rest => Closing.of_atRest rest

/-- Connections that lost their job still have their client, so none of them is freed. -/
theorem Inv.freeUnreferenced {owners : List ConnId} (inv : Inv trusted view w)
    (stopped : w.mode = .stopped) (alive : ∀ k ∈ owners, (view k).isSome) :
    Continues trusted w (World.freeUnreferenced owners w) := by
  induction owners generalizing w view with
  | nil => exact inv.continues
  | cons k rest ih =>
      rcases Option.isSome_iff_exists.mp (alive k (by simp)) with ⟨e, mine⟩
      rcases inv.live mine with ⟨c, found, closing⟩
      have closing' : Closing trusted c e := by simpa [stopped, Resting] using closing
      have same : Function.update view k (some e) = view := by rw [← mine, Function.update_eq_self]
      have kept : wp socks5ConnFreeIfUnreferenced (fun _ l => ∃ ends : Option Ends,
          ends = some e ∧ l.sh.Sound (Function.update view k ends) none ∧
            CellOk trusted w.mode (some l.cell) ends) ⟨k, .live c, w.sh⟩ := by
        refine wp_socks5ConnFreeIfUnreferenced (same.symm ▸ inv.sound.slots)
          (same.symm ▸ inv.sound.listed) ?_ ?_
        · exact fun _ => ⟨some e, rfl, same.symm ▸ inv.sound, closing⟩
        · exact fun zero => absurd zero (ne_of_gt closing'.referred)
      rcases inv.onConn (· = some e) found kept with ⟨_, w', view', ran, after, mine'⟩
      have alive' : ∀ other ∈ rest, (view' other).isSome := by
        intro other member
        by_cases this : other = k
        · simp [this, mine']
        · rw [after.others other this]
          exact alive other (by simp [member])
      rcases ih after.inv (after.mode.trans stopped) alive' with
        ⟨w'', view'', ran', inv'', mode, evolves⟩
      refine ⟨w'', view'', ?_, inv'', mode.trans after.mode, after.evolves.trans evolves⟩
      simp only [World.freeUnreferenced, ran]
      exact ran'

/-- Nothing new is held, and `fd` is not held any more. -/
def Vacated (view view' : View) (fd : Fd) : Prop :=
  ∀ k side a, view'.ends k side = some a → a.fd ≠ fd ∧ ∃ b, view.ends k side = some b ∧ b.fd = a.fd

theorem vacated_of_unheld {fd : Fd} (unheld : ∀ k side a, view.ends k side = some a → a.fd ≠ fd) :
    Vacated view view fd :=
  fun k side a has => ⟨unheld k side a has, a, has, rfl⟩

theorem Inv.unregister (inv : Inv trusted view w) (stopped : w.mode = .stopped) (fd : Fd) :
    ∃ w' view', w.unregister fd = .ok w' ∧ Inv trusted view' w' ∧ w'.mode = w.mode ∧
      Evolves w w' ∧ Vacated view view' fd := by
  unfold World.unregister
  cases item : w.sh.sel.items fd with
  | none =>
      refine ⟨w, view, rfl, inv, rfl, .refl w, vacated_of_unheld fun k side a has => ?_⟩
      rintro rfl
      have registered := (inv.sound.table.registered k side a has).1
      rw [item] at registered
      cases registered
  | some found =>
      rcases found with ⟨interest, owner⟩
      have clear : Item.isConn ⟨interest, owner⟩ = false → ∃ w' view',
          Except.ok { w with sh := { w.sh with sel := w.sh.sel.clear fd } } =
            (.ok w' : Except Fault World) ∧ Inv trusted view' w' ∧ w'.mode = w.mode ∧ Evolves w w' ∧
          Vacated view view' fd := by
        intro other
        refine ⟨_, view, rfl, ⟨⟨inv.sound.table.clearElsewhere item other, inv.sound.slots,
          inv.sound.listed, inv.sound.sizes⟩, inv.cells, inv.fresh⟩, rfl, .of_heap_eq rfl,
          vacated_of_unheld fun k side a has => ?_⟩
        rintro rfl
        have registered := (inv.sound.table.registered k side a has).1
        rw [item] at registered
        rw [Option.some.injEq] at registered
        rw [registered, Item.isConn_conn] at other
        cases other
      cases owner with
      | listener => exact clear rfl
      | other => exact clear rfl
      | conn k =>
          rcases owner_of_item inv.sound item with ⟨e, side, a, mine, has, rfl, -⟩
          rcases inv.live mine with ⟨c, found, closing⟩
          have closing' : Closing trusted c e := by simpa [stopped, Resting] using closing
          have sound : w.sh.Sound (Function.update view k (some e)) none := by
            rw [← mine, Function.update_eq_self]
            exact inv.sound
          have closed : wp (selectorUnregisterFd a.fd) (fun _ l => ∃ ends : Option Ends,
              (∀ left, ends = some left → left = e.close side false) ∧
                l.sh.Sound (Function.update view k ends) none ∧
                CellOk trusted w.mode (some l.cell) ends) ⟨k, .live c, w.sh⟩ := by
            refine wp_selectorUnregisterFd side sound has ?_ ?_
            · intro job counted sh' older last referred sound'
              obtain rfl : job = false := by
                by_contra held
                simpa [closing'.idle] using older (by simpa using held)
              refine ⟨some (e.close side false), fun left same =>
                (Option.some.inj same).symm, sound', ?_⟩
              simp only [stopped, CellOk, Resting]
              refine closing'.closeFd has ?_ counted referred
              exact fun b client origin => fd_ne_of_sound sound client origin
            · intro job counted sh' zero sound'
              refine ⟨none, by simp, sound', rfl, ?_⟩
              rw [session_closeFd]
              exact closing'.reachable
          rcases inv.onConn _ found closed with ⟨_, w', view', ran, after, left⟩
          refine ⟨w', view', by simp only [ran]; rfl, after.inv, after.mode, after.evolves, ?_⟩
          intro other side' b held
          have mineHeld : view.ends k side = some a := by simp [View.ends, mine, has]
          by_cases same : other = k
          · subst same
            rcases Option.bind_eq_some_iff.mp held with ⟨e', mine', got⟩
            rw [left e' mine'] at got
            have kept : side' ≠ side ∧ e.get side' = some b := by
              cases side <;> cases side' <;> first | exact ⟨by simp, got⟩ | cases got
            have before : view.ends other side' = some b := by simp [View.ends, mine, kept.2]
            refine ⟨fun clash => kept.1 ?_, b, before, rfl⟩
            exact inv.sound.table.distinct other side' b side a before mineHeld clash
          · have before : view.ends other side' = some b := by
              simpa [View.ends, after.others other same] using held
            refine ⟨fun clash => ?_, b, before, rfl⟩
            have registered := (inv.sound.table.registered other side' b before).1
            rw [clash, item] at registered
            simp only [Option.some.injEq, Item.mk.injEq, Owner.conn.injEq] at registered
            exact same registered.2.symm

/-- The loop of `selector_destroy`. -/
theorem Inv.destroyFrom {fds : List Fd} {envs : List Answers} (inv : Inv trusted view w)
    (stopped : w.mode = .stopped) :
    ∃ w' view', World.destroyFrom fds envs w = .ok w' ∧ Inv trusted view' w' ∧ w'.mode = w.mode ∧
      Evolves w w' ∧ ∀ k side a, view'.ends k side = some a → a.fd ∉ fds ∧
        ∃ b, view.ends k side = some b ∧ b.fd = a.fd := by
  induction fds generalizing w view envs with
  | nil => exact ⟨w, view, rfl, inv, rfl, .refl w, fun k side a has => ⟨by simp, a, has, rfl⟩⟩
  | cons fd fds ih =>
      rcases (inv.withEnv (w.headEnv envs)).unregister stopped fd with
        ⟨w', view', ran, inv', mode, evolves, vacated⟩
      rcases ih inv' (mode.trans stopped) with ⟨w'', view'', rest, inv'', mode', evolves', left⟩
      refine ⟨w'', view'', ?_, inv'', mode'.trans mode,
        (evolves_withEnv w _).trans (evolves.trans evolves'), fun k side a has => ?_⟩
      · simp only [World.destroyFrom, ran]
        exact rest
      · rcases left k side a has with ⟨later, b, held, same⟩
        rcases vacated k side b held with ⟨apart, b', held', same'⟩
        refine ⟨?_, b', held', same'.trans same⟩
        rw [same] at apart
        simpa using ⟨apart, later⟩

theorem Inv.destroy (inv : Inv trusted view w) (stopped : w.mode = .stopped) (envs : List Answers) :
    ∃ w', World.destroyFrom (List.range (FD_SETSIZE + 1)) envs w = .ok w' ∧
      Ok trusted { w' with mode := .destroyed } ∧ Evolves w w' ∧
      ∀ k c, w'.heap k ≠ some (.live c) := by
  rcases inv.destroyFrom stopped with ⟨w', view', ran, inv', mode, evolves, left⟩
  have unheld : ∀ k side, view'.ends k side = none := by
    intro k side
    by_contra held
    rcases Option.ne_none_iff_exists'.mp held with ⟨a, has⟩
    have item := (inv'.sound.table.registered k side a has).1
    have small := inv'.sound.table.range a.fd (by simp [item])
    exact (left k side a has).1 (List.mem_range.mpr (Nat.lt_succ_of_lt small))
  have empty : ∀ k, view' k = none := by
    intro k
    by_contra alive
    rcases Option.ne_none_iff_exists'.mp alive with ⟨e, mine⟩
    rcases inv'.live mine with ⟨c, -, closing⟩
    have closing' : Closing trusted c e := by
      simpa [mode.trans stopped, Resting] using closing
    have client := unheld k .client
    have origin := unheld k .origin
    simp only [View.ends, mine, Option.bind_some, Ends.get] at client origin
    simpa [Ends.count, client, origin, closing'.idle] using closing'.referred
  have freed : ∀ k c, w'.heap k ≠ some (.live c) := by
    intro k c found
    have cell := inv'.cells k
    rw [found, empty k] at cell
    exact cell
  refine ⟨w', ran, ⟨view', inv'.sound, fun k => ?_, inv'.fresh⟩, evolves, freed⟩
  have cell := inv'.cells k
  revert cell
  change CellOk trusted w'.mode (w'.heap k) (view' k) →
    CellOk trusted .destroyed (w'.heap k) (view' k)
  rw [empty k]
  rcases w'.heap k with _ | ⟨c⟩ | ⟨c, references⟩ <;> exact fun cell => cell

/-! ## Steps and runs -/

/-- A reported write readiness of a socket does not come before the socket has stopped connecting.
-/
def Honest (w : World) : Event → Prop
  | .write fd _ => ∀ socket, w.sh.kern.sockets fd = some socket → socket.status ≠ .inProgress
  | _ => True

theorem Continues.ok {result : Except Fault World} (continues : Continues trusted w result) :
    ∃ w', result = .ok w' ∧ w'.Ok trusted ∧ Evolves w w' := by
  rcases continues with ⟨w', view', ran, inv, -, evolves⟩
  exact ⟨w', ran, ⟨view', inv⟩, evolves⟩

/-- One event: it does not fault and keeps the invariant. -/
theorem step_ok (ok : w.Ok trusted) (event : Event) (honest : trusted → w.Honest event) :
    ∃ w', w.step event = .ok w' ∧ w'.Ok trusted ∧ Evolves w w' := by
  rcases ok with ⟨view, inv⟩
  have unchanged : ∃ w', (.ok w : Except Fault World) = .ok w' ∧ w'.Ok trusted ∧ Evolves w w' :=
    inv.continues.ok
  cases event with
  | read fd env =>
      simp only [step]
      split
      · next running =>
          exact Continues.ok (w := w)
            (((inv.withEnv env).dispatchRead running fd).of_eq rfl rfl)
      · exact unchanged
  | write fd env =>
      simp only [step]
      split
      · next running =>
          exact Continues.ok (w := w)
            (((inv.withEnv env).dispatchWrite running fd honest).of_eq rfl rfl)
      · exact unchanged
  | block envs =>
      simp only [step]
      split
      · next running => exact (inv.handleBlockNotifications running envs).ok
      · exact unchanged
  | reap now envs =>
      simp only [step]
      split
      · next running => exact (inv.reapIdle running now envs).ok
      · exact unchanged
  | worker step =>
      rcases inv.worker step with ⟨sh', ran, continues⟩
      simp only [World.step, ran]
      exact continues.ok
  | settle fd error => exact (inv.settle fd error).ok
  | admin command =>
      simp only [step]
      split
      · exact (inv.share (inv.admin command)).ok
      · exact unchanged
  | foreign action =>
      simp only [step]
      split
      · exact (inv.share (inv.foreign action)).ok
      · exact unchanged
  | stopBegin =>
      simp only [step]
      split
      · next running =>
          rcases inv.stopBegin running with ⟨stopping, pool, ran, ok⟩
          simp only [ran]
          exact ⟨_, rfl, ok, .of_heap_eq rfl⟩
      · exact unchanged
  | stopJoined =>
      simp only [step]
      split
      · next joining =>
          rcases inv.stopJoined joining.1 joining.2 with ⟨owners, pool, view', ran, alive, inv'⟩
          simp only [ran]
          rcases (inv'.freeUnreferenced rfl alive).ok with ⟨w', rest, ok, evolves⟩
          exact ⟨w', rest, ok, evolves.freed, evolves.known⟩
      · exact unchanged
  | destroy envs =>
      simp only [step]
      split
      · next stopped =>
          rcases inv.destroy stopped envs with ⟨w', ran, ok, evolves, -⟩
          rw [ran]
          exact ⟨_, rfl, ok, evolves.freed, evolves.known⟩
      · exact unchanged

theorem ok_initial (users : Users) (log : AccessLog) (now : Int) (calendar : CalendarTime) :
    (initial users log now calendar).Ok trusted := by
  have table : Table (View.ends fun _ => none) none Selector.empty.items Kernel.initial none := by
    constructor <;> simp [View.ends, Selector.empty, Kernel.initial]
  exact ⟨fun _ => none, ⟨table, ⟨Pool.ok_ready, fun k => rfl⟩, ⟨[], rfl, trivial, by simp, by simp⟩,
    configInit_bufferSizeInRange _⟩, fun k => trivial, fun k _ => rfl⟩

/-- Every write readiness in a run is honest. -/
def HonestRun : World → List Event → Prop
  | _, [] => True
  | w, event :: rest => w.Honest event ∧ ∀ w', w.step event = .ok w' → HonestRun w' rest

/-- A whole run: no event faults, and the invariant holds at its end. -/
theorem run_ok {events : List Event} (ok : w.Ok trusted) (honest : trusted → w.HonestRun events) :
    ∃ w', w.run events = .ok w' ∧ w'.Ok trusted ∧ Evolves w w' := by
  induction events generalizing w with
  | nil => exact ⟨w, rfl, ok, .refl w⟩
  | cons event rest ih =>
      rcases step_ok ok event (fun sure => (honest sure).1) with ⟨w', stepped, ok', evolves⟩
      rcases ih ok' (fun sure => (honest sure).2 w' stepped) with ⟨w'', ran, ok'', evolves'⟩
      refine ⟨w'', ?_, ok'', evolves.trans evolves'⟩
      simp only [run, stepped]
      exact ran

theorem run_concat {w₀ w' : World} {events : List Event} {event : Event}
    (ran : w₀.run events = .ok w) (stepped : w.step event = .ok w') :
    w₀.run (events ++ [event]) = .ok w' := by
  induction events generalizing w₀ with
  | nil =>
      obtain rfl : w₀ = w := Except.ok.inj ran
      simp [run, stepped]
  | cons first rest ih =>
      simp only [List.cons_append, run] at ran ⊢
      cases begun : w₀.step first with
      | error fault => simp [begun] at ran
      | ok w₁ =>
          rw [begun] at ran
          exact ih ran

theorem Reachable.step {w' : World} {event : Event} (reachable : w.Reachable)
    (stepped : w.step event = .ok w') : w'.Reachable := by
  rcases reachable with ⟨users, log, now, calendar, events, ran⟩
  exact ⟨users, log, now, calendar, events ++ [event], run_concat ran stepped⟩

theorem Reachable.ok (reachable : w.Reachable) : w.Ok False := by
  rcases reachable with ⟨users, log, now, calendar, events, ran⟩
  have initially : (initial users log now calendar).Ok False := ok_initial users log now calendar
  have finished : ∃ w', (initial users log now calendar).run events = .ok w' ∧ w'.Ok False ∧
      Evolves (initial users log now calendar) w' := run_ok initially False.elim
  rcases finished with ⟨w', ran', ok, -⟩
  obtain rfl : w = w' := by simpa [ran] using ran'
  exact ok

end World

end

end SocksProxy
