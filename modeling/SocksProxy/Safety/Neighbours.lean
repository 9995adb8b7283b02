import SocksProxy.Safety.Surroundings

/-!
# Events leave other modules alone

What the handlers of one connection keep, whole events keep: no event of a
SOCKS5 connection or of the resolver changes the descriptors of other modules,
the items registered for them or what is configured, and whatever a connection
was told about the users is what the store said at the time.
-/

namespace SocksProxy

open Prog

/-- The events of SOCKS5 connections and of the resolver: all but those of other modules and the
last step of the shutdown. -/
def Event.isOwn : Event → Bool
  | .admin _ | .foreign _ | .destroy _ => false
  | _ => true

namespace World

/-- All connections keep to their own descriptors, and nothing but `good` was observed of them. -/
structure Within (around : Surroundings) (good : Obs → Prop) (w : World) : Prop where
  hold : around.Hold w.sh
  apart : ∀ k c, w.heap k = some (.live c) → c.Owned around.Own
  good : ∀ k cell, w.heap k = some cell → ∀ what ∈ cell.conn.hist, good what

section

variable {around : Surroundings} {good : Obs → Prop} {w w' : World}

theorem Within.share (within : Within around good w) {sh : Shared} (hold : around.Hold sh) :
    Within around good { w with sh } := ⟨hold, within.apart, within.good⟩

theorem Within.withEnv (within : Within around good w) (env : Answers) :
    Within around good (w.withEnv env) := within.share (within.hold.of_eq rfl rfl rfl rfl rfl rfl)

variable (consulted : ∀ what : Obs, what.Consults around.users → good what)

include consulted

theorem Within.onConn {α : Type} {handler : M α} {value : α} {k : ConnId}
    (within : Within around good w) (keeps : ∀ l, Keeps (Turns around.Own l) handler)
    (ran : w.onConn k handler = .ok (value, w')) : Within around good w' := by
  unfold World.onConn at ran
  split at ran
  · cases ran
  · next cell found =>
      split at ran
      · cases ran
      · next l handled =>
          cases ran
          have confined : Confined around cell.conn.hist ⟨k, cell, w.sh⟩ :=
            ⟨within.hold, fun c live => within.apart k c (live ▸ found), fun _ => .inl⟩
          have kept := (keeps _ _ (.refl confined.owns) _ _ handled).confined confined
          refine ⟨kept.hold, fun other c live => ?_, fun other cell' found' => ?_⟩
          · by_cases same : other = k
            · subst same
              exact kept.apart c (by simpa using live)
            · exact within.apart other c (by simpa [same] using live)
          · by_cases same : other = k
            · subst same
              have changed : l.cell = cell' := by simpa using found'
              intro what member
              rcases kept.consulted what (changed ▸ member) with earlier | consults
              · exact within.good other cell found what earlier
              · exact consulted what consults
            · exact within.good other cell' (by simpa [same] using found')

theorem Within.onConn_map {α : Type} {handler : M α} {k : ConnId} (within : Within around good w)
    (keeps : ∀ l, Keeps (Turns around.Own l) handler)
    (ran : (w.onConn k handler).map Prod.snd = .ok w') : Within around good w' := by
  cases handled : w.onConn k handler with
  | error fault =>
      rw [handled] at ran
      cases ran
  | ok result =>
      rw [handled] at ran
      cases ran
      exact within.onConn consulted keeps handled

theorem Within.blockNotifications {fds : List Fd} {envs : List Answers}
    (within : Within around good w) (ran : World.blockNotifications fds envs w = .ok w') :
    Within around good w' := by
  induction fds generalizing w envs with
  | nil =>
      cases ran
      exact within
  | cons fd fds ih =>
      unfold World.blockNotifications at ran
      split at ran
      · next k item =>
          split at ran
          · cases ran
          · next handled =>
              refine ih ((within.withEnv _).onConn consulted (fun _ => ?_) handled) ran
              exact keeps_socks5Block (within.hold.own item)
      · exact ih within ran

theorem Within.reapFrom {now : Int} {rounds : Nat} {start : Option ConnId} {envs : List Answers}
    (within : Within around good w) (ran : World.reapFrom now rounds start envs w = .ok w') :
    Within around good w' := by
  induction rounds generalizing w start envs with
  | zero =>
      cases start with
      | none =>
          cases ran
          exact within
      | some k => cases ran
  | succ rounds ih =>
      cases start with
      | none =>
          cases ran
          exact within
      | some k =>
          simp only [World.reapFrom] at ran
          split at ran
          · cases ran
          · next handled =>
              exact ih ((within.withEnv _).onConn consulted (fun _ => keeps_reapConn)
                handled) ran

theorem Within.freeUnreferenced {owners : List ConnId} (within : Within around good w)
    (ran : World.freeUnreferenced owners w = .ok w') : Within around good w' := by
  induction owners generalizing w with
  | nil =>
      cases ran
      exact within
  | cons k rest ih =>
      simp only [World.freeUnreferenced] at ran
      split at ran
      · cases ran
      · next handled =>
          exact ih (within.onConn consulted
            (fun _ => keeps_turns fun _ => keeps_socks5ConnFreeIfUnreferenced) handled) ran

omit consulted

theorem Within.passiveAccept {passive : Fd} {answers : List AcceptAnswer}
    (within : Within around good w) (listens : around.listener = some passive)
    (small : passive < FD_SETSIZE) (ran : World.passiveAccept passive answers w = .ok w') :
    Within around good w' := by
  induction answers generalizing w with
  | nil =>
      cases ran
      exact within
  | cons answer later ih =>
      unfold World.passiveAccept at ran
      split at ran
      · split at ran
        · cases armed : w.sh.sel.setInterest passive OP_NOOP with
          | none =>
              have registered := (within.hold.listens passive listens).2
              simp [Selector.setInterest, registered, Nat.not_le.mpr small] at armed
          | some sel =>
              rw [armed] at ran
              cases ran
              exact within.share (within.hold.pause listens armed)
        · cases ran
          exact within
      · next client _ =>
          split at ran
          · cases ran
            exact within
          · next closed =>
              have own : around.Own client := by
                rw [Bool.not_eq_true, Kernel.isOpen, Bool.or_eq_false_iff] at closed
                rw [Surroundings.Own, ← within.hold.foreign]
                exact closed.2
              dsimp only at ran
              split at ran
              · cases ran
              · next registered l accepted =>
                  have outcome := wlp_acceptClient own registered l accepted
                  have hold := within.hold.of_spares outcome.spares outcome.users outcome.config
                  refine ih ⟨hold, fun other c live => ?_, fun other cell found => ?_⟩ ran
                  · dsimp only at live
                    split at live
                    · by_cases same : other = w.nextId
                      · subst same
                        have new : l.cell = .live c := by simpa using live
                        cases outcome.unchanged.symm.trans new
                        intro fd named
                        exact own_given own fd (named.resolve_right (by rintro ⟨⟩))
                      · exact within.apart other c (by simpa [same] using live)
                    · exact within.apart other c live
                  · dsimp only at found
                    split at found
                    · by_cases same : other = w.nextId
                      · subst same
                        have new : l.cell = cell := by simpa using found
                        rw [← new, outcome.unchanged]
                        exact fun _ member => absurd member List.not_mem_nil
                      · exact within.good other cell (by simpa [same] using found)
                    · exact within.good other cell found

include consulted

theorem Within.dispatchRead {view : View} {fd : Fd} (within : Within around good w)
    (sound : w.sh.Sound view none) (ran : w.dispatchRead fd = .ok w') :
    Within around good w' := by
  unfold World.dispatchRead at ran
  split at ran
  · cases ran
    exact within
  · next item found =>
      rcases item with ⟨interest, owner⟩
      split at ran
      · cases owner with
        | conn k =>
            exact within.onConn_map consulted
              (fun _ => keeps_socks5Read (within.hold.own found)) ran
        | listener =>
            exact within.passiveAccept (within.hold.listener_eq sound found)
              (sound.table.range fd (by simp [found])) ran
        | other =>
            cases ran
            exact within
      · cases ran
        exact within

theorem Within.dispatchWrite {fd : Fd} (within : Within around good w)
    (ran : w.dispatchWrite fd = .ok w') : Within around good w' := by
  unfold World.dispatchWrite at ran
  split at ran
  · cases ran
    exact within
  · next item found =>
      rcases item with ⟨interest, owner⟩
      split at ran
      · cases owner with
        | conn k =>
            exact within.onConn_map consulted
              (fun _ => keeps_socks5Write (within.hold.own found)) ran
        | listener | other =>
            cases ran
            exact within
      · cases ran
        exact within

/-- No event of a SOCKS5 connection or of the resolver touches what belongs to other modules. -/
theorem Within.step {view : View} {event : Event} (within : Within around good w)
    (sound : w.sh.Sound view none) (unlocked : around.locked = false) (own : event.isOwn = true)
    (stepped : w.step event = .ok w') : Within around good w' := by
  cases steps_of_step stepped with
  | idle => exact within
  | read env running ran => exact (within.withEnv env).dispatchRead consulted (sound.env env) ran
  | write env running ran => exact (within.withEnv env).dispatchWrite consulted ran
  | @block _ _ envs running ran =>
      have holding : Within (around.lock true) good
          { w with sh := { w.sh with sel := { w.sh.sel with resolutionLocked := true } } } :=
        ⟨within.hold.lock true w.sh.sel.resolutionJobs, within.apart, within.good⟩
      cases handled : World.blockNotifications w.sh.sel.resolutionJobs envs
          { w with sh := { w.sh with sel := { w.sh.sel with resolutionLocked := true } } } with
      | error fault =>
          simp only [handleBlockNotifications, handled] at ran
          cases ran
      | ok middle =>
          simp only [handleBlockNotifications, handled] at ran
          cases ran
          have kept : Within (around.lock true) good middle :=
            holding.blockNotifications consulted handled
          have again : (around.lock true).lock false = around := by
            rw [← unlocked]
            rfl
          refine ⟨?_, kept.apart, kept.good⟩
          have released := kept.hold.lock false []
          rwa [again] at released
  | @reap _ _ now envs running ran =>
      unfold World.reapIdle at ran
      split at ran
      · cases ran
        exact within
      · have swept : Within around good { w with reapLastSweep := now } :=
          ⟨within.hold, within.apart, within.good⟩
        exact swept.reapFrom consulted ran
  | worker ran =>
      exact within.share (within.hold.of_steady (steady_workerStep _ 0 _ w.sh _ _ ran))
  | settle fd error =>
      refine within.share (within.hold.of_eq ?_ rfl rfl rfl rfl rfl)
      exact (w.sh.kern.settle_frame fd error).1
  | admin | foreign | destroy => cases own
  | stopBegin =>
      exact ⟨within.hold.of_eq rfl rfl rfl rfl rfl rfl, within.apart, within.good⟩
  | stopJoined pool joining freed =>
      have joined : Within around good { w with mode := .stopped, sh := { w.sh with pool } } :=
        ⟨within.hold.of_eq rfl rfl rfl rfl rfl rfl, within.apart, within.good⟩
      exact joined.freeUnreferenced consulted freed

end

end World

end SocksProxy
