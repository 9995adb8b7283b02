import SocksProxy.Accounting.Turns
import SocksProxy.Server.EventLoop

/-!
# What an event can do to the books

An event of the process is a sequence of turns of single connections, or a
sequence of admissions; anything else leaves the books alone. The invariants of
whole runs are proved from this, one turn or admission at a time.
-/

namespace SocksProxy

open Prog

section

variable {own : Fd → Prop} {l l' : Local}

theorem Turn.id (turn : Turn own l l') : l'.id = l.id := by
  cases turn with
  | act act => cases act <;> rfl
  | _ => rfl

theorem id_of_turns (turns : Relation.ReflTransGen (Turn own) l l') : l'.id = l.id := by
  induction turns with
  | refl => rfl
  | tail _ turn ih => exact turn.id.trans ih

theorem Turn.spares (turn : Turn own l l') : Shared.Spares l.id l.sh l'.sh := by
  cases turn with
  | act act => exact act.spares
  | _ => exact .refl _ _

theorem Turns.spares (turned : Turns own l l') : Shared.Spares l.id l.sh l'.sh := by
  rcases turned with ⟨-, turns⟩
  induction turns with
  | refl => exact .refl _ _
  | tail before turn ih => exact ih.trans (id_of_turns before ▸ turn.spares)

end

/-- The books are the same whatever descriptors are touched. -/
abbrev anyFd : Fd → Prop := fun _ => True

theorem owns_anyFd (l : Local) : Owns anyFd l := ⟨fun _ _ _ _ => trivial, fun _ _ => trivial⟩

namespace World

/-- The connections and the books are left alone, and the kernel at most hands out numbers. -/
structure Idle (w w' : World) : Prop where
  heap : w'.heap = w.heap
  nextId : w'.nextId = w.nextId
  mode : w'.mode = w.mode
  log : w'.sh.log = w.sh.log
  metrics : w'.sh.metrics = w.sh.metrics
  closings : w'.sh.closings = w.sh.closings
  kern : w.sh.kern.Renews w'.sh.kern

/-- The process once connection `k` has become what `l` says. -/
def put (w : World) (k : ConnId) (l : Local) : World :=
  { w with heap := Function.update w.heap k (some l.cell), sh := l.sh }

/-- A turn of a connection, or nothing that concerns the books. -/
inductive Serves : World → World → Prop where
  | turn {w : World} {k : ConnId} {cell : Cell} {l : Local} (found : w.heap k = some cell)
      (turn : Turn anyFd ⟨k, cell, w.sh⟩ l) : Serves w (w.put k l)
  | idle {w w' : World} (idle : Idle w w') (users : w'.sh.users = w.sh.users) : Serves w w'

/-- A connection is admitted below the limit, or nothing happens that concerns the books. -/
inductive Admits : World → World → Prop where
  | accept {w : World} {sh' : Shared} (client : Fd) (size : Nat) (now : Int)
      (below : w.sh.metrics.activeConnections.toNat < w.sh.config.maxConnections.toNat)
      (same : Shared.SameBooks { w.sh with metrics := metricsConnectionOpened w.sh.metrics } sh')
      (users : sh'.users = w.sh.users) :
      Admits w
        { w with
          heap := Function.update w.heap w.nextId (some (.live (newConn client size now)))
          nextId := w.nextId + 1
          sh := sh' }
  | idle {w w' : World} (idle : Idle w w') (users : w'.sh.users = w.sh.users) : Admits w w'

/-- What one event amounts to: connections are served or admitted, the administrator changes
something, or the shutdown goes on. -/
inductive Moves (event : Event) : World → World → Prop where
  | serve {w w' : World} (serves : Relation.ReflTransGen Serves w w') : Moves event w w'
  | accept {w w' : World} (admits : Relation.ReflTransGen Admits w w') : Moves event w w'
  | admin {w : World} (command : AdminCommand) (asked : event = .admin command) :
      Moves event w { w with sh := applyAdmin w.sh command }
  | shutdown {w m w' : World} (mode : Mode) (before : Relation.ReflTransGen Serves w m)
      (after : Relation.ReflTransGen Serves { m with mode } w') : Moves event w w'

section

variable {w w' : World} {k : ConnId}

theorem Idle.of_sameBooks {sh' : Shared} (same : w.sh.SameBooks sh') :
    Idle w { w with sh := sh' } :=
  ⟨rfl, rfl, rfl, same.log, same.metrics, same.closings, same.kern⟩

theorem idle_withEnv (w : World) (env : Answers) : Idle w (w.withEnv env) :=
  ⟨rfl, rfl, rfl, rfl, rfl, rfl, .refl _⟩

theorem Serves.mode (serves : Serves w w') : w'.mode = w.mode := by
  cases serves with
  | turn found turn => rfl
  | idle idle _ => exact idle.mode

theorem mode_of_serves (serves : Relation.ReflTransGen Serves w w') : w'.mode = w.mode := by
  induction serves with
  | refl => rfl
  | tail _ serves ih => exact serves.mode.trans ih

theorem Admits.mode (admits : Admits w w') : w'.mode = w.mode := by
  cases admits with
  | accept => rfl
  | idle idle _ => exact idle.mode

theorem mode_of_admits (admits : Relation.ReflTransGen Admits w w') : w'.mode = w.mode := by
  induction admits with
  | refl => rfl
  | tail _ admits ih => exact admits.mode.trans ih

theorem Moves.idle {event : Event} (idle : Idle w w') (users : w'.sh.users = w.sh.users) :
    Moves event w w' :=
  .serve (.single (.idle idle users))

theorem Moves.refl {event : Event} (w : World) : Moves event w w := .serve .refl

theorem serves_turns {cell : Cell} {l : Local} (found : w.heap k = some cell)
    (turned : Turns anyFd ⟨k, cell, w.sh⟩ l) : Relation.ReflTransGen Serves w (w.put k l) := by
  rcases turned with ⟨-, turns⟩
  induction turns with
  | refl =>
      rw [put, show some cell = w.heap k from found.symm, Function.update_eq_self]
  | @tail middle last before turn ih =>
      have mine : middle.id = k := id_of_turns before
      have again : Serves (w.put k middle) ((w.put k middle).put k last) := by
        have found : (w.put k middle).heap k = some middle.cell := by simp [put]
        refine .turn found ?_
        subst mine
        exact turn
      rw [put, put, Function.update_idem] at again
      exact ih.tail again

theorem serves_onConn {α : Type} {handler : M α} {value : α}
    (keeps : ∀ l, Keeps (Turns anyFd l) handler) (ran : w.onConn k handler = .ok (value, w')) :
    Relation.ReflTransGen Serves w w' := by
  unfold onConn at ran
  split at ran
  · cases ran
  · next cell found =>
      split at ran
      · cases ran
      · next l handled =>
          cases ran
          exact serves_turns found (keeps _ _ (.refl (owns_anyFd _)) value l handled)

theorem serves_onConn_map {α : Type} {handler : M α} (keeps : ∀ l, Keeps (Turns anyFd l) handler)
    (ran : (w.onConn k handler).map Prod.snd = .ok w') : Relation.ReflTransGen Serves w w' := by
  cases handled : w.onConn k handler with
  | error fault =>
      rw [handled] at ran
      cases ran
  | ok result =>
      rw [handled] at ran
      cases ran
      exact serves_onConn keeps handled

theorem serves_withEnv {env : Answers} (served : Relation.ReflTransGen Serves (w.withEnv env) w') :
    Relation.ReflTransGen Serves w w' :=
  .head (.idle (idle_withEnv w env) rfl) served

/-! ## The loops -/

theorem serves_blockNotifications {fds : List Fd} {envs : List Answers}
    (ran : World.blockNotifications fds envs w = .ok w') : Relation.ReflTransGen Serves w w' := by
  induction fds generalizing w envs with
  | nil =>
      cases ran
      exact .refl
  | cons fd fds ih =>
      unfold World.blockNotifications at ran
      split at ran
      · next k item =>
          split at ran
          · cases ran
          · next handled =>
              exact (serves_withEnv (serves_onConn (fun _ => keeps_socks5Block trivial)
                handled)).trans (ih ran)
      · exact ih ran

theorem serves_handleBlockNotifications {envs : List Answers}
    (ran : w.handleBlockNotifications envs = .ok w') : Relation.ReflTransGen Serves w w' := by
  simp only [handleBlockNotifications] at ran
  cases handled : World.blockNotifications w.sh.sel.resolutionJobs envs
      { w with sh := { w.sh with sel := { w.sh.sel with resolutionLocked := true } } } with
  | error fault =>
      rw [handled] at ran
      cases ran
  | ok middle =>
      rw [handled] at ran
      cases ran
      exact ((serves_blockNotifications handled).head
        (.idle ⟨rfl, rfl, rfl, rfl, rfl, rfl, .refl _⟩ rfl)).tail
        (.idle ⟨rfl, rfl, rfl, rfl, rfl, rfl, .refl _⟩ rfl)

theorem serves_reapFrom {now : Int} {rounds : Nat} {start : Option ConnId} {envs : List Answers}
    (ran : World.reapFrom now rounds start envs w = .ok w') :
    Relation.ReflTransGen Serves w w' := by
  induction rounds generalizing w start envs with
  | zero =>
      cases start with
      | none =>
          cases ran
          exact .refl
      | some k => cases ran
  | succ rounds ih =>
      cases start with
      | none =>
          cases ran
          exact .refl
      | some k =>
          simp only [World.reapFrom] at ran
          split at ran
          · cases ran
          · next handled =>
              exact (serves_withEnv (serves_onConn (fun _ => keeps_reapConn) handled)).trans
                (ih ran)

theorem serves_freeUnreferenced {owners : List ConnId}
    (ran : freeUnreferenced owners w = .ok w') : Relation.ReflTransGen Serves w w' := by
  induction owners generalizing w with
  | nil =>
      cases ran
      exact .refl
  | cons k rest ih =>
      simp only [freeUnreferenced] at ran
      split at ran
      · cases ran
      · next handled =>
          exact (serves_onConn (fun _ => keeps_turns fun _ => keeps_socks5ConnFreeIfUnreferenced)
            handled).trans (ih ran)

theorem serves_unregister {fd : Fd} (ran : w.unregister fd = .ok w') :
    Relation.ReflTransGen Serves w w' := by
  unfold unregister at ran
  split at ran
  · cases ran
    exact .refl
  · split at ran
    · exact serves_onConn_map (fun _ => keeps_turns fun _ => keeps_selectorUnregisterFd trivial) ran
    · cases ran
      exact .single (.idle ⟨rfl, rfl, rfl, rfl, rfl, rfl, .refl _⟩ rfl)

theorem serves_destroyFrom {fds : List Fd} {envs : List Answers}
    (ran : destroyFrom fds envs w = .ok w') : Relation.ReflTransGen Serves w w' := by
  induction fds generalizing w envs with
  | nil =>
      cases ran
      exact .refl
  | cons fd fds ih =>
      simp only [destroyFrom] at ran
      split at ran
      · cases ran
      · next handled => exact (serves_withEnv (serves_unregister handled)).trans (ih ran)

/-! ## Accepting -/

theorem wlp_closeFd {fd : Fd} {cell : Cell} {sh : Shared} {post : Unit → Local → Prop}
    (next : ∀ kern, sh.kern.Renews kern → kern.foreign = sh.kern.foreign →
      post () ⟨k, cell, { sh with kern }⟩) :
    wlp (closeFd fd) post ⟨k, cell, sh⟩ := by
  rw [closeFd, wlp_bind, wlp_get]
  split
  · exact (wlp_throw ..).mpr trivial
  · rw [wlp_modifyShared]
    exact next _ (sh.kern.renews_release fd) rfl

theorem wlp_selectorRegister {own : Fd → Prop} {fd : Fd} (mine : own fd) {interest : Interest}
    {cell : Cell} {sh : Shared} {post : Bool → Local → Prop}
    (next : ∀ registered sel, Shared.SparesOthers own sh { sh with sel } →
      post registered ⟨k, cell, { sh with sel }⟩) :
    wlp (selectorRegister fd interest) post ⟨k, cell, sh⟩ := by
  rw [selectorRegister, wlp_bind, wlp_get]
  split
  · exact (wlp_pure ..).mpr (next false sh.sel (.refl own sh))
  · next sel registered =>
      rcases Selector.items_register registered with ⟨⟨item, items⟩, locked⟩
      rw [wlp_bind, wlp_modifyShared, wlp_pure]
      exact next true _ (Shared.steady_update k mine items locked).toSparesOthers

/-- What is made of one accepted descriptor: a connection below the limit, if it is registered. -/
structure Accepted (own : Fd → Prop) (cell : Cell) (sh : Shared) (registered : Bool) (l : Local) :
    Prop where
  unchanged : l.cell = cell
  users : l.sh.users = sh.users
  config : l.sh.config = sh.config
  spares : Shared.SparesOthers own sh l.sh
  admitted : registered = true →
    sh.metrics.activeConnections.toNat < sh.config.maxConnections.toNat ∧
      Shared.SameBooks { sh with metrics := metricsConnectionOpened sh.metrics } l.sh
  refused : registered = false → sh.SameBooks l.sh

theorem wlp_acceptClient {own : Fd → Prop} {client : Fd} (mine : own client)
    {answer : AcceptAnswer} {cell : Cell} {sh : Shared} :
    wlp (acceptClient client answer) (Accepted own cell sh) ⟨k, cell, sh⟩ := by
  have handed := sh.kern.renews_handOut client ⟨.connected, .other⟩
  -- Every refusal closes the descriptor again.
  have refuse : ∀ sel, Shared.SparesOthers own sh { sh with sel } → wlp (do
      closeFd client
      pure false : M Bool) (Accepted own cell sh)
      ⟨k, cell, { sh with kern := sh.kern.handOut client ⟨.connected, .other⟩, sel }⟩ := by
    intro sel spares
    rw [wlp_bind]
    refine wlp_closeFd fun kern renews foreign => (wlp_pure ..).mpr ⟨rfl, rfl, rfl, ?_, ?_, ?_⟩
    · exact ⟨foreign, spares.items, spares.locked, rfl⟩
    · exact Bool.noConfusion
    · exact fun _ => ⟨rfl, rfl, rfl, rfl, handed.trans renews⟩
  rw [acceptClient, wlp_bind, wlp_modifyShared, wlp_bind, wlp_get, wlp_ite]
  split
  · exact refuse sh.sel (.refl own sh)
  · next below =>
      rw [wlp_ite]
      split
      · exact refuse sh.sel (.refl own sh)
      · rw [wlp_bind]
        refine wlp_selectorRegister mine fun registered sel spares => ?_
        rw [wlp_ite]
        split
        · simp only [wlp_bind, wlp_get, connListPush]
          refine wlp_requireAlive ?_
          rw [wlp_modifyShared, wlp_bind, wlp_modifyShared, wlp_pure]
          refine ⟨rfl, rfl, rfl, ⟨rfl, spares.items, spares.locked, rfl⟩, fun _ => ?_, ?_⟩
          · exact ⟨Nat.not_le.mp below, rfl, rfl, rfl, rfl, handed⟩
          · exact Bool.noConfusion
        · exact refuse sel ⟨rfl, spares.items, spares.locked, rfl⟩

theorem admits_passiveAccept {passive : Fd} {answers : List AcceptAnswer}
    (ran : passiveAccept passive answers w = .ok w') : Relation.ReflTransGen Admits w w' := by
  induction answers generalizing w with
  | nil =>
      cases ran
      exact .refl
  | cons answer later ih =>
      unfold passiveAccept at ran
      split at ran
      · split at ran
        · split at ran <;> cases ran <;> exact .single
            (.idle ⟨rfl, rfl, rfl, rfl, rfl, rfl, .refl _⟩ rfl)
        · cases ran
          exact .refl
      · next client _ =>
          split at ran
          · cases ran
            exact .refl
          · dsimp only at ran
            split at ran
            · cases ran
            · next registered l accepted =>
                have outcome := wlp_acceptClient (show anyFd client from trivial) registered l
                  accepted
                refine .head ?_ (ih ran)
                cases registered with
                | true =>
                    rcases outcome.admitted rfl with ⟨below, books⟩
                    rw [outcome.unchanged]
                    exact .accept client _ _ below books outcome.users
                | false => exact .idle (Idle.of_sameBooks (outcome.refused rfl)) outcome.users

/-! ## Events -/

theorem sameBooks_applyAdmin (sh : Shared) (command : AdminCommand) :
    sh.SameBooks (applyAdmin sh command) := by
  cases command <;> exact ⟨rfl, rfl, rfl, rfl, .refl _⟩

theorem idle_applyAdmin (w : World) (command : AdminCommand) :
    Idle w { w with sh := applyAdmin w.sh command } :=
  Idle.of_sameBooks (sameBooks_applyAdmin w.sh command)

theorem sameBooks_retryAccept (sh : Shared) : sh.SameBooks (retryAccept sh) := by
  unfold retryAccept
  split
  · exact .refl sh
  · split
    · exact .refl sh
    · exact ⟨rfl, rfl, rfl, rfl, .refl _⟩

theorem sameBooks_applyForeign (sh : Shared) (action : ForeignAction) :
    sh.SameBooks (applyForeign sh action) := by
  cases action with
  | opened fd interest listener =>
      simp only [applyForeign]
      split
      · exact .refl sh
      · split <;> exact ⟨rfl, rfl, rfl, rfl, fun _ => ⟨Nat.le_refl _, fun _ pending => pending⟩⟩
  | armed fd interest =>
      simp only [applyForeign]
      split
      · split
        · exact .refl sh
        · exact ⟨rfl, rfl, rfl, rfl, .refl _⟩
      · exact .refl sh
  | closed fd =>
      simp only [applyForeign]
      split
      · refine Shared.SameBooks.trans ?_ (sameBooks_retryAccept _)
        exact ⟨rfl, rfl, rfl, rfl, fun _ => ⟨Nat.le_refl _, fun _ pending => pending⟩⟩
      · exact .refl sh

theorem users_applyForeign (sh : Shared) (action : ForeignAction) :
    (applyForeign sh action).users = sh.users := by
  cases action with
  | opened fd interest listener =>
      simp only [applyForeign]
      split
      · rfl
      · split <;> rfl
  | armed fd interest =>
      simp only [applyForeign]
      split
      · split <;> rfl
      · rfl
  | closed fd =>
      simp only [applyForeign, retryAccept]
      split
      · split
        · rfl
        · split <;> rfl
      · rfl

theorem moves_dispatchRead {fd : Fd} (ran : w.dispatchRead fd = .ok w') :
    Relation.ReflTransGen Serves w w' ∨ Relation.ReflTransGen Admits w w' := by
  unfold dispatchRead at ran
  split at ran
  · cases ran
    exact .inl .refl
  · split at ran
    · split at ran
      · exact .inl (serves_onConn_map (fun _ => keeps_socks5Read trivial) ran)
      · exact .inr (admits_passiveAccept ran)
      · cases ran
        exact .inl .refl
    · cases ran
      exact .inl .refl

theorem serves_dispatchWrite {fd : Fd} (ran : w.dispatchWrite fd = .ok w') :
    Relation.ReflTransGen Serves w w' := by
  unfold dispatchWrite at ran
  split at ran
  · cases ran
    exact .refl
  · split at ran
    · split at ran
      · exact serves_onConn_map (fun _ => keeps_socks5Write trivial) ran
      · cases ran
        exact .refl
    · cases ran
      exact .refl

theorem serves_reapIdle {now : Int} {envs : List Answers} (ran : w.reapIdle now envs = .ok w') :
    Relation.ReflTransGen Serves w w' := by
  unfold reapIdle at ran
  split at ran
  · cases ran
    exact .refl
  · have swept : Serves w { w with reapLastSweep := now } :=
      .idle ⟨rfl, rfl, rfl, rfl, rfl, rfl, .refl _⟩ rfl
    exact .head swept (serves_reapFrom ran)

theorem step_moves {event : Event} (stepped : w.step event = .ok w') : Moves event w w' := by
  cases steps_of_step stepped with
  | idle => exact .refl w
  | read env running ran =>
      rcases moves_dispatchRead ran with serves | admits
      · exact .serve (serves_withEnv serves)
      · exact .accept (.head (.idle (idle_withEnv w env) rfl) admits)
  | write env running ran => exact .serve (serves_withEnv (serves_dispatchWrite ran))
  | block running ran => exact .serve (serves_handleBlockNotifications ran)
  | reap running ran => exact .serve (serves_reapIdle ran)
  | worker ran =>
      have steady := steady_workerStep anyFd 0 _ w.sh _ _ ran
      exact .idle (Idle.of_sameBooks steady.toSameBooks) steady.users
  | settle fd error =>
      exact .idle ⟨rfl, rfl, rfl, rfl, rfl, rfl, w.sh.kern.renews_settle fd error⟩ rfl
  | admin command running => exact .admin command rfl
  | foreign action running =>
      exact .idle (Idle.of_sameBooks (sameBooks_applyForeign w.sh action))
        (users_applyForeign w.sh action)
  | stopBegin stopping pool running ran =>
      exact .shutdown (m := { w with sh := { w.sh with pool } }) _
        (.single (.idle ⟨rfl, rfl, rfl, rfl, rfl, rfl, .refl _⟩ rfl)) .refl
  | stopJoined pool joining freed =>
      exact .shutdown (m := { w with sh := { w.sh with pool } }) .stopped
        (.single (.idle ⟨rfl, rfl, rfl, rfl, rfl, rfl, .refl _⟩ rfl))
        (serves_freeUnreferenced freed)
  | destroy stopped ran => exact .shutdown .destroyed (serves_destroyFrom ran) .refl

/-- What every event keeps that is allowed where it occurs, a run of such events keeps. -/
theorem run_keeps_while {P : World → Prop} {allowed : World → Event → Prop} {events : List Event}
    (moves : ∀ event w w', allowed w event → P w → Moves event w w' → P w') (start : P w)
    (always : ∀ before event after m, events = before ++ event :: after →
      w.run before = .ok m → allowed m event)
    (ran : w.run events = .ok w') : P w' := by
  induction events generalizing w with
  | nil =>
      cases ran
      exact start
  | cons event rest ih =>
      rcases run_cons ran with ⟨middle, stepped, ran⟩
      have now : allowed w event := always [] event rest w rfl rfl
      refine ih (moves event w middle now start (step_moves stepped)) ?_ ran
      intro before next after m split earlier
      refine always (event :: before) next after m (by rw [split, List.cons_append]) ?_
      unfold World.run
      rw [stepped]
      exact earlier

/-- What every event keeps, a run keeps. -/
theorem run_keeps {P : World → Prop} {events : List Event}
    (moves : ∀ event w w', P w → Moves event w w' → P w') (start : P w)
    (ran : w.run events = .ok w') : P w' := by
  have always : ∀ before event after m, events = before ++ event :: after →
      w.run before = .ok m → True := fun _ _ _ _ _ _ => trivial
  exact run_keeps_while (fun event w w' _ => moves event w w') start always ran

end

end World

end SocksProxy
