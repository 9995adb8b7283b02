import SocksProxy.Server.Socks5

/-!
# The event loop

The process as a whole: all connections on the heap, the selector that
dispatches to them, `socks5_passive_accept`, the reaper and the shutdown
sequence of `main()`. A run is a list of events; an event that is not possible
in a state leaves it as it is, so every list is a run.

Events of other modules are kept as far as SOCKS5 connections can notice them:
SMCP commands change the user store and the configuration, and management
connections occupy descriptors.
-/

namespace SocksProxy

/-- How far the shutdown sequence of `main()` has come. While the resolver threads are joined the
main thread does nothing else. -/
inductive Mode where
  | running
  | joining
  | stopped
  | destroyed
  deriving DecidableEq, Repr

structure World where
  heap : ConnId → Option Cell
  nextId : ConnId
  sh : Shared
  reapLastSweep : Int
  mode : Mode

/-- The SMCP commands that change what SOCKS5 connections read. -/
inductive AdminCommand where
  | addUser (name pass : CString)
  | delUser (name : CString)
  | setConnTimeout (v : UInt32)
  | setIoBufferSize (v : UInt32)
  | setMaxConnections (v : UInt32)

/-- What other modules do with descriptors of their own. -/
inductive ForeignAction where
  | opened (fd : Fd) (interest : Interest) (listener : Bool)
  | armed (fd : Fd) (interest : Interest)
  | closed (fd : Fd)

inductive Event where
  | read (fd : Fd) (env : Answers)
  | write (fd : Fd) (env : Answers)
  | block (envs : List Answers)
  | reap (now : Int) (envs : List Answers)
  | worker (step : WorkerStep)
  | settle (fd : Fd) (error : Option Errno)
  | admin (command : AdminCommand)
  | foreign (action : ForeignAction)
  | stopBegin
  | stopJoined
  | destroy (envs : List Answers)

namespace World

/-- Run a handler on connection `k`. -/
def onConn {α : Type} (w : World) (k : ConnId) (handler : M α) : Except Fault (α × World) :=
  match w.heap k with
  | none => .error .useAfterFree
  | some cell =>
      match handler ⟨k, cell, w.sh⟩ with
      | .error fault => .error fault
      | .ok (value, l) =>
          .ok (value, { w with heap := Function.update w.heap k (some l.cell), sh := l.sh })

/-- Give the kernel's answers to the handlers of an event. -/
def withEnv (w : World) (env : Answers) : World := { w with sh := { w.sh with env } }

/-- The answers for the next connection a loop comes to. -/
def headEnv (w : World) (envs : List Answers) : Answers :=
  envs.headD (Answers.idle w.sh.env.now w.sh.env.calendar)

/-- A connection as `socks5_passive_accept` initialises it. -/
def newConn (client : Fd) (bufsize : Nat) (now : Int) : Conn where
  current := none
  neg := ⟨.version, 0, false, false⟩
  auth := Socks5Auth.zero
  request := Socks5Request.zero
  method := 0
  authStatus := 0
  clientFd := some client
  originFd := none
  lastActivity := now
  nextAddr := []
  lastErrno := none
  connected := false
  clientClosed := false
  originClosed := false
  clientWrShut := false
  originWrShut := false
  clientInterest := OP_NOOP
  originInterest := OP_NOOP
  activeCounted := true
  arrivalError := false
  readBuffer := Buffer.init bufsize
  writeBuffer := Buffer.init bufsize
  hist := []

/-- One accepted descriptor: `true` when a connection was set up for it. The part of the connection
shared with the pool is allocated once nothing can fail any more. -/
def acceptClient (client : Fd) (answer : AcceptAnswer) : M Bool := do
  modifyShared fun sh => { sh with kern := sh.kern.handOut client ⟨.connected, .other⟩ }
  let sh := (← get).sh
  if sh.config.maxConnections.toNat ≤ sh.metrics.activeConnections.toNat then do
    closeFd client
    pure false
  else if !answer.nio || !answer.calloc || !answer.mallocs then do
    closeFd client
    pure false
  else if ← selectorRegister client OP_READ then do
    let l ← get
    connListPush
    modifyShared fun sh =>
      { sh with
        metrics := metricsConnectionOpened sh.metrics
        pool :=
          { sh.pool with
            slots := Function.update sh.pool.slots l.id (some ⟨1, none, false, 0, []⟩) } }
    pure true
  else do
    closeFd client
    pure false

/-- The loop of `socks5_passive_accept` on the listener `passive`. -/
def passiveAccept (passive : Fd) : List AcceptAnswer → World → Except Fault World
  | [], w => .ok w
  | answer :: later, w =>
      match answer.client with
      | .error errno =>
          if errno = .emfile ∨ errno = .enfile then
            match w.sh.sel.setInterest passive OP_NOOP with
            | none => .ok { w with sh := { w.sh with acceptPausedFd := some passive } }
            | some sel => .ok { w with sh := { w.sh with sel, acceptPausedFd := some passive } }
          else .ok w
      | .ok client =>
          if w.sh.kern.isOpen client then .ok w
          else
            let conn := newConn client w.sh.config.ioBufferSize.toNat w.sh.env.now
            match acceptClient client answer ⟨w.nextId, .live conn, w.sh⟩ with
            | .error fault => .error fault
            | .ok (registered, l) =>
                let heap :=
                  if registered then Function.update w.heap w.nextId (some l.cell) else w.heap
                let nextId := if registered then w.nextId + 1 else w.nextId
                passiveAccept passive later { w with heap, nextId, sh := l.sh }

/-- The read handler of a ready descriptor. -/
def dispatchRead (w : World) (fd : Fd) : Except Fault World :=
  match w.sh.sel.items fd with
  | none => .ok w
  | some item =>
      if item.interest.read then
        match item.owner with
        | .conn k => (w.onConn k (socks5Read fd)).map Prod.snd
        | .listener => passiveAccept fd w.sh.env.accepts w
        | .other => .ok w
      else .ok w

/-- The write handler of a ready descriptor. -/
def dispatchWrite (w : World) (fd : Fd) : Except Fault World :=
  match w.sh.sel.items fd with
  | none => .ok w
  | some item =>
      if item.interest.write then
        match item.owner with
        | .conn k => (w.onConn k (socks5Write fd)).map Prod.snd
        | _ => .ok w
      else .ok w

/-- The loop of `handle_block_notifications`. -/
def blockNotifications : List Fd → List Answers → World → Except Fault World
  | [], _, w => .ok w
  | fd :: fds, envs, w =>
      match w.sh.sel.items fd with
      | some ⟨_, .conn k⟩ =>
          match (w.withEnv (w.headEnv envs)).onConn k (socks5Block fd) with
          | .error fault => .error fault
          | .ok (_, w') => blockNotifications fds envs.tail w'
      | _ => blockNotifications fds envs w

/-- `handle_block_notifications`, which holds the mutex of the list throughout. -/
def handleBlockNotifications (w : World) (envs : List Answers) : Except Fault World := do
  let holding := { w with sh := { w.sh with sel := { w.sh.sel with resolutionLocked := true } } }
  let w ← blockNotifications w.sh.sel.resolutionJobs envs holding
  .ok
    { w with
      sh := { w.sh with sel := { w.sh.sel with resolutionJobs := [], resolutionLocked := false } } }

/-- The loop of `socks5_reap_idle`. -/
def reapFrom (now : Int) : Nat → Option ConnId → List Answers → World → Except Fault World
  | _, none, _, w => .ok w
  | 0, some _, _, _ => .error .unbounded
  | rounds + 1, some k, envs, w =>
      let nxt := w.sh.list.next k
      match (w.withEnv { w.headEnv envs with now }).onConn k reapConn with
      | .error fault => .error fault
      | .ok (_, w') => reapFrom now rounds nxt envs.tail w'

/-- `socks5_reap_idle`. -/
def reapIdle (w : World) (now : Int) (envs : List Answers) : Except Fault World :=
  if now = w.reapLastSweep then .ok w
  else reapFrom now w.nextId w.sh.list.head envs { w with reapLastSweep := now }

/-- `socks5_retry_accept`, called by other modules that freed a descriptor. -/
def retryAccept (sh : Shared) : Shared :=
  match sh.acceptPausedFd with
  | none => sh
  | some fd =>
      match sh.sel.setInterest fd OP_READ with
      | none => sh
      | some sel => { sh with sel, acceptPausedFd := none }

def applyAdmin (sh : Shared) : AdminCommand → Shared
  | .addUser name pass => { sh with users := (usersAdd sh.users name pass).getD sh.users }
  | .delUser name => { sh with users := (usersDel sh.users name).getD sh.users }
  | .setConnTimeout v => { sh with config := (configSetConnTimeout sh.config v).getD sh.config }
  | .setIoBufferSize v => { sh with config := (configSetIoBufferSize sh.config v).getD sh.config }
  | .setMaxConnections v =>
      { sh with config := (configSetMaxConnections sh.config v).getD sh.config }

/-- Whether an item exists that does not belong to a SOCKS5 connection. -/
def ownedElsewhere (sel : Selector) (fd : Fd) : Bool :=
  match sel.items fd with
  | some ⟨_, .conn _⟩ => false
  | some _ => true
  | none => false

def applyForeign (sh : Shared) : ForeignAction → Shared
  | .opened fd interest listener =>
      if sh.kern.isOpen fd then sh
      else
        let kern := { sh.kern with foreign := Function.update sh.kern.foreign fd true }
        match sh.sel.register fd interest (if listener then .listener else .other) with
        | none => { sh with kern }
        | some sel => { sh with kern, sel }
  | .armed fd interest =>
      if ownedElsewhere sh.sel fd then
        match sh.sel.setInterest fd interest with
        | none => sh
        | some sel => { sh with sel }
      else sh
  | .closed fd =>
      if sh.kern.foreign fd then
        let sel := if ownedElsewhere sh.sel fd then sh.sel.clear fd else sh.sel
        let kern := { sh.kern with foreign := Function.update sh.kern.foreign fd false }
        let paused := if sh.acceptPausedFd = some fd then none else sh.acceptPausedFd
        retryAccept { sh with sel, kern, acceptPausedFd := paused }
      else sh

/-- The calls of `socks5_conn_free_if_unreferenced` made by `resolver_release_job_list`. -/
def freeUnreferenced : List ConnId → World → Except Fault World
  | [], w => .ok w
  | k :: rest, w =>
      match w.onConn k socks5ConnFreeIfUnreferenced with
      | .error fault => .error fault
      | .ok (_, w') => freeUnreferenced rest w'

/-- `selector_unregister_fd` for whatever is registered at `fd`. -/
def unregister (w : World) (fd : Fd) : Except Fault World :=
  match w.sh.sel.items fd with
  | none => .ok w
  | some item =>
      match item.owner with
      | .conn k => (w.onConn k (selectorUnregisterFd fd)).map Prod.snd
      | _ => .ok { w with sh := { w.sh with sel := w.sh.sel.clear fd } }

/-- The loop of `selector_destroy`. -/
def destroyFrom : List Fd → List Answers → World → Except Fault World
  | [], _, w => .ok w
  | fd :: fds, envs, w =>
      match (w.withEnv (w.headEnv envs)).unregister fd with
      | .error fault => .error fault
      | .ok w' => destroyFrom fds envs.tail w'

def allExited (p : Pool) : Bool := decide (∀ i, p.workers i = .exited)

/-- One event. -/
def step (w : World) : Event → Except Fault World
  | .read fd env => if w.mode = .running then (w.withEnv env).dispatchRead fd else .ok w
  | .write fd env => if w.mode = .running then (w.withEnv env).dispatchWrite fd else .ok w
  | .block envs => if w.mode = .running then w.handleBlockNotifications envs else .ok w
  | .reap now envs => if w.mode = .running then w.reapIdle now envs else .ok w
  | .worker step =>
      match workerStep step w.sh with
      | .error fault => .error fault
      | .ok (_, sh) => .ok { w with sh }
  | .settle fd error => .ok { w with sh := { w.sh with kern := w.sh.kern.settle fd error } }
  | .admin command =>
      .ok (if w.mode = .running then { w with sh := applyAdmin w.sh command } else w)
  | .foreign action =>
      .ok (if w.mode = .running then { w with sh := applyForeign w.sh action } else w)
  | .stopBegin =>
      if w.mode = .running then
        match socks5ResolverPoolStopBegin w.sh.pool with
        | .error fault => .error fault
        | .ok (stopping, pool) =>
            .ok { w with mode := if stopping then .joining else .stopped, sh := { w.sh with pool } }
      else .ok w
  | .stopJoined =>
      if w.mode = .joining ∧ allExited w.sh.pool then
        match socks5ResolverPoolStopJoined w.sh.pool with
        | .error fault => .error fault
        | .ok (owners, pool) =>
            freeUnreferenced owners { w with mode := .stopped, sh := { w.sh with pool } }
      else .ok w
  | .destroy envs =>
      if w.mode = .stopped then do
        let w ← destroyFrom (List.range (FD_SETSIZE + 1)) envs w
        .ok { w with mode := .destroyed }
      else .ok w

/-- What an event does when nothing faults. An event that is not possible does nothing. -/
inductive Steps : Event → World → World → Prop
  | idle (event : Event) (w : World) : Steps event w w
  | read {w w' : World} {fd : Fd} (env : Answers) (running : w.mode = .running)
      (ran : (w.withEnv env).dispatchRead fd = .ok w') : Steps (.read fd env) w w'
  | write {w w' : World} {fd : Fd} (env : Answers) (running : w.mode = .running)
      (ran : (w.withEnv env).dispatchWrite fd = .ok w') : Steps (.write fd env) w w'
  | block {w w' : World} {envs : List Answers} (running : w.mode = .running)
      (ran : w.handleBlockNotifications envs = .ok w') : Steps (.block envs) w w'
  | reap {w w' : World} {now : Int} {envs : List Answers} (running : w.mode = .running)
      (ran : w.reapIdle now envs = .ok w') : Steps (.reap now envs) w w'
  | worker {w : World} {step : WorkerStep} {sh : Shared}
      (ran : workerStep step w.sh = .ok ((), sh)) : Steps (.worker step) w { w with sh }
  | settle {w : World} (fd : Fd) (error : Option Errno) :
      Steps (.settle fd error) w { w with sh := { w.sh with kern := w.sh.kern.settle fd error } }
  | admin {w : World} (command : AdminCommand) (running : w.mode = .running) :
      Steps (.admin command) w { w with sh := applyAdmin w.sh command }
  | foreign {w : World} (action : ForeignAction) (running : w.mode = .running) :
      Steps (.foreign action) w { w with sh := applyForeign w.sh action }
  | stopBegin {w : World} (stopping : Bool) (pool : Pool) (running : w.mode = .running)
      (ran : socks5ResolverPoolStopBegin w.sh.pool = .ok (stopping, pool)) :
      Steps .stopBegin w
        { w with mode := if stopping then .joining else .stopped, sh := { w.sh with pool } }
  | stopJoined {w w' : World} {owners : List ConnId} (pool : Pool) (joining : w.mode = .joining)
      (freed : freeUnreferenced owners { w with mode := .stopped, sh := { w.sh with pool } } =
        .ok w') : Steps .stopJoined w w'
  | destroy {w m : World} {envs : List Answers} (stopped : w.mode = .stopped)
      (ran : destroyFrom (List.range (FD_SETSIZE + 1)) envs w = .ok m) :
      Steps (.destroy envs) w { m with mode := .destroyed }

theorem steps_of_step {w w' : World} {event : Event} (stepped : w.step event = .ok w') :
    Steps event w w' := by
  have guarded : ∀ {P : Prop} [Decidable P] {done : Except Fault World},
      (P → done = .ok w' → Steps event w w') → (if P then done else .ok w) = .ok w' →
        Steps event w w' := by
    intro P _ done possible stepped
    split at stepped
    · next holds => exact possible holds stepped
    · cases stepped
      exact .idle event w
  cases event with
  | read fd env => exact guarded (.read env) stepped
  | write fd env => exact guarded (.write env) stepped
  | block envs => exact guarded .block stepped
  | reap now envs => exact guarded .reap stepped
  | worker step =>
      simp only [World.step] at stepped
      split at stepped
      · cases stepped
      · next ran =>
          cases stepped
          exact .worker ran
  | settle fd error =>
      cases stepped
      exact .settle fd error
  | admin command =>
      cases stepped
      split
      · next running => exact .admin command running
      · exact .idle _ w
  | foreign action =>
      cases stepped
      split
      · next running => exact .foreign action running
      · exact .idle _ w
  | stopBegin =>
      refine guarded (fun running begun => ?_) stepped
      split at begun
      · cases begun
      · next ran =>
          cases begun
          exact .stopBegin _ _ running ran
  | stopJoined =>
      refine guarded (fun joined freed => ?_) stepped
      split at freed
      · cases freed
      · exact .stopJoined _ joined.1 freed
  | destroy envs =>
      refine guarded (fun stopped destroyed => ?_) stepped
      cases ran : destroyFrom (List.range (FD_SETSIZE + 1)) envs w with
      | error fault =>
          rw [ran] at destroyed
          cases destroyed
      | ok m =>
          rw [ran] at destroyed
          cases destroyed
          exact .destroy stopped ran

def run (w : World) : List Event → Except Fault World
  | [] => .ok w
  | event :: rest =>
      match w.step event with
      | .error fault => .error fault
      | .ok w' => run w' rest

theorem run_cons {w w' : World} {event : Event} {rest : List Event}
    (ran : w.run (event :: rest) = .ok w') : ∃ m, w.step event = .ok m ∧ m.run rest = .ok w' := by
  unfold run at ran
  split at ran
  · cases ran
  · next m stepped => exact ⟨m, stepped, ran⟩

/-- The process once `main()` has set up its state, before it opens its sockets. -/
def initial (users : Users) (log : AccessLog) (now : Int) (calendar : CalendarTime) : World where
  heap := fun _ => none
  nextId := 0
  sh :=
    { sel := Selector.empty
      pool := Pool.ready
      list := ⟨none, fun _ => none, fun _ => none⟩
      kern := Kernel.initial
      users
      config := configInit (UInt32.ofNat FD_SETSIZE)
      metrics := metricsInit
      log
      acceptPausedFd := none
      closings := []
      env := Answers.idle now calendar }
  reapLastSweep := 0
  mode := .running

/-- The states of a run from some initial state. -/
def Reachable (w : World) : Prop :=
  ∃ users log now calendar events, (initial users log now calendar).run events = .ok w

end World

end SocksProxy
