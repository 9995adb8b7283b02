import SocksProxy.Server.EventLoop
import SocksProxy.Server.MgmtConn
import SocksProxy.Server.Startup

/-!
# The whole process

`main()`, with `server_setup_passive` and the part of `mgmt.c` that accepts and
closes management connections. Proxy and management service run in one thread,
on one selector and over the same users, settings, metrics and log; here they
are put together. The SOCKS5 side is the `World` of the event loop, in which
descriptors of other modules are occupied numbers with an item; the handlers
behind these items are added here.

A run is a list of events again. The loop of `main()` and `server_cleanup()`
decide which of them are possible: `check` is the block under `if (terminate)`,
and once the loop was left the steps of the cleanup follow in their order.
-/

namespace SocksProxy

/-! ## State -/

/-- A `struct mgmt_conn` on the heap, and which of all that were allocated it is. -/
structure MgmtSlot where
  id : Nat
  conn : MgmtConn

/-- Where `main()` is: in its loop, in `server_cleanup()`, or returned. -/
inductive Phase where
  | serving
  | leaving (ret : Nat)
  | returned (ret : Nat)
  deriving DecidableEq, Repr

/-- Whether `main()` has returned. -/
def Phase.isOver : Phase → Bool
  | .returned _ => true
  | _ => false

/-- The process. `mgmt` are the `data` pointers of the items with `mgmt_handler`; the item of the
management listener is the only other one that is no connection's and not the SOCKS5 listener's.
`logOpens` is what `fopen` answers for the access log, and `heard` records what was received on each
management connection. -/
structure Process where
  world : World
  logOpens : Bool
  admin : AdminCreds
  mgmt : Fd → Option MgmtSlot
  nextMgmt : Nat
  heard : Nat → List UInt8
  activeMgmtConnections : Nat
  passive : Option Fd
  mngPassive : Option Fd
  accepting : Bool
  terminate : Nat
  phase : Phase

namespace Process

/-- The resources `mgmt_deps` points to. -/
def deps (p : Process) : MgmtDeps where
  users := p.world.sh.users
  metrics := p.world.sh.metrics
  config := p.world.sh.config
  accessLog := p.world.sh.log
  logOpens := p.logOpens
  admin := p.admin

def share (p : Process) (change : Shared → Shared) : Process :=
  { p with world := { p.world with sh := change p.world.sh } }

/-- What a management session has left in the resources. -/
def setDeps (p : Process) (deps : MgmtDeps) : Process :=
  { p.share fun sh =>
      { sh with
        users := deps.users, metrics := deps.metrics, config := deps.config, log := deps.accessLog }
    with logOpens := deps.logOpens, admin := deps.admin }

/-- A descriptor outside of SOCKS5 connections is opened. -/
def openFd (p : Process) (fd : Fd) : Process :=
  p.share fun sh =>
    { sh with kern := { sh.kern with foreign := Function.update sh.kern.foreign fd true } }

/-- `close(fd)` outside of SOCKS5 connections. -/
def closeFd (p : Process) (fd : Fd) : Except Fault Process :=
  if p.world.sh.kern.foreign fd then
    .ok (p.share fun sh =>
      { sh with kern := { sh.kern with foreign := Function.update sh.kern.foreign fd false } })
  else .error .badClose

/-- What `selector_unregister_fd` does for an item without `handle_close`. -/
def clearItem (p : Process) (fd : Fd) : Process :=
  p.share fun sh => { sh with sel := sh.sel.clear fd }

/-- `selector_set_interest_key`; its result is not looked at. -/
def selectorSetInterestKey (p : Process) (fd : Fd) (interest : Interest) : Process :=
  p.share fun sh => { sh with sel := (sh.sel.setInterest fd interest).getD sh.sel }

/-! ## Management connections -/

/-- `mgmt_passive_accept`. A number that is in use is never handed out. -/
def mgmtPassiveAccept (p : Process) (answer : AcceptAnswer) : Except Fault Process :=
  match answer.client with
  | .error _ => .ok p
  | .ok client =>
      if p.world.sh.kern.isOpen client then .ok p
      else
        let opened := p.openFd client
        if !answer.nio then opened.closeFd client
        else if !answer.calloc then opened.closeFd client
        else
          match opened.world.sh.sel.register client OP_READ .other with
          | none => opened.closeFd client
          | some sel =>
              .ok
                { opened.share fun sh => { sh with sel } with
                  mgmt := Function.update p.mgmt client (some ⟨p.nextMgmt, newMgmtConn⟩)
                  nextMgmt := p.nextMgmt + 1
                  activeMgmtConnections := p.activeMgmtConnections + 1 }

/-- `mgmt_close`. -/
def mgmtClose (p : Process) (fd : Fd) : Except Fault Process :=
  match p.closeFd fd with
  | .error fault => .error fault
  | .ok closed =>
      .ok
        { closed.share World.retryAccept with
          mgmt := Function.update p.mgmt fd none
          activeMgmtConnections := p.activeMgmtConnections - 1 }

/-- `selector_unregister_fd` on a management connection. -/
def unregisterMgmt (p : Process) (fd : Fd) : Except Fault Process :=
  match p.mgmtClose fd with
  | .error fault => .error fault
  | .ok closed => .ok (closed.clearItem fd)

/-- Run a handler of a management connection. Its last call decides what becomes of the item: after
`selector_unregister_fd` it returns without another look at the connection. -/
def onMgmt (p : Process) (fd : Fd) (slot : MgmtSlot) (handler : MgmtM Unit)
    (sends : List SendAnswer) : Except Fault Process :=
  match handler ⟨slot.conn, p.deps, (p.world.sh.sel.items fd).map Item.interest, sends⟩ with
  | .error fault => .error fault
  | .ok (_, m) =>
      let handled :=
        { p.setDeps m.deps with
          mgmt := Function.update p.mgmt fd (some { slot with conn := m.conn })
          heard := Function.update p.heard slot.id m.conn.received }
      match m.item with
      | some interest => .ok (handled.selectorSetInterestKey fd interest)
      | none => handled.unregisterMgmt fd

/-! ## The loop of main -/

/-- An event of the SOCKS5 side. -/
def onWorld (p : Process) (event : Event) : Except Fault Process :=
  match p.world.step event with
  | .error fault => .error fault
  | .ok world => .ok { p with world }

/-- The read handler of a ready descriptor. -/
def dispatchRead (p : Process) (fd : Fd) (env : Answers) : Except Fault Process :=
  match p.world.sh.sel.items fd with
  | some ⟨interest, .other⟩ =>
      if interest.read then
        match p.mgmt fd with
        | some slot => p.onMgmt fd slot (mgmtRead (env.recvs.headD (.error .eagain))) env.sends
        | none =>
            match env.accepts.head? with
            | none => .ok p
            | some answer => p.mgmtPassiveAccept answer
      else .ok p
  | _ => p.onWorld (.read fd env)

/-- The write handler of a ready descriptor; the listeners have none and are never armed for it. -/
def dispatchWrite (p : Process) (fd : Fd) (env : Answers) : Except Fault Process :=
  match p.world.sh.sel.items fd with
  | some ⟨interest, .other⟩ =>
      if interest.write then
        match p.mgmt fd with
        | some slot => p.onMgmt fd slot mgmtWrite env.sends
        | none => .error .abort
      else .ok p
  | _ => p.onWorld (.write fd env)

/-- `socks5_forget_paused_listener`. -/
def socks5ForgetPausedListener (p : Process) (fd : Fd) : Process :=
  p.share fun sh =>
    { sh with acceptPausedFd := if sh.acceptPausedFd = some fd then none else sh.acceptPausedFd }

/-- The SOCKS5 listener is closed when `main()` stops accepting. -/
def closePassive (p : Process) : Except Fault Process :=
  match p.passive with
  | none => .ok p
  | some fd =>
      match ((p.socks5ForgetPausedListener fd).clearItem fd).closeFd fd with
      | .error fault => .error fault
      | .ok closed => .ok { closed with passive := none }

/-- The management listener is closed when `main()` stops accepting. -/
def closeMngPassive (p : Process) : Except Fault Process :=
  match p.mngPassive with
  | none => .ok p
  | some fd =>
      match (p.clearItem fd).closeFd fd with
      | .error fault => .error fault
      | .ok closed => .ok { closed with mngPassive := none }

/-- `main()` stops accepting. -/
def stopAccepting (p : Process) : Except Fault Process :=
  match p.closePassive with
  | .error fault => .error fault
  | .ok closed =>
      match closed.closeMngPassive with
      | .error fault => .error fault
      | .ok both => .ok { both with accepting := false }

/-- `socks5_active_connections`. -/
def socks5ActiveConnections (p : Process) : Nat := p.world.sh.metrics.activeConnections.toNat

/-- `main()` leaves its loop on the second signal, or when nothing is left to be served. -/
def drained (p : Process) : Process :=
  if 1 < p.terminate then { p with phase := .leaving 0 }
  else if p.socks5ActiveConnections = 0 ∧ p.activeMgmtConnections = 0 then
    { p with phase := .leaving 0 }
  else p

/-- The block under `if (terminate)`. -/
def check (p : Process) : Except Fault Process :=
  if p.terminate = 0 then .ok p
  else if p.accepting then
    match p.stopAccepting with
    | .error fault => .error fault
    | .ok stopped => .ok stopped.drained
  else .ok p.drained

/-! ## Cleanup -/

/-- `selector_unregister_fd` in `selector_destroy`, for whatever is registered at `fd`. -/
def unregister (p : Process) (fd : Fd) : Except Fault Process :=
  match p.world.sh.sel.items fd, p.mgmt fd with
  | some ⟨_, .other⟩, some _ => p.unregisterMgmt fd
  | _, _ =>
      match p.world.unregister fd with
      | .error fault => .error fault
      | .ok world => .ok { p with world }

/-- The loop of `selector_destroy`. -/
def destroyFrom : List Fd → List Answers → Process → Except Fault Process
  | [], _, p => .ok p
  | fd :: fds, envs, p =>
      match { p with world := p.world.withEnv (p.world.headEnv envs) }.unregister fd with
      | .error fault => .error fault
      | .ok p' => destroyFrom fds envs.tail p'

/-- `selector_destroy`. -/
def selectorDestroy (p : Process) (envs : List Answers) : Except Fault Process :=
  match destroyFrom (List.range (FD_SETSIZE + 1)) envs p with
  | .error fault => .error fault
  | .ok p' => .ok { p' with world := { p'.world with mode := .destroyed } }

/-- Close a listener if it is open. -/
def closeListener (p : Process) : Option Fd → Except Fault Process
  | none => .ok p
  | some fd => p.closeFd fd

/-- The end of `server_cleanup`. -/
def closeListeners (p : Process) (ret : Nat) : Except Fault Process :=
  match p.closeListener p.passive with
  | .error fault => .error fault
  | .ok first =>
      match first.closeListener p.mngPassive with
      | .error fault => .error fault
      | .ok second =>
          .ok { second with passive := none, mngPassive := none, phase := .returned ret }

/-! ## Runs -/

end Process

/-- What can happen to the process. -/
inductive ProcessEvent where
  | read (fd : Fd) (env : Answers)
  | write (fd : Fd) (env : Answers)
  | block (envs : List Answers)
  | reap (now : Int) (envs : List Answers)
  | worker (step : WorkerStep)
  | settle (fd : Fd) (error : Option Errno)
  | logFile (opens : Bool)
  | signal
  | check
  | selectFailed
  | stopBegin
  | stopJoined
  | destroy (envs : List Answers)
  | finish

namespace Process

/-- One event before `main()` returns. -/
def act (p : Process) : ProcessEvent → Except Fault Process
  | .read fd env => if p.phase = .serving then p.dispatchRead fd env else .ok p
  | .write fd env => if p.phase = .serving then p.dispatchWrite fd env else .ok p
  | .block envs => if p.phase = .serving then p.onWorld (.block envs) else .ok p
  | .reap now envs => if p.phase = .serving then p.onWorld (.reap now envs) else .ok p
  | .worker step => p.onWorld (.worker step)
  | .settle fd error => p.onWorld (.settle fd error)
  | .logFile opens => .ok { p with logOpens := opens }
  | .signal => .ok { p with terminate := p.terminate + 1 }
  | .check => if p.phase = .serving then p.check else .ok p
  | .selectFailed => .ok (if p.phase = .serving then { p with phase := .leaving 1 } else p)
  | .stopBegin => if p.phase = .serving then .ok p else p.onWorld .stopBegin
  | .stopJoined => if p.phase = .serving then .ok p else p.onWorld .stopJoined
  | .destroy envs =>
      if p.phase ≠ .serving ∧ p.world.mode = .stopped then p.selectorDestroy envs else .ok p
  | .finish =>
      match p.phase with
      | .leaving ret => if p.world.mode = .destroyed then p.closeListeners ret else .ok p
      | _ => .ok p

/-- One event; nothing happens any more once `main()` has returned. -/
def step (p : Process) (event : ProcessEvent) : Except Fault Process :=
  if p.phase.isOver then .ok p else p.act event

def run (p : Process) : List ProcessEvent → Except Fault Process
  | [] => .ok p
  | event :: rest =>
      match p.step event with
      | .error fault => .error fault
      | .ok p' => run p' rest

end Process

/-! ## Startup -/

/-- What `socket()`, `bind()` and `listen()` answer for one address. -/
structure ListenAnswer where
  socket : Except Errno Fd
  bind : Bool
  listen : Bool

/-- What the system answers while the server starts; an address that cannot be resolved has no list
of candidates. -/
structure StartAnswers where
  passive : Option (List ListenAnswer)
  passiveNio : Bool
  mngPassive : Option (List ListenAnswer)
  mngPassiveNio : Bool
  selectorInit : Bool
  selectorNew : Bool
  poolStart : Bool

namespace Process

/-- The loop of `server_setup_passive`: a socket that does not work out is closed. -/
def setupPassiveFrom : List ListenAnswer → Process → Except Fault (Option Fd × Process)
  | [], p => .ok (none, p)
  | answer :: rest, p =>
      match answer.socket with
      | .error _ => setupPassiveFrom rest p
      | .ok fd =>
          if p.world.sh.kern.isOpen fd then setupPassiveFrom rest p
          else if answer.bind && answer.listen then .ok (some fd, p.openFd fd)
          else
            match (p.openFd fd).closeFd fd with
            | .error fault => .error fault
            | .ok closed => setupPassiveFrom rest closed

/-- `server_setup_passive`. -/
def serverSetupPassive (p : Process) :
    Option (List ListenAnswer) → Except Fault (Option Fd × Process)
  | none => .ok (none, p)
  | some answers => setupPassiveFrom answers p

/-- `return server_cleanup(&runtime, 1, …)`. -/
def failed (p : Process) : Process := { p with phase := .leaving 1 }

/-- The state `main()` sets up before it opens its sockets. -/
def loaded (args : Socks5Args) (log : AccessLog) (now : Int) (calendar : CalendarTime) :
    Process where
  world :=
    let world := World.initial (seedUsers usersInit args.users) log now calendar
    { world with sh := { world.sh with pool := Pool.initial } }
  logOpens := true
  admin := adminInit ⟨CharArray.zero, CharArray.zero⟩ (args.admin.map User.name)
    (args.admin.map User.pass)
  mgmt := fun _ => none
  nextMgmt := 0
  heard := fun _ => []
  activeMgmtConnections := 0
  passive := none
  mngPassive := none
  accepting := true
  terminate := 0
  phase := .serving

/-- Registering the two listeners, the last part of the startup. -/
def registerListeners (p : Process) (passive mngPassive : Fd) : Process :=
  match p.world.sh.sel.register passive OP_READ .listener with
  | none => p.failed
  | some sel =>
      match sel.register mngPassive OP_READ .other with
      | none => (p.share fun sh => { sh with sel }).failed
      | some sel => p.share fun sh => { sh with sel }

/-- Starting the pool, once there is a selector. -/
def startPool (p : Process) (answers : StartAnswers) (passive mngPassive : Fd) :
    Except Fault Process :=
  match socks5ResolverPoolStart answers.poolStart p.world.sh.pool with
  | .error fault => .error fault
  | .ok (started, pool) =>
      let p := p.share fun sh => { sh with pool }
      .ok (if started then p.registerListeners passive mngPassive else p.failed)

/-- The management listener and the selector. -/
def startMng (p : Process) (answers : StartAnswers) (passive : Fd) : Except Fault Process :=
  match p.serverSetupPassive answers.mngPassive with
  | .error fault => .error fault
  | .ok (none, p) => .ok p.failed
  | .ok (some mngPassive, p) =>
      let p := { p with mngPassive := some mngPassive }
      if answers.mngPassiveNio && answers.selectorInit && answers.selectorNew then
        p.startPool answers passive mngPassive
      else .ok p.failed

/-- `main()` up to its loop. -/
def start (args : Socks5Args) (log : AccessLog) (now : Int) (calendar : CalendarTime)
    (answers : StartAnswers) : Except Fault Process :=
  match (loaded args log now calendar).serverSetupPassive answers.passive with
  | .error fault => .error fault
  | .ok (none, p) => .ok p.failed
  | .ok (some passive, p) =>
      let p := { p with passive := some passive }
      if answers.passiveNio then p.startMng answers passive else .ok p.failed

/-- `main()`: it starts, and then goes through a run of events. -/
def main (args : Socks5Args) (log : AccessLog) (now : Int) (calendar : CalendarTime)
    (answers : StartAnswers) (events : List ProcessEvent) : Except Fault Process :=
  match start args log now calendar answers with
  | .error fault => .error fault
  | .ok p => p.run events

end Process

end SocksProxy
