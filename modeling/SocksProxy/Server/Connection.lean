import SocksProxy.Server.Auth
import SocksProxy.Server.Config
import SocksProxy.Server.Negotiation
import SocksProxy.Server.Resolver
import SocksProxy.Server.Users

/-!
# Connections and the state they share

`struct socks5_conn` and the state of the process its handlers work on. Handlers
are programs over a `Local` state: one connection, addressed through its
pointer, together with everything shared. Reading a freed connection is a
fault.

A connection also carries its history, the list of what happened to it so far
with the latest observation first. No handler reads it; the properties of whole
runs are stated about it.
-/

namespace SocksProxy

/-- `enum socks5_state`. -/
inductive State where
  | negRead
  | negWrite
  | authRead
  | authWrite
  | reqRead
  | reqResolve
  | reqConnecting
  | reqWrite
  | relay
  | done
  | error
  deriving DecidableEq, Repr

/-- The number of a state in the enumeration. -/
def State.code : State → Nat
  | .negRead => 0
  | .negWrite => 1
  | .authRead => 2
  | .authWrite => 3
  | .reqRead => 4
  | .reqResolve => 5
  | .reqConnecting => 6
  | .reqWrite => 7
  | .relay => 8
  | .done => 9
  | .error => 10

/-- `stm.max_state`, which is `ERROR`. -/
def maxState : Nat := State.error.code

/-- How one connection attempt of `request_connect` went. -/
inductive AttemptResult where
  | failed (error : Errno)
  | unregistrable
  | pending
  | established
  deriving DecidableEq

/-- What can be observed of a connection. The first group is traffic, the second what the proxy
decides (`leftover` are the bytes in the read buffer when the relay starts, `logged` is what
`access_log_record` is given), the third what its environment answers. -/
inductive Obs where
  | received (bytes : List UInt8)
  | sent (bytes : List UInt8)
  | fetched (bytes : List UInt8)
  | forwarded (bytes : List UInt8)
  | clientEof
  | originEof
  | shutClient
  | shutOrigin
  | entered (state : State)
  | leftover (bytes : List UInt8)
  | chose (method : UInt8) (store : Users)
  | validated (status : UInt8) (store : Users)
  | established (status : SocketStatus)
  | replied (rep : UInt8) (reply : List UInt8)
  | logged (user dest result : List UInt8)
  | lookup (queued : Bool)
  | resolved (addresses : List Sockaddr)
  | attempt (target : Sockaddr) (result : AttemptResult)
  | completed (error : Option Errno)
  | named (name : Option Sockaddr)
  | ioError
  | stalled
  | timedOut

/-- `struct socks5_conn`, without the fields shared with the resolver pool and the list links.
Descriptors are `none` for `-1`, `lastErrno` for zero, and `nextAddr` is the rest of an `addrinfo`
list. -/
structure Conn where
  current : Option State
  neg : NegotiationParser
  auth : Socks5Auth
  request : Socks5Request
  method : UInt8
  authStatus : UInt8
  clientFd : Option Fd
  originFd : Option Fd
  lastActivity : Int
  nextAddr : List Sockaddr
  lastErrno : Option Errno
  connected : Bool
  clientClosed : Bool
  originClosed : Bool
  clientWrShut : Bool
  originWrShut : Bool
  clientInterest : Interest
  originInterest : Interest
  activeCounted : Bool
  arrivalError : Bool
  readBuffer : Buffer
  writeBuffer : Buffer
  hist : List Obs

/-- The memory of a connection: in use, or freed with the reference count it had then. -/
inductive Cell where
  | live (conn : Conn)
  | freed (conn : Conn) (references : Int)

/-- The connection a cell holds or held. -/
def Cell.conn : Cell → Conn
  | .live c => c
  | .freed c _ => c

/-- `conn_list` and the link fields of the connections on it. -/
structure ConnList where
  head : Option ConnId
  next : ConnId → Option ConnId
  prev : ConnId → Option ConnId

/-- Everything that is not part of one connection. `closings` is not state of the program: it keeps
the calls of `metrics_connection_closed`, newest first, with the connection each was made for and
the number of active connections it found. -/
structure Shared where
  sel : Selector
  pool : Pool
  list : ConnList
  kern : Kernel
  users : Users
  config : Config
  metrics : Metrics
  log : AccessLog
  acceptPausedFd : Option Fd
  closings : List (ConnId × UInt64)
  env : Answers

/-- The state a handler of connection `id` works on. -/
structure Local where
  id : ConnId
  cell : Cell
  sh : Shared

abbrev M := Prog Local Fault

/-- Read the connection through its pointer. -/
def getConn : M Conn := do
  match (← get).cell with
  | .live c => pure c
  | .freed _ _ => throw .useAfterFree

/-- Write fields of the connection through its pointer. -/
def modifyConn (change : Conn → Conn) : M Unit := do
  let c ← getConn
  modify fun l => { l with cell := .live (change c) }

/-- Extend the history of the connection. -/
def observe (what : Obs) : M Unit := modifyConn fun c => { c with hist := what :: c.hist }

def modifyShared (change : Shared → Shared) : M Unit := modify fun l => { l with sh := change l.sh }

/-- A step of a resolver thread; a notification waits for the selector's mutex. -/
def workerStep (step : WorkerStep) : Prog Shared Fault Unit := do
  let sh ← get
  match step with
  | .notify _ _ =>
      if sh.sel.resolutionLocked then pure ()
      else
        match ← Prog.focus Shared.pool (fun pool sh => { sh with pool })
          (resolverWorkerStep step) with
        | some fd => modify fun sh => { sh with sel := sh.sel.notifyBlock fd }
        | none => pure ()
  | _ => do
      let _ ← Prog.focus Shared.pool (fun pool sh => { sh with pool }) (resolverWorkerStep step)

def workerSteps : List WorkerStep → Prog Shared Fault Unit
  | [] => pure ()
  | step :: rest => do
      workerStep step
      workerSteps rest

/-- Resolver threads run before the main thread gets their lock. -/
def runWorkers : Prog Shared Fault Unit := do
  match (← get).env.workers with
  | [] => pure ()
  | batch :: later => do
      modify fun sh => { sh with env := { sh.env with workers := later } }
      workerSteps batch

/-- Access to the pool without taking its lock. -/
def onPool {α : Type} (program : PoolM α) : M α :=
  Prog.focus (fun l => l.sh.pool) (fun pool l => { l with sh := { l.sh with pool } }) program

/-- A critical section of the main thread. -/
def locked {α : Type} (program : PoolM α) : M α := do
  Prog.focus Local.sh (fun sh l => { l with sh }) runWorkers
  onPool program

/-- The result of `recv()`: a positive count, zero, or an error. -/
inductive RecvResult where
  | bytes (received : List UInt8)
  | zero
  | failed (errno : Errno)

/-- The result of `send()`. -/
inductive SendResult where
  | bytes (n : Nat)
  | zero
  | failed (errno : Errno)

def nextRecv : M RecvAnswer := do
  match (← get).sh.env.recvs with
  | [] => pure (.error .eagain)
  | answer :: later => do
      modifyShared fun sh => { sh with env := { sh.env with recvs := later } }
      pure answer

def nextSend : M SendAnswer := do
  match (← get).sh.env.sends with
  | [] => pure (.error .eagain)
  | answer :: later => do
      modifyShared fun sh => { sh with env := { sh.env with sends := later } }
      pure answer

def observeError (errno : Errno) : M Unit := if wouldBlock errno then pure () else observe .ioError

/-- `recv(fd, ptr, space, 0)`. Asking for no bytes would yield zero whatever there is to read, which
every caller takes for the end of the stream. -/
def recv (fd : Fd) (space : Nat) : M RecvResult := do
  let c ← getConn
  if space = 0 then throw .recvWithoutRoom
  else
    match ← nextRecv with
    | .error errno => do
        observeError errno
        pure (.failed errno)
    | .data [] => do
        observe (if c.clientFd = some fd then .clientEof else .originEof)
        pure .zero
    | .data bytes =>
        match bytes.take space with
        | [] => pure .zero
        | taken => do
            observe (if c.clientFd = some fd then .received taken else .fetched taken)
            pure (.bytes taken)

/-- `send(fd, ptr, pending, MSG_NOSIGNAL)`; a negative descriptor is refused. -/
def send (fd : Option Fd) (pending : List UInt8) : M SendResult := do
  let c ← getConn
  if fd = none then do
    observe .ioError
    pure (.failed .other)
  else
    match ← nextSend with
    | .error errno => do
        observeError errno
        pure (.failed errno)
    | .taken n =>
        match pending.take n with
        | [] => do
            observe .stalled
            pure .zero
        | taken => do
            observe (if c.clientFd = fd then .sent taken else .forwarded taken)
            pure (.bytes taken.length)

/-- `close(fd)`. -/
def closeFd (fd : Fd) : M Unit := do
  match (← get).sh.kern.sockets fd with
  | none => throw .badClose
  | some _ => modifyShared fun sh => { sh with kern := sh.kern.release fd }

/-- `shutdown(fd, SHUT_WR)` and the flag that remembers it. -/
def shutdownWrite (fd : Option Fd) : M Unit := do
  let c ← getConn
  observe (if c.clientFd = fd then .shutClient else .shutOrigin)

/-- `selector_set_interest`, `true` for `SELECTOR_SUCCESS`; a negative descriptor is invalid. -/
def selectorSetInterest (fd : Option Fd) (interest : Interest) : M Bool := do
  match fd with
  | none => pure false
  | some fd =>
      match (← get).sh.sel.setInterest fd interest with
      | none => pure false
      | some sel => do
          modifyShared fun sh => { sh with sel }
          pure true

/-- `selector_register` for this connection. -/
def selectorRegister (fd : Fd) (interest : Interest) : M Bool := do
  let l ← get
  match l.sh.sel.register fd interest (.conn l.id) with
  | none => pure false
  | some sel => do
      modifyShared fun sh => { sh with sel }
      pure true

/-- `c->references += n`. -/
def addReferences (n : Int) : M Unit := do
  let l ← get
  onPool (Pool.modifySlot l.id fun slot => { slot with references := slot.references + n })

end SocksProxy
