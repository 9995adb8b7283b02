import Mathlib.Logic.Function.Basic
import SocksProxy.Library.Prog
import SocksProxy.Server.Request
import SocksProxy.Server.AccessLog

/-!
# System calls

The part of the operating system the proxy talks to. Descriptors are numbers,
and a number may be handed out again once it is closed. What a call returns is
not computed: every event brings `Answers`, the results the kernel gives to the
calls made while the event is handled, so that a statement about all events is
a statement about all kernels.

The kernel does keep what a caller may rely on: which descriptors are open, and
how far the connection attempt of every socket has come.
-/

namespace SocksProxy

abbrev Fd := Nat

/-- Identity of an allocated `struct socks5_conn`. -/
abbrev ConnId := Nat

/-- Ways in which the process would be killed, its memory corrupted or an answer of the kernel
mistaken for another. -/
inductive Fault where
  | useAfterFree
  | badClose
  | abort
  | foreignConnection
  | unbounded
  | recvWithoutRoom
  | secondOrigin
  deriving DecidableEq, Repr

/-- The values of `errno` that some branch of the proxy tells apart. -/
inductive Errno where
  | eagain
  | ewouldblock
  | eintr
  | einprogress
  | econnrefused
  | enetunreach
  | ehostunreach
  | etimedout
  | emfile
  | enfile
  | other
  deriving DecidableEq, Repr

/-- `would_block`. -/
def wouldBlock : Errno → Bool
  | .eagain | .ewouldblock | .eintr => true
  | _ => false

/-- How far the connection attempt of a socket has come. -/
inductive SocketStatus where
  | unconnected
  | inProgress
  | connected
  | failed (error : Errno)
  deriving DecidableEq, Repr

/-- An open socket: its connection attempt and its local address. -/
structure Socket where
  status : SocketStatus
  localName : Sockaddr
  deriving DecidableEq

/-- Descriptors of the process. `sockets` are those `accept()` and `socket()` handed to SOCKS5
connections, `foreign` all others; `opened` and `closed` count, for every number, how often it was
handed out and closed. -/
structure Kernel where
  sockets : Fd → Option Socket
  foreign : Fd → Bool
  opened : Fd → Nat
  closed : Fd → Nat

namespace Kernel

/-- No descriptor has been handed out yet. -/
def initial : Kernel where
  sockets := fun _ => none
  foreign := fun _ => false
  opened := fun _ => 0
  closed := fun _ => 0

def isOpen (k : Kernel) (fd : Fd) : Bool := (k.sockets fd).isSome || k.foreign fd

/-- A number handed out by `accept()` or `socket()`. -/
def handOut (k : Kernel) (fd : Fd) (socket : Socket) : Kernel :=
  { k with
    sockets := Function.update k.sockets fd (some socket)
    opened := Function.update k.opened fd (k.opened fd + 1) }

/-- `close()` of an open number. -/
def release (k : Kernel) (fd : Fd) : Kernel :=
  { k with
    sockets := Function.update k.sockets fd none
    closed := Function.update k.closed fd (k.closed fd + 1) }

def setSocket (k : Kernel) (fd : Fd) (socket : Socket) : Kernel :=
  { k with sockets := Function.update k.sockets fd (some socket) }

/-- A pending connection attempt of `fd` ends with `error`, or succeeds. -/
def settle (k : Kernel) (fd : Fd) (error : Option Errno) : Kernel :=
  match k.sockets fd with
  | some socket =>
      if socket.status = .inProgress then
        k.setSocket fd
          { socket with
            status := match error with
              | none => .connected
              | some e => .failed e }
      else k
  | none => k

end Kernel

/-- What `recv()` finds: bytes, of which it takes as many as asked for, or end of file when there
are none; or an error. -/
inductive RecvAnswer where
  | data (bytes : List UInt8)
  | error (errno : Errno)
  deriving DecidableEq, Repr

/-- How much `send()` takes of what it is given. -/
inductive SendAnswer where
  | taken (n : Nat)
  | error (errno : Errno)
  deriving DecidableEq, Repr

/-- What `socket()`, `selector_fd_set_nio()` and `connect()` answer to one connection attempt, and
the local address the socket then has. -/
structure AttemptAnswer where
  socket : Except Errno Fd
  nio : Option Errno
  connect : Option Errno
  localName : Sockaddr

/-- What `getaddrinfo()` returns: its code, and a list when the code is zero. -/
structure LookupAnswer where
  rc : Int
  addresses : List Sockaddr

/-- What one round of `socks5_passive_accept` is answered by `accept()`, `selector_fd_set_nio()` and
the allocator. -/
structure AcceptAnswer where
  client : Except Errno Fd
  nio : Bool
  calloc : Bool
  mallocs : Bool

def RESOLVER_WORKERS : Nat := 4

/-- A critical section of a resolver thread, or its notification of the selector, which fails when
`malloc` does. -/
inductive WorkerStep where
  | pop (worker : Fin RESOLVER_WORKERS)
  | finish (worker : Fin RESOLVER_WORKERS) (answer : LookupAnswer)
  | notify (worker : Fin RESOLVER_WORKERS) (allocated : Bool)

/-- The answers to the system calls of one event. An exhausted list answers that the call would
block or that there are no descriptors left. `workers` holds, for every time the main thread takes
the resolver lock, what the resolver threads do before it gets it. -/
structure Answers where
  now : Int
  calendar : CalendarTime
  recvs : List RecvAnswer
  sends : List SendAnswer
  attempts : List AttemptAnswer
  getsockopt : Option Errno
  getsockname : Option Errno
  poolStart : Bool
  calloc : Bool
  accepts : List AcceptAnswer
  workers : List (List WorkerStep)

/-- The answers of a kernel that has nothing to offer. -/
def Answers.idle (now : Int) (calendar : CalendarTime) : Answers where
  now := now
  calendar := calendar
  recvs := []
  sends := []
  attempts := []
  getsockopt := none
  getsockname := none
  poolStart := true
  calloc := true
  accepts := []
  workers := []

end SocksProxy
