import Mathlib.Logic.Function.Basic
import Mathlib.Tactic.Common
import SocksProxy.Server.Kernel

/-!
# The selector

`selector.c`: the table of registered descriptors with the events each one
waits for. The masks `master_r` and `master_w` hold exactly the interests of
the registered items, so they are not kept apart. `main()` asks for the full
`FD_SETSIZE` capacity up front, hence registering never has to grow the table.
-/

namespace SocksProxy

def FD_SETSIZE : Nat := 1024

/-- `fd_interest`. -/
structure Interest where
  read : Bool
  write : Bool
  deriving DecidableEq, Repr

def OP_NOOP : Interest := ⟨false, false⟩

def OP_READ : Interest := ⟨true, false⟩

def OP_WRITE : Interest := ⟨false, true⟩

/-- The handler and the `data` pointer of an item: a SOCKS5 connection, the passive SOCKS5 socket,
or something of another module. -/
inductive Owner where
  | conn (id : ConnId)
  | listener
  | other
  deriving DecidableEq, Repr

/-- `struct item` in use. -/
structure Item where
  interest : Interest
  owner : Owner
  deriving DecidableEq, Repr

/-- `struct fdselector`. `resolutionLocked` says that `handle_block_notifications` holds the mutex
of `resolutionJobs`. -/
structure Selector where
  items : Fd → Option Item
  maxFd : Nat
  resolutionJobs : List Fd
  resolutionLocked : Bool

namespace Selector

def empty : Selector := ⟨fun _ => none, 0, [], false⟩

/-- `selector_register`: `none` unless it returns `SELECTOR_SUCCESS`. -/
def register (s : Selector) (fd : Fd) (interest : Interest) (owner : Owner) : Option Selector :=
  if FD_SETSIZE ≤ fd then none
  else
    match s.items fd with
    | some _ => none
    | none =>
        some
          { s with
            items := Function.update s.items fd (some ⟨interest, owner⟩)
            maxFd := max s.maxFd fd }

/-- `selector_set_interest`. -/
def setInterest (s : Selector) (fd : Fd) (interest : Interest) : Option Selector :=
  if FD_SETSIZE ≤ fd then none
  else
    match s.items fd with
    | none => none
    | some item =>
        some { s with items := Function.update s.items fd (some { item with interest }) }

/-- `items_max_fd`. -/
def itemsMaxFd (items : Fd → Option Item) (maxFd : Nat) : Nat :=
  (List.range (maxFd + 1)).foldl (fun m i => if (items i).isSome then max m i else m) 0

/-- What `selector_unregister_fd` does after `handle_close`. -/
def clear (s : Selector) (fd : Fd) : Selector :=
  let items := Function.update s.items fd none
  { s with items, maxFd := itemsMaxFd items s.maxFd }

/-- `selector_notify_block`, once the mutex is free. -/
def notifyBlock (s : Selector) (fd : Fd) : Selector :=
  { s with resolutionJobs := fd :: s.resolutionJobs }

end Selector

end SocksProxy
