import SocksProxy.Library.Prog
import SocksProxy.Shared.Selector

/-!
# The table of the selector

`selector.c` as it lies in memory: an array of items indexed by descriptor that
grows on demand, the masks handed to `pselect()` and the highest descriptor.
A pointer to an item is an index together with how often the array had moved
when the pointer was taken; using it later than the next move, or beyond the end
of the array, faults.

`Calls` are what handlers do with a selector, and `Selector.exec` and what
follows it say what they are to do, on the map of items alone.
-/

namespace SocksProxy

/-- `selector_status`. -/
inductive SelectorStatus where
  | success
  | enomem
  | maxfd
  | iargs
  | fdinuse
  | io
  deriving DecidableEq, Repr

/-- Ways in which handlers use a selector that `selector.c` does not survive: an item is ready for
something its handler has no function for, which fails an assertion, or a function that is called
under the mutex of the jobs asks for it again, which waits for ever. -/
inductive Misuse where
  | abort
  | deadlock
  deriving DecidableEq, Repr

/-- Ways in which the selector would leave its memory, and misuses of it. -/
inductive TableFault where
  | outside
  | stale
  | misuse (how : Misuse)
  deriving DecidableEq, Repr

/-- `ITEMS_MAX_SIZE`. -/
def ITEMS_MAX_SIZE : Nat := FD_SETSIZE

/-- `struct item`; `fd` is `none` for `FD_UNUSED`, and `owner` stands for `handler` and `data`.
What an unused item holds besides is arbitrary. -/
structure TableItem where
  fd : Option Fd
  interest : Interest
  owner : Option Owner

/-- `struct fdselector`. The array has `fd_size` items, none before it is allocated; `moved` counts
how often it was allocated anew. -/
structure FdSelector where
  fds : List TableItem
  moved : Nat
  maxFd : Nat
  masterR : Fd → Bool
  masterW : Fd → Bool
  resolutionJobs : List Int
  resolutionLocked : Bool

abbrev TableM (α : Type) := Prog FdSelector TableFault α

/-- The memory an allocation returns, if it succeeds. -/
abbrev Memory := Option (Nat → TableItem)

/-- `struct item *`. -/
structure ItemPtr where
  index : Nat
  moved : Nat

namespace FdSelector

/-- The selector after `memset`. -/
def zero : FdSelector where
  fds := []
  moved := 0
  maxFd := 0
  masterR := fun _ => false
  masterW := fun _ => false
  resolutionJobs := []
  resolutionLocked := false

/-! ## Memory -/

/-- `s->fds + i`. -/
def itemAt (i : Nat) : TableM ItemPtr := do
  pure ⟨i, (← get).moved⟩

def load (ptr : ItemPtr) : TableM TableItem := do
  let s ← get
  if ptr.moved ≠ s.moved then throw .stale
  else
    match s.fds[ptr.index]? with
    | none => throw .outside
    | some item => pure item

def store (ptr : ItemPtr) (item : TableItem) : TableM Unit := do
  let s ← get
  if ptr.moved ≠ s.moved then throw .stale
  else if s.fds.length ≤ ptr.index then throw .outside
  else modify fun s => { s with fds := s.fds.set ptr.index item }

/-- The loop of `next_capacity`: how often a number can be halved. -/
def bitCount (n : Nat) : Nat := if n = 0 then 0 else bitCount (n / 2) + 1

/-- `next_capacity`. -/
def nextCapacity (n : Nat) : Nat :=
  (if ITEMS_MAX_SIZE < 2 ^ bitCount n then ITEMS_MAX_SIZE else 2 ^ bitCount n) + 1

/-- `items_init` on new memory: only the descriptor is set. -/
def itemsInit (contents : Nat → TableItem) (last size : Nat) : List TableItem :=
  (List.range' last (size - last)).map fun i => { contents i with fd := none }

/-- `ensure_capacity`. The first allocation zeroes its memory and later ones do not; neither is
looked at. -/
def ensureCapacity (n : Nat) (memory : Memory) : TableM SelectorStatus := do
  let s ← get
  if n < s.fds.length then pure .success
  else if ITEMS_MAX_SIZE < n then pure .maxfd
  else
    match memory with
    | none => pure .enomem
    | some contents => do
        let size := nextCapacity n
        modify fun s =>
          { s with
            fds := s.fds.take size ++ itemsInit contents s.fds.length size
            moved := s.moved + 1 }
        pure .success

/-- `selector_new`. -/
def selectorNew (initialElements : Nat) (memory : Memory) : Option (FdSelector) :=
  match ensureCapacity initialElements memory zero with
  | .ok (.success, s) => some s
  | _ => none

/-! ## Registering -/

/-- `INVALID_FD`. -/
def invalidFd (fd : Int) : Bool := fd < 0 || ITEMS_MAX_SIZE ≤ fd.toNat

/-- `items_update_fdset_for_fd`. -/
def itemsUpdateFdsetForFd (s : FdSelector) (item : TableItem) : FdSelector :=
  match item.fd with
  | none => s
  | some fd =>
      { s with
        masterR := Function.update s.masterR fd item.interest.read
        masterW := Function.update s.masterW fd item.interest.write }

/-- The body of the loop of `items_max_fd`. -/
def higher (max : Nat) : Option Fd → Nat
  | none => max
  | some fd => if max < fd then fd else max

/-- The loop of `items_max_fd`. -/
def itemsMaxFdFrom : List Nat → Nat → TableM Nat
  | [], max => pure max
  | i :: later, max => do
      let item ← load (← itemAt i)
      itemsMaxFdFrom later (higher max item.fd)

/-- `items_max_fd`. -/
def itemsMaxFd : TableM Nat := do
  itemsMaxFdFrom (List.range ((← get).maxFd + 1)) 0

/-- The first step of `selector_register`: room is made for a descriptor above the array. -/
def makeRoom (ufd : Nat) (memory : Memory) : TableM SelectorStatus := do
  if (← get).fds.length < ufd then ensureCapacity ufd memory else pure .success

/-- The second step of `selector_register`. -/
def registerItem (ufd : Nat) (interest : Interest) (owner : Owner) : TableM SelectorStatus := do
  let ptr ← itemAt ufd
  if (← load ptr).fd.isSome then pure .fdinuse
  else do
    let item : TableItem := ⟨some ufd, interest, some owner⟩
    store ptr item
    modify fun s => { s with maxFd := if s.maxFd < ufd then ufd else s.maxFd }
    modify fun s => s.itemsUpdateFdsetForFd item
    pure .success

/-- `selector_register`. -/
def selectorRegister (fd : Int) (handler : Option Owner) (interest : Interest) (memory : Memory) :
    TableM SelectorStatus := do
  match handler with
  | none => pure .iargs
  | some owner =>
      if invalidFd fd then pure .iargs
      else do
        let status ← makeRoom fd.toNat memory
        if status = .success then registerItem fd.toNat interest owner else pure status

/-- `selector_set_interest`. -/
def selectorSetInterest (fd : Int) (interest : Interest) : TableM SelectorStatus := do
  if invalidFd fd then pure .iargs
  else do
    let ptr ← itemAt fd.toNat
    let item ← load ptr
    if item.fd.isSome then do
      let item := { item with interest }
      store ptr item
      modify fun s => s.itemsUpdateFdsetForFd item
      pure .success
    else pure .iargs

/-- What `selector_unregister_fd` does to the item once `handle_close` has returned. -/
def clearItem (ptr : ItemPtr) : TableM Unit := do
  let item := { ← load ptr with interest := OP_NOOP }
  store ptr item
  modify fun s => s.itemsUpdateFdsetForFd item
  store ptr ⟨none, OP_NOOP, none⟩

/-- `selector_unregister_fd`, with what `handle_close` does. -/
def selectorUnregisterFd (fd : Int) (handleClose : TableM Unit) : TableM SelectorStatus := do
  if invalidFd fd then pure .iargs
  else do
    let ptr ← itemAt fd.toNat
    if (← load ptr).fd.isSome then do
      handleClose
      clearItem ptr
      let max ← itemsMaxFd
      modify fun s => { s with maxFd := max }
      pure .success
    else pure .iargs

/-- `selector_notify_block`. The descriptor is not looked at. Another thread gets the mutex when it
is free, and one that holds it already never does. -/
def selectorNotifyBlock (fd : Int) (allocated : Bool) : TableM SelectorStatus := do
  if !allocated then pure .enomem
  else if (← get).resolutionLocked then throw (.misuse .deadlock)
  else do
    modify fun s => { s with resolutionJobs := fd :: s.resolutionJobs }
    pure .success

end FdSelector

/-! ## What handlers do -/

/-- The calls somebody makes of the selector, one after the other, each with what it depends on: an
allocation, or the calls the close handler makes in turn, none if there is no such function.
Notifications of other threads come in between. -/
inductive Calls where
  | done
  | register (fd : Int) (handler : Option Owner) (interest : Interest) (memory : Memory)
      (later : Calls)
  | setInterest (fd : Int) (interest : Interest) (later : Calls)
  | unregister (fd : Int) (closing later : Calls)
  | notifyBlock (fd : Int) (allocated : Bool) (later : Calls)

/-- A function of a handler, `NULL` for some: what it does when it is called with the descriptor and
the data of a key. -/
abbrev HandlerFn := Owner → Fd → Owner → Option Calls

/-- What `pselect()` answers: the descriptors that are ready, of those it was asked for, or an
error. `handle_read` and `handle_write` are called for them. -/
inductive Polled where
  | ready (readable writable : Fd → Bool) (reads writes : HandlerFn)
  | interrupted
  | failed

/-- What is done with a selector: calls from outside of it, or `selector_select`. A `handle_block`
that is `NULL` makes no calls. -/
inductive SelectorUse where
  | calls (script : Calls)
  | select (polled : Polled) (blocks : List Calls)

/-- Only descriptors that there can be are notified of. -/
def Calls.InRange : Calls → Prop
  | .done => True
  | .register _ _ _ _ later => later.InRange
  | .setInterest _ _ later => later.InRange
  | .unregister _ closing later => closing.InRange ∧ later.InRange
  | .notifyBlock fd _ later => (0 ≤ fd ∧ fd < FD_SETSIZE) ∧ later.InRange

def Polled.InRange : Polled → Prop
  | .ready _ _ reads writes => ∀ fd handler data script,
      reads handler fd data = some script ∨ writes handler fd data = some script → script.InRange
  | .interrupted | .failed => True

def SelectorUse.InRange : SelectorUse → Prop
  | .calls script => script.InRange
  | .select polled blocks => polled.InRange ∧ ∀ script ∈ blocks, script.InRange

namespace FdSelector

def exec : Calls → TableM Unit
  | .done => pure ()
  | .register fd handler interest memory later => do
      let _ ← selectorRegister fd handler interest memory
      exec later
  | .setInterest fd interest later => do
      let _ ← selectorSetInterest fd interest
      exec later
  | .unregister fd closing later => do
      let _ ← selectorUnregisterFd fd (exec closing)
      exec later
  | .notifyBlock fd allocated later => do
      let _ ← selectorNotifyBlock fd allocated
      exec later

/-- A function of the handler of an item is called with a key; it must not be `NULL`. -/
def callHandler (function : HandlerFn) (fd : Fd) : Option Owner → Option Owner → TableM Unit
  | some handler, some data =>
      match function handler fd data with
      | none => throw (.misuse .abort)
      | some script => exec script
  | _, _ => pure ()

/-- The second half of the loop of `handle_iteration`: the item is looked at again, and its handler
is given the key of before. -/
def scanWrite (slaveW : Fd → Bool) (writes : HandlerFn) (ptr : ItemPtr) (fd : Fd)
    (data : Option Owner) : TableM Unit := do
  if slaveW ptr.index then do
    let item ← load ptr
    if item.interest.write then callHandler writes fd item.owner data else pure ()
  else pure ()

/-- The body of the loop of `handle_iteration`. The key is filled in before any handler runs. -/
def scan (slaveR slaveW : Fd → Bool) (reads writes : HandlerFn) (i : Nat) : TableM Unit := do
  let ptr ← itemAt i
  let item ← load ptr
  match item.fd with
  | none => pure ()
  | some fd =>
      if slaveR fd && item.interest.read then do
        callHandler reads fd item.owner item.owner
        scanWrite slaveW writes ptr fd item.owner
      else scanWrite slaveW writes ptr fd item.owner

def scanAll (slaveR slaveW : Fd → Bool) (reads writes : HandlerFn) : List Nat → TableM Unit
  | [] => pure ()
  | i :: later => do
      scan slaveR slaveW reads writes i
      scanAll slaveR slaveW reads writes later

/-- `handle_iteration`. -/
def handleIteration (slaveR slaveW : Fd → Bool) (reads writes : HandlerFn) :
    TableM Unit := do
  scanAll slaveR slaveW reads writes (List.range ((← get).maxFd + 1))

/-- The loop of `handle_block_notifications`, which takes the descriptor of a job for an index. -/
def notifyAll : List Int → List Calls → TableM Unit
  | [], _ => pure ()
  | fd :: later, blocks =>
      if fd < 0 then throw .outside
      else do
        let item ← load (← itemAt fd.toNat)
        if item.fd.isSome then do
          exec (blocks.headD .done)
          notifyAll later blocks.tail
        else notifyAll later blocks

/-- `handle_block_notifications`. -/
def handleBlockNotifications (blocks : List Calls) : TableM Unit := do
  modify fun s => { s with resolutionLocked := true }
  notifyAll (← get).resolutionJobs blocks
  modify fun s => { s with resolutionJobs := [], resolutionLocked := false }

/-- `selector_select`. -/
def selectorSelect (polled : Polled) (blocks : List Calls) : TableM SelectorStatus := do
  let s ← get
  match polled with
  | .ready readable writable reads writes => do
      handleIteration (fun fd => s.masterR fd && readable fd)
        (fun fd => s.masterW fd && writable fd) reads writes
      handleBlockNotifications blocks
      pure .success
  | .interrupted => do
      handleBlockNotifications blocks
      pure .success
  | .failed => pure .io

def run : List SelectorUse → TableM Unit
  | [] => pure ()
  | .calls script :: later => do
      exec script
      run later
  | .select polled blocks :: later => do
      let _ ← selectorSelect polled blocks
      run later

end FdSelector

/-! ## What the selector is for -/

namespace Selector

/-- `selector_register` on the map. -/
def registerFor (fd : Int) (interest : Interest) (s : Selector) : Option Owner → Selector
  | none => s
  | some owner =>
      if FdSelector.invalidFd fd then s else (s.register fd.toNat interest owner).getD s

/-- `selector_unregister_fd` on the map, with what the close handler does. -/
def unregisterFd (fd : Int) (closes : Selector → Except Misuse Selector) (s : Selector) :
    Except Misuse Selector :=
  if FdSelector.invalidFd fd then .ok s
  else if (s.items fd.toNat).isSome then (closes s).map fun closed => closed.clear fd.toNat
  else .ok s

/-- `selector_notify_block` on the map. -/
def notify (fd : Int) (allocated : Bool) (s : Selector) : Except Misuse Selector :=
  if !allocated then .ok s
  else if s.resolutionLocked then .error .deadlock
  else .ok (s.notifyBlock fd.toNat)

/-- The calls on the map of items. Memory is no matter here. -/
def exec : Calls → Selector → Except Misuse Selector
  | .done, s => .ok s
  | .register fd handler interest _ later, s => exec later (registerFor fd interest s handler)
  | .setInterest fd interest later, s =>
      exec later
        (if FdSelector.invalidFd fd then s else (s.setInterest fd.toNat interest).getD s)
  | .unregister fd closing later, s => do exec later (← unregisterFd fd (exec closing) s)
  | .notifyBlock fd allocated later, s => do exec later (← notify fd allocated s)

def callHandler (function : HandlerFn) (fd : Fd) (handler data : Owner) (s : Selector) :
    Except Misuse Selector :=
  match function handler fd data with
  | none => .error .abort
  | some script => exec script s

/-- The write handler of the item that is there by now, if it waits for it. -/
def scanWrite (slaveW : Fd → Bool) (writes : HandlerFn) (fd : Fd) (data : Owner) (s : Selector) :
    Except Misuse Selector :=
  match s.items fd with
  | none => .ok s
  | some item =>
      if slaveW fd && item.interest.write then callHandler writes fd item.owner data s else .ok s

def scan (slaveR slaveW : Fd → Bool) (reads writes : HandlerFn) (s : Selector) (fd : Fd) :
    Except Misuse Selector :=
  match s.items fd with
  | none => .ok s
  | some item => do
      scanWrite slaveW writes fd item.owner
        (← if slaveR fd && item.interest.read then callHandler reads fd item.owner item.owner s
          else .ok s)

def notifyAll : List Fd → List Calls → Selector → Except Misuse Selector
  | [], _, s => .ok s
  | fd :: later, blocks, s =>
      if (s.items fd).isSome then do notifyAll later blocks.tail (← exec (blocks.headD .done) s)
      else notifyAll later blocks s

def handleBlockNotifications (blocks : List Calls) (s : Selector) : Except Misuse Selector :=
  (notifyAll s.resolutionJobs blocks { s with resolutionLocked := true }).map fun notified =>
    { notified with resolutionJobs := [], resolutionLocked := false }

/-- The descriptors are asked for as their interests say, and handled in ascending order. -/
def select : Polled → List Calls → Selector → Except Misuse Selector
  | .ready readable writable reads writes, blocks, s => do
      let slaveR fd := ((s.items fd).any fun item => item.interest.read) && readable fd
      let slaveW fd := ((s.items fd).any fun item => item.interest.write) && writable fd
      handleBlockNotifications blocks
        (← (List.range (s.maxFd + 1)).foldlM (scan slaveR slaveW reads writes) s)
  | .interrupted, blocks, s => handleBlockNotifications blocks s
  | .failed, _, s => .ok s

def use (s : Selector) : SelectorUse → Except Misuse Selector
  | .calls script => exec script s
  | .select polled blocks => select polled blocks s

end Selector

end SocksProxy
