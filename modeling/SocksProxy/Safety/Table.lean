import SocksProxy.Server.EventLoop
import SocksProxy.Server.ResolverSafety

/-!
# Who holds which descriptor

The selector, the kernel and the connections must agree on every descriptor of
a SOCKS5 connection. A `View` lists, for every live connection, its ends: the
descriptors that are registered for it, with the interest armed on each and the
socket behind it. `Table` says that the selector and the kernel are as the view
says. One socket may be loose, opened and not yet registered.
-/

namespace SocksProxy

/-- A registered descriptor of a connection. -/
structure End where
  fd : Fd
  interest : Interest
  socket : Socket

/-- The two ends of a connection. -/
inductive Side where
  | client
  | origin
  deriving DecidableEq

/-- What a live connection holds: its ends, and possibly a job of the resolver. -/
structure Ends where
  client : Option End
  origin : Option End
  job : Bool

namespace Ends

def get (e : Ends) : Side → Option End
  | .client => e.client
  | .origin => e.origin

def put (e : Ends) (side : Side) (a : Option End) : Ends :=
  match side with
  | .client => { e with client := a }
  | .origin => { e with origin := a }

@[simp, grind =]
theorem get_put (e : Ends) (side other : Side) (a : Option End) :
    (e.put side a).get other = if other = side then a else e.get other := by
  cases side <;> cases other <;> rfl

/-- The references a connection must have. -/
def count (e : Ends) : Int :=
  (if e.client.isSome then 1 else 0) + (if e.origin.isSome then 1 else 0) + if e.job then 1 else 0

theorem count_nonneg (e : Ends) : 0 ≤ e.count := by
  rcases e with ⟨_ | _, _ | _, _ | _⟩ <;> simp [count]

/-- A connection without references holds nothing. -/
theorem of_count_eq_zero {e : Ends} (zero : e.count = 0) :
    e.job = false ∧ ∀ side, e.get side = none := by
  rcases e with ⟨_ | a, _ | b, _ | _⟩
  · exact ⟨rfl, fun side => by cases side <;> rfl⟩
  all_goals simp [count] at zero

theorem count_put (e : Ends) (side : Side) (a : Option End) :
    (e.put side a).count =
      e.count - (if (e.get side).isSome then 1 else 0) + if a.isSome then 1 else 0 := by
  rcases e with ⟨_ | _, _ | _, _ | _⟩ <;> cases side <;> cases a <;> rfl

@[simp]
theorem job_put (e : Ends) (side : Side) (a : Option End) : (e.put side a).job = e.job := by
  cases side <;> rfl

end Ends

/-- The live connections and what they hold. -/
abbrev View := ConnId → Option Ends

/-- The end of a connection on a side. -/
def View.ends (view : View) (k : ConnId) (side : Side) : Option End :=
  (view k).bind fun e => e.get side

/-- Whether an item belongs to a SOCKS5 connection. -/
def Item.isConn (item : Item) : Bool :=
  match item.owner with
  | .conn _ => true
  | _ => false

@[grind =]
theorem Item.isConn_conn (interest : Interest) (k : ConnId) :
    Item.isConn ⟨interest, .conn k⟩ = true := rfl

/-- One end replaced. -/
def setEnd (ends : ConnId → Side → Option End) (k : ConnId) (side : Side) (a : Option End) :
    ConnId → Side → Option End :=
  fun k' side' => if k' = k ∧ side' = side then a else ends k' side'

@[grind =]
theorem setEnd_apply (ends : ConnId → Side → Option End) (k : ConnId) (side : Side)
    (a : Option End) (k' : ConnId) (side' : Side) :
    setEnd ends k side a k' side' = if k' = k ∧ side' = side then a else ends k' side' := rfl

/-- Selector and kernel agree with the ends of the connections. -/
structure Table (ends : ConnId → Side → Option End) (loose : Option (Fd × Socket))
    (items : Fd → Option Item) (kern : Kernel) (paused : Option Fd) : Prop where
  registered : ∀ k side a, ends k side = some a →
    items a.fd = some ⟨a.interest, .conn k⟩ ∧ kern.sockets a.fd = some a.socket
  owned : ∀ fd i k, items fd = some ⟨i, .conn k⟩ →
    (ends k .client).map End.fd = some fd ∨ (ends k .origin).map End.fd = some fd
  held : ∀ fd s, kern.sockets fd = some s →
    loose = some (fd, s) ∨ (items fd).any Item.isConn = true
  unregistered : ∀ fd s, loose = some (fd, s) → kern.sockets fd = some s ∧ items fd = none
  distinct : ∀ k side a side' a', ends k side = some a → ends k side' = some a' →
    a.fd = a'.fd → side = side'
  elsewhere : ∀ fd item, items fd = some item → item.isConn = false → kern.foreign fd = true
  apart : ∀ fd, kern.foreign fd = true → kern.sockets fd = none
  range : ∀ fd, (items fd).isSome → fd < FD_SETSIZE
  counted : ∀ fd, kern.opened fd = kern.closed fd + if (kern.sockets fd).isSome then 1 else 0
  resumable : ∀ fd, paused = some fd → kern.foreign fd = true

namespace Table

variable {ends : ConnId → Side → Option End} {loose : Option (Fd × Socket)}
  {items : Fd → Option Item} {kern : Kernel} {paused : Option Fd} {k : ConnId} {side : Side}
  {a : End}

/-- The interest of an end changes. -/
theorem arm (table : Table ends loose items kern paused) (has : ends k side = some a)
    (interest : Interest) :
    Table (setEnd ends k side (some { a with interest })) loose
      (Function.update items a.fd (some ⟨interest, .conn k⟩)) kern paused := by
  rcases table with ⟨registered, owned, held, unregistered, distinct, elsewhere, apart, range,
    counted, resumable⟩
  constructor
  case registered => grind
  case owned => cases side <;> grind
  case held => grind
  case unregistered => grind
  case distinct => grind
  case elsewhere => grind
  case apart => exact apart
  case range => grind
  case counted => exact counted
  case resumable => exact resumable

/-- A number nobody uses is not registered either. -/
theorem items_eq_none (table : Table ends loose items kern paused) {fd : Fd}
    (unused : kern.isOpen fd = false) : items fd = none := by
  cases item : items fd with
  | none => rfl
  | some found =>
      have closed : kern.sockets fd = none ∧ kern.foreign fd = false := by
        simpa [Kernel.isOpen] using unused
      rcases found with ⟨interest, owner⟩
      cases owner with
      | conn k =>
          have has := table.owned fd interest k item
          simp only [Option.map_eq_some_iff] at has
          rcases has with ⟨a, mine, rfl⟩ | ⟨a, mine, rfl⟩
          · exact absurd (table.registered k _ a mine).2 (by simp [closed.1])
          · exact absurd (table.registered k _ a mine).2 (by simp [closed.1])
      | listener =>
          exact absurd (table.elsewhere fd _ item rfl) (by simp [closed.2])
      | other =>
          exact absurd (table.elsewhere fd _ item rfl) (by simp [closed.2])

/-- A descriptor of another module is not registered for a connection. -/
theorem isConn_eq_false (table : Table ends loose items kern paused) {fd : Fd} {item : Item}
    (other : kern.foreign fd = true) (found : items fd = some item) : item.isConn = false := by
  rcases item with ⟨interest, owner⟩
  cases owner with
  | conn k =>
      have has := table.owned fd interest k found
      have closed := table.apart fd other
      simp only [Option.map_eq_some_iff] at has
      rcases has with ⟨a, mine, rfl⟩ | ⟨a, mine, rfl⟩
      · exact absurd (table.registered k _ a mine).2 (by simp [closed])
      · exact absurd (table.registered k _ a mine).2 (by simp [closed])
  | listener => rfl
  | other => rfl

/-- `accept()` or `socket()` hands out a number. -/
theorem handOut (table : Table ends none items kern paused) {fd : Fd} (socket : Socket)
    (unused : kern.isOpen fd = false) :
    Table ends (some (fd, socket)) items (kern.handOut fd socket) paused := by
  have missing := table.items_eq_none unused
  have closed : kern.sockets fd = none ∧ kern.foreign fd = false := by
    simpa [Kernel.isOpen] using unused
  rcases table with ⟨registered, owned, held, unregistered, distinct, elsewhere, apart, range,
    counted, resumable⟩
  unfold Kernel.handOut
  constructor
  case registered => grind
  case owned => exact owned
  case held => grind
  case unregistered => grind
  case distinct => exact distinct
  case elsewhere => exact elsewhere
  case apart => grind
  case range => exact range
  case counted => grind
  case resumable => exact resumable

/-- `connect()` on a socket that is not registered yet. -/
theorem connect {fd : Fd} {socket : Socket}
    (table : Table ends (some (fd, socket)) items kern paused) (changed : Socket) :
    Table ends (some (fd, changed)) items (kern.setSocket fd changed) paused := by
  rcases table with ⟨registered, owned, held, unregistered, distinct, elsewhere, apart, range,
    counted, resumable⟩
  unfold Kernel.setSocket
  constructor
  case registered => grind
  case owned => exact owned
  case held => grind
  case unregistered => grind
  case distinct => exact distinct
  case elsewhere => exact elsewhere
  case apart => grind
  case range => exact range
  case counted => grind
  case resumable => exact resumable

/-- `close()` of a socket that was never registered. -/
theorem discard {fd : Fd} {socket : Socket}
    (table : Table ends (some (fd, socket)) items kern paused) :
    Table ends none items (kern.release fd) paused := by
  rcases table with ⟨registered, owned, held, unregistered, distinct, elsewhere, apart, range,
    counted, resumable⟩
  unfold Kernel.release
  constructor
  case registered => grind
  case owned => exact owned
  case held => grind
  case unregistered => simp
  case distinct => exact distinct
  case elsewhere => exact elsewhere
  case apart => grind
  case range => exact range
  case counted => grind
  case resumable => exact resumable

/-- A loose socket becomes an end. -/
theorem enroll {fd : Fd} {socket : Socket}
    (table : Table ends (some (fd, socket)) items kern paused)
    (small : fd < FD_SETSIZE) (vacant : ends k side = none) (interest : Interest) :
    Table (setEnd ends k side (some ⟨fd, interest, socket⟩)) none
      (Function.update items fd (some ⟨interest, .conn k⟩)) kern paused := by
  rcases table with ⟨registered, owned, held, unregistered, distinct, elsewhere, apart, range,
    counted, resumable⟩
  constructor
  case registered => grind
  case owned => cases side <;> grind
  case held => grind
  case unregistered => simp
  case distinct => grind
  case elsewhere => grind
  case apart => exact apart
  case range => grind
  case counted => exact counted
  case resumable => exact resumable

/-- An end is closed and unregistered. -/
theorem retire (table : Table ends none items kern paused) (has : ends k side = some a) :
    Table (setEnd ends k side none) none (Function.update items a.fd none) (kern.release a.fd)
      paused := by
  rcases table with ⟨registered, owned, held, unregistered, distinct, elsewhere, apart, range,
    counted, resumable⟩
  unfold Kernel.release
  constructor
  case registered => grind
  case owned => cases side <;> grind
  case held => grind
  case unregistered => simp
  case distinct => grind
  case elsewhere => grind
  case apart => grind
  case range => grind
  case counted => grind
  case resumable => exact resumable

/-- The interest of a descriptor of another module changes. -/
theorem armElsewhere (table : Table ends loose items kern paused) {fd : Fd} {item : Item}
    (found : items fd = some item) (other : item.isConn = false) (interest : Interest) :
    Table ends loose (Function.update items fd (some { item with interest })) kern paused := by
  rcases table with ⟨registered, owned, held, unregistered, distinct, elsewhere, apart, range,
    counted, resumable⟩
  have same : Item.isConn { item with interest } = false := other
  constructor
  case registered => grind
  case owned => grind [Item.isConn]
  case held => grind
  case unregistered => grind
  case distinct => exact distinct
  case elsewhere => grind
  case apart => exact apart
  case range => grind
  case counted => exact counted
  case resumable => exact resumable

/-- Which listener is paused may change to any descriptor of another module. -/
theorem pause (table : Table ends loose items kern paused) {paused' : Option Fd}
    (known : ∀ fd, paused' = some fd → kern.foreign fd = true) :
    Table ends loose items kern paused' :=
  ⟨table.registered, table.owned, table.held, table.unregistered, table.distinct, table.elsewhere,
    table.apart, table.range, table.counted, known⟩

/-- Another module gets a descriptor. -/
theorem openElsewhere (table : Table ends none items kern paused) {fd : Fd}
    (unused : kern.isOpen fd = false) :
    Table ends none items { kern with foreign := Function.update kern.foreign fd true } paused := by
  have closed : kern.sockets fd = none ∧ kern.foreign fd = false := by
    simpa [Kernel.isOpen] using unused
  rcases table with ⟨registered, owned, held, unregistered, distinct, elsewhere, apart, range,
    counted, resumable⟩
  constructor
  case registered => exact registered
  case owned => exact owned
  case held => exact held
  case unregistered => exact unregistered
  case distinct => exact distinct
  case elsewhere => grind
  case apart => grind
  case range => exact range
  case counted => exact counted
  case resumable => grind

/-- Another module registers a descriptor of its own. -/
theorem enrollElsewhere (table : Table ends none items kern paused) {fd : Fd} {item : Item}
    (known : kern.foreign fd = true) (small : fd < FD_SETSIZE) (other : item.isConn = false) :
    Table ends none (Function.update items fd (some item)) kern paused := by
  rcases table with ⟨registered, owned, held, unregistered, distinct, elsewhere, apart, range,
    counted, resumable⟩
  constructor
  case registered => grind
  case owned => grind
  case held => grind
  case unregistered => simp
  case distinct => exact distinct
  case elsewhere => grind
  case apart => exact apart
  case range => grind
  case counted => exact counted
  case resumable => exact resumable

/-- Another module unregisters a descriptor of its own. -/
theorem clearElsewhere (table : Table ends loose items kern paused) {fd : Fd} {item : Item}
    (found : items fd = some item) (other : item.isConn = false) :
    Table ends loose (Function.update items fd none) kern paused := by
  rcases table with ⟨registered, owned, held, unregistered, distinct, elsewhere, apart, range,
    counted, resumable⟩
  constructor
  case registered => grind
  case owned => grind
  case held => grind
  case unregistered => grind
  case distinct => exact distinct
  case elsewhere => grind
  case apart => exact apart
  case range => grind
  case counted => exact counted
  case resumable => exact resumable

/-- Another module closes a descriptor that is not registered any more. -/
theorem closeElsewhere (table : Table ends none items kern paused) {fd : Fd}
    (vacant : ∀ item, items fd = some item → item.isConn = true) (forgotten : paused ≠ some fd) :
    Table ends none items { kern with foreign := Function.update kern.foreign fd false }
      paused := by
  rcases table with ⟨registered, owned, held, unregistered, distinct, elsewhere, apart, range,
    counted, resumable⟩
  constructor
  case registered => exact registered
  case owned => exact owned
  case held => exact held
  case unregistered => exact unregistered
  case distinct => exact distinct
  case elsewhere => grind
  case apart => grind
  case range => exact range
  case counted => exact counted
  case resumable => grind

end Table

/-- A socket after a pending connection attempt ended. -/
def Socket.settled (socket : Socket) (error : Option Errno) : Socket :=
  if socket.status = .inProgress then
    { socket with
      status := match error with
        | none => .connected
        | some e => .failed e }
  else socket

theorem Kernel.sockets_settle (kern : Kernel) (fd : Fd) (error : Option Errno) (other : Fd) :
    (kern.settle fd error).sockets other =
      if other = fd then (kern.sockets other).map fun socket => socket.settled error
      else kern.sockets other := by
  unfold Kernel.settle Socket.settled
  by_cases same : other = fd
  · subst same
    cases found : kern.sockets other with
    | none => simp [found]
    | some socket =>
        by_cases pending : socket.status = .inProgress
        · cases error <;> simp [pending, Kernel.setSocket]
        · simp [pending, found]
  · cases found : kern.sockets fd with
    | none => simp [same]
    | some socket =>
        by_cases pending : socket.status = .inProgress
        · simp [pending, same, Kernel.setSocket]
        · simp [pending, same]

theorem Kernel.settle_frame (kern : Kernel) (fd : Fd) (error : Option Errno) :
    (kern.settle fd error).foreign = kern.foreign ∧ (kern.settle fd error).opened = kern.opened ∧
      (kern.settle fd error).closed = kern.closed := by
  unfold Kernel.settle Kernel.setSocket
  split
  · split <;> exact ⟨rfl, rfl, rfl⟩
  · exact ⟨rfl, rfl, rfl⟩

/-- The end after a pending connection attempt of `fd` ended. -/
def settleEnd (fd : Fd) (error : Option Errno) (a : End) : End :=
  { a with socket := if a.fd = fd then a.socket.settled error else a.socket }

/-- A connection attempt makes progress. -/
theorem Table.settle {ends : ConnId → Side → Option End} {items : Fd → Option Item} {kern : Kernel}
    {paused : Option Fd} (table : Table ends none items kern paused) (fd : Fd)
    (error : Option Errno) :
    Table (fun k side => (ends k side).map (settleEnd fd error)) none items (kern.settle fd error)
      paused := by
  rcases kern.settle_frame fd error with ⟨foreign, opened, closed⟩
  have sockets := kern.sockets_settle fd error
  have isOpen : ∀ other, ((kern.settle fd error).sockets other).isSome =
      (kern.sockets other).isSome := by
    intro other
    rw [sockets]
    split <;> simp
  rcases table with ⟨registered, owned, held, unregistered, distinct, elsewhere, apart, range,
    counted, resumable⟩
  constructor
  case registered =>
    intro k side a has
    rcases Option.map_eq_some_iff.mp has with ⟨before, mine, rfl⟩
    have := registered k side before mine
    have := sockets before.fd
    grind [settleEnd]
  case owned =>
    intro fd' i k item
    have same : ∀ side, ((ends k side).map (settleEnd fd error)).map End.fd =
        (ends k side).map End.fd := fun side => by
      rw [Option.map_map]
      rfl
    rw [same, same]
    exact owned fd' i k item
  case held =>
    intro fd' s found
    have before := isOpen fd'
    rw [found, Option.isSome_some] at before
    rcases Option.isSome_iff_exists.mp before.symm with ⟨s', found'⟩
    simpa using held fd' s' found'
  case unregistered => simp
  case distinct =>
    intro k side a side' a' first second same
    rcases Option.map_eq_some_iff.mp first with ⟨b, mine, rfl⟩
    rcases Option.map_eq_some_iff.mp second with ⟨b', mine', rfl⟩
    exact distinct k side b side' b' mine mine' same
  case elsewhere => grind
  case apart => grind
  case range => exact range
  case counted => grind
  case resumable => grind

end SocksProxy
