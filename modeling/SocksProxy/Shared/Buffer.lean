import Mathlib.Data.List.Basic
import SocksProxy.Library.Consumer

/-!
# Byte buffers

`struct buffer` of `buffer.c`: a fixed area with a read and a write pointer. The
pointers are offsets from `data`; the cells kept are those before the write
pointer, the only ones a read can reach. The three inequalities of the header
comment are fields of the structure, together with the property that the area
is reset as soon as everything in it was read: `buffer_read_adv` compacts at
that moment and no other operation makes the pointers meet.

The lemmas describe each operation by its effect on the pending bytes
(`contents`), on the free space and on the capacity, so that callers never look
at the pointers again.
-/

namespace SocksProxy

/-- `struct buffer`: the cells up to the write pointer, the read offset and the capacity. -/
structure Buffer where
  cells : List UInt8
  read : Nat
  limit : Nat
  read_le_write : read ≤ cells.length
  write_le_limit : cells.length ≤ limit
  reset_of_drained : read = cells.length → cells = []

namespace Buffer

/-- The write pointer, as an offset from `data`. -/
def write (b : Buffer) : Nat := b.cells.length

/-- The bytes between the read and the write pointer. -/
def contents (b : Buffer) : List UInt8 := b.cells.drop b.read

/-- `buffer_init`. -/
def init (n : Nat) : Buffer where
  cells := []
  read := 0
  limit := n
  read_le_write := Nat.le_refl 0
  write_le_limit := Nat.zero_le n
  reset_of_drained := fun _ => rfl

/-- `buffer_can_write`. -/
def canWrite (b : Buffer) : Bool := 0 < b.limit - b.write

/-- The byte count `buffer_write_ptr` reports. -/
def space (b : Buffer) : Nat := b.limit - b.write

/-- `buffer_can_read`. -/
def canRead (b : Buffer) : Bool := 0 < b.write - b.read

/-- The byte count `buffer_read_ptr` reports. -/
def pending (b : Buffer) : Nat := b.write - b.read

/-- `buffer_compact`. -/
def compact (b : Buffer) : Buffer :=
  if b.read = 0 then b
  else if _h : b.read = b.write then
    { b with
      cells := []
      read := 0
      read_le_write := Nat.le_refl 0
      write_le_limit := Nat.zero_le b.limit
      reset_of_drained := fun _ => rfl }
  else
    { b with
      cells := b.cells.drop b.read
      read := 0
      read_le_write := Nat.zero_le _
      write_le_limit := Nat.le_trans (by simp) b.write_le_limit
      reset_of_drained := fun drained => List.length_eq_zero_iff.mp drained.symm }

/-- Bytes stored at the write pointer, followed by `buffer_write_adv`. No caller stores more than
`buffer_write_ptr` reported; a longer input is cut there, as `recv` and `out_printf` do. -/
def store (b : Buffer) (bytes : List UInt8) : Buffer where
  cells := b.cells ++ bytes.take b.space
  read := b.read
  limit := b.limit
  read_le_write := Nat.le_trans b.read_le_write (by simp)
  write_le_limit := by
    have := b.write_le_limit
    simp [space, write]
    omega
  reset_of_drained := by
    intro drained
    have within := b.read_le_write
    simp only [List.length_append] at drained
    have nothing : bytes.take b.space = [] := List.length_eq_zero_iff.mp (by omega)
    simp [nothing, b.reset_of_drained (by omega)]

/-- `buffer_read_adv`. `send` never reports more bytes than it was given, so the assertion
`read <= write` of the source cannot fail; an advance past the write pointer is cut there. -/
def readAdv (b : Buffer) (n : Nat) : Buffer :=
  if h : b.read + n < b.write then
    { b with
      read := b.read + n
      read_le_write := Nat.le_of_lt h
      reset_of_drained := fun drained => absurd drained (Nat.ne_of_lt h) }
  else
    { b with
      cells := []
      read := 0
      read_le_write := Nat.le_refl 0
      write_le_limit := Nat.zero_le b.limit
      reset_of_drained := fun _ => rfl }

/-- `buffer_read`: one byte, or `0` from an empty buffer. -/
def readByte (b : Buffer) : UInt8 × Buffer :=
  if b.canRead then (b.cells.getD b.read 0, b.readAdv 1) else (0, b)

/-- `buffer_write`: one byte, dropped when the buffer is full. -/
def writeByte (b : Buffer) (c : UInt8) : Buffer :=
  if b.canWrite then b.store [c] else b

/-- `buffer_write` for each byte in turn. -/
def writeBytes (b : Buffer) (bytes : List UInt8) : Buffer := bytes.foldl writeByte b

@[simp]
theorem contents_init (n : Nat) : (init n).contents = [] := rfl

@[simp]
theorem limit_init (n : Nat) : (init n).limit = n := rfl

@[simp]
theorem length_contents (b : Buffer) : b.contents.length = b.pending := by
  simp [contents, pending, write]

theorem canRead_iff (b : Buffer) : b.canRead = true ↔ b.contents ≠ [] := by
  rw [← List.length_pos_iff, length_contents]
  simp [canRead, pending]

theorem canRead_eq_false_iff (b : Buffer) : b.canRead = false ↔ b.contents = [] := by
  rw [← Bool.not_eq_true, canRead_iff, not_not]

theorem canWrite_iff (b : Buffer) : b.canWrite = true ↔ 0 < b.space := by
  simp [canWrite, space]

theorem cells_eq_nil_of_contents (b : Buffer) (empty : b.contents = []) : b.cells = [] := by
  apply b.reset_of_drained
  have := List.length_eq_zero_iff.mpr empty
  have := b.read_le_write
  simp only [length_contents, pending, write] at *
  omega

theorem space_of_empty (b : Buffer) (empty : b.contents = []) : b.space = b.limit := by
  simp [space, write, b.cells_eq_nil_of_contents empty]

theorem pending_le_limit (b : Buffer) : b.pending ≤ b.limit := by
  have := b.write_le_limit
  simp only [pending, write]
  omega

@[simp]
theorem contents_compact (b : Buffer) : b.compact.contents = b.contents := by
  unfold compact
  split
  · rfl
  · split
    · rename_i drained
      simp [contents, drained, write]
    · simp [contents]

@[simp]
theorem limit_compact (b : Buffer) : b.compact.limit = b.limit := by
  unfold compact
  split
  · rfl
  · split <;> rfl

theorem read_compact (b : Buffer) : b.compact.read = 0 := by
  unfold compact
  split
  · next atStart => exact atStart
  · split <;> rfl

theorem space_compact (b : Buffer) : b.compact.space = b.limit - b.contents.length := by
  unfold compact
  split
  · rename_i atStart
    simp [space, write, contents, atStart]
  · split
    · rename_i drained
      simp [space, write, contents, drained]
    · simp [space, write, contents]

@[simp]
theorem contents_store (b : Buffer) (bytes : List UInt8) :
    (b.store bytes).contents = b.contents ++ bytes.take b.space := by
  simp [contents, store, List.drop_append_of_le_length b.read_le_write]

@[simp]
theorem limit_store (b : Buffer) (bytes : List UInt8) : (b.store bytes).limit = b.limit := rfl

@[simp]
theorem limit_readAdv (b : Buffer) (n : Nat) : (b.readAdv n).limit = b.limit := by
  unfold readAdv
  split <;> rfl

@[simp]
theorem contents_readAdv (b : Buffer) (n : Nat) :
    (b.readAdv n).contents = b.contents.drop n := by
  unfold readAdv
  split
  · simp [contents]
  · rename_i past
    have within := b.read_le_write
    simp only [write] at past
    simp only [contents, List.drop_drop, List.drop_nil]
    exact (List.drop_eq_nil_of_le (by omega)).symm

@[simp]
theorem limit_readByte (b : Buffer) : b.readByte.2.limit = b.limit := by
  unfold readByte
  split <;> simp

theorem readByte_of_contents {b : Buffer} {c : UInt8} {rest : List UInt8}
    (nonempty : b.contents = c :: rest) :
    b.readByte.1 = c ∧ b.readByte.2.contents = rest := by
  have readable : b.canRead = true := by
    rw [canRead_iff, nonempty]
    simp
  have first : b.cells.getD b.read 0 = c := by
    have := congrArg List.head? nonempty
    simp only [contents, List.head?_drop, List.head?_cons] at this
    simp [List.getD_eq_getElem?_getD, this]
  simp only [readByte, readable, if_true]
  exact ⟨first, by simp [nonempty]⟩

@[simp]
theorem limit_writeByte (b : Buffer) (c : UInt8) : (b.writeByte c).limit = b.limit := by
  unfold writeByte
  split <;> simp

@[simp]
theorem limit_writeBytes (b : Buffer) (bytes : List UInt8) :
    (b.writeBytes bytes).limit = b.limit := by
  induction bytes generalizing b with
  | nil => rfl
  | cons c rest ih =>
      change ((b.writeByte c).writeBytes rest).limit = b.limit
      rw [ih, limit_writeByte]

theorem space_store (b : Buffer) (bytes : List UInt8) :
    (b.store bytes).space = b.space - min b.space bytes.length := by
  simp only [space, store, write, List.length_append, List.length_take]
  omega

theorem writeByte_eq_store {b : Buffer} (c : UInt8) (room : 0 < b.space) :
    b.writeByte c = b.store [c] := by
  simp [writeByte, (b.canWrite_iff).mpr room]

/-- With room for all of them, written bytes are appended and none is dropped. -/
theorem contents_writeBytes {b : Buffer} {bytes : List UInt8} (room : bytes.length ≤ b.space) :
    (b.writeBytes bytes).contents = b.contents ++ bytes := by
  induction bytes generalizing b with
  | nil => simp [writeBytes]
  | cons c rest ih =>
      have positive : 0 < b.space := by
        simp only [List.length_cons] at room
        omega
      have stored := writeByte_eq_store c positive
      change ((b.writeByte c).writeBytes rest).contents = _
      rw [ih, stored, contents_store, List.take_of_length_le
        (by simpa using Nat.succ_le_of_lt positive)]
      · simp
      · rw [stored, space_store]
        simp only [List.length_cons, List.length_nil] at room ⊢
        omega

/-- The parsing loop shared by the three SOCKS5 parsers: while bytes are pending and the parser
has not stopped, read one and step. Each round reads a byte, so `pending` rounds suffice. -/
def feedLoop {State : Type} (consumer : Consumer State UInt8) :
    Nat → State → Buffer → State × Buffer
  | 0, state, b => (state, b)
  | rounds + 1, state, b =>
      if b.canRead && !consumer.final state then
        feedLoop consumer rounds (consumer.step state b.readByte.1) b.readByte.2
      else (state, b)

/-- A parser's `feed` function on a buffer. -/
def feed {State : Type} (consumer : Consumer State UInt8) (state : State) (b : Buffer) :
    State × Buffer :=
  feedLoop consumer b.pending state b

theorem feedLoop_eq_consume {State : Type} (consumer : Consumer State UInt8)
    (rounds : Nat) (state : State) (b : Buffer) (enough : b.pending ≤ rounds) :
    (feedLoop consumer rounds state b).1 = (consumer.consume state b.contents).1 ∧
      (feedLoop consumer rounds state b).2.contents =
        (consumer.consume state b.contents).2 ∧
      (feedLoop consumer rounds state b).2.limit = b.limit := by
  induction rounds generalizing state b with
  | zero =>
      have empty : b.contents = [] := by
        rw [← List.length_eq_zero_iff, length_contents]
        omega
      simp [feedLoop, empty]
  | succ rounds ih =>
      cases pendingBytes : b.contents with
      | nil =>
          have unreadable := (b.canRead_eq_false_iff).mpr pendingBytes
          simp [feedLoop, unreadable, pendingBytes]
      | cons c rest =>
          have readable : b.canRead = true := by
            rw [canRead_iff, pendingBytes]
            simp
          rcases readByte_of_contents pendingBytes with ⟨byte, remaining⟩
          by_cases stopped : consumer.final state = true
          · simp [feedLoop, readable, stopped, pendingBytes, consumer.consume_final stopped]
          · have running : consumer.final state = false := by simpa using stopped
            have shorter : b.readByte.2.pending ≤ rounds := by
              rw [← length_contents, remaining]
              rw [← length_contents, pendingBytes, List.length_cons] at enough
              omega
            have next := ih (consumer.step state c) b.readByte.2 shorter
            rw [remaining, limit_readByte] at next
            simp only [feedLoop, readable, running, Bool.not_false, Bool.and_self, if_true, byte]
            rw [consumer.consume_cons running]
            exact next

@[simp]
theorem feed_state {State : Type} (consumer : Consumer State UInt8) (state : State) (b : Buffer) :
    (b.feed consumer state).1 = (consumer.consume state b.contents).1 :=
  (feedLoop_eq_consume consumer b.pending state b (Nat.le_refl _)).1

@[simp]
theorem feed_contents {State : Type} (consumer : Consumer State UInt8) (state : State)
    (b : Buffer) :
    (b.feed consumer state).2.contents = (consumer.consume state b.contents).2 :=
  (feedLoop_eq_consume consumer b.pending state b (Nat.le_refl _)).2.1

@[simp]
theorem feed_limit {State : Type} (consumer : Consumer State UInt8) (state : State) (b : Buffer) :
    (b.feed consumer state).2.limit = b.limit :=
  (feedLoop_eq_consume consumer b.pending state b (Nat.le_refl _)).2.2

theorem length_feed_lt {State : Type} (consumer : Consumer State UInt8) {state : State} {b : Buffer}
    (running : consumer.final state = false)
    (stops : consumer.final (b.feed consumer state).1 = true) :
    (b.feed consumer state).2.contents.length < (b.feed consumer state).2.limit := by
  rw [feed_limit, feed_contents]
  rw [feed_state] at stops
  have shorter := consumer.length_rest_lt running stops
  rw [length_contents] at shorter
  exact Nat.lt_of_lt_of_le shorter b.pending_le_limit

/-- A consumer was started, and was fed from a buffer each time some bytes had arrived in it. -/
inductive FedBy {State : Type} (consumer : Consumer State UInt8) (start : State) :
    List UInt8 → State → Buffer → Prop where
  | start (b : Buffer) (empty : b.contents = []) : FedBy consumer start [] start b
  | feed {arrived : List UInt8} {state : State} {b : Buffer}
      (fed : FedBy consumer start arrived state b) (bytes : List UInt8) (b' : Buffer)
      (grown : b'.contents = b.contents ++ bytes) :
      FedBy consumer start (arrived ++ bytes) (b'.feed consumer state).1 (b'.feed consumer state).2

/-- How the bytes were cut into pieces makes no difference. -/
theorem FedBy.consume_eq {State : Type} {consumer : Consumer State UInt8} {start state : State}
    {arrived : List UInt8} {b : Buffer} (fed : FedBy consumer start arrived state b) :
    consumer.consume start arrived = (state, b.contents) := by
  induction fed with
  | start b empty => rw [consumer.consume_nil, empty]
  | @feed arrived state b fed bytes b' grown ih =>
      have ahead := consumer.consume_ahead start arrived bytes
      rw [ih] at ahead
      rw [← ahead, ← grown]
      exact Prod.ext (b'.feed_state consumer _).symm (b'.feed_contents consumer _).symm

/-- What arrived determines what the consumer has come to and what is left. -/
theorem FedBy.unique {State : Type} {consumer : Consumer State UInt8} {start state state' : State}
    {arrived : List UInt8} {b b' : Buffer} (fed : FedBy consumer start arrived state b)
    (fed' : FedBy consumer start arrived state' b') : state' = state ∧ b'.contents = b.contents :=
  Prod.mk.inj (fed'.consume_eq.symm.trans fed.consume_eq)

end Buffer

end SocksProxy
