import SocksProxy.Library.Prog
import SocksProxy.Server.Kernel
import SocksProxy.Server.Mgmt
import SocksProxy.Shared.Selector

/-!
# Management connections

The second half of `mgmt.c`: a management connection and its handlers. A handler
runs on one connection, on the resources all sessions share and on the answers
the kernel has for it. Loops take a number of rounds and fault when it is used
up while they would go on, and the memory of a connection is gone once its
descriptor was unregistered; that no handler faults is proved elsewhere.

`received` and `sent` are not fields of the program. They keep what `recv()`
delivered and what `send()` took.
-/

namespace SocksProxy

/-- `struct mgmt_conn`. -/
structure MgmtConn where
  session : MgmtSession
  parser : MgmtParser
  readBuffer : Buffer
  writeBuffer : Buffer
  closeAfterWrite : Bool
  received : List UInt8
  sent : List UInt8

/-- A connection as `mgmt_passive_accept` sets it up. -/
def newMgmtConn : MgmtConn where
  session := mgmtSessionInit
  parser := mgmtParserInit
  readBuffer := Buffer.init MGMT_LINE_MAX
  writeBuffer := Buffer.init MGMT_OUTPUT_BUFFER_SIZE
  closeAfterWrite := false
  received := []
  sent := []

/-- What a handler of a management connection works on. The item of the selector holds its interest
while the connection is registered. -/
structure MgmtState where
  conn : MgmtConn
  deps : MgmtDeps
  item : Option Interest
  sends : List SendAnswer

abbrev MgmtM := Prog MgmtState Fault

namespace MgmtM

/-- `key->data`, as long as it has not been freed. -/
def getConn : MgmtM MgmtConn := do
  let m ← get
  if m.item.isSome then pure m.conn else throw .useAfterFree

def modifyConn (change : MgmtConn → MgmtConn) : MgmtM Unit :=
  modify fun m => { m with conn := change m.conn }

/-- `selector_set_interest_key`. -/
def setInterest (interest : Interest) : MgmtM Unit :=
  modify fun m => { m with item := m.item.map fun _ => interest }

/-- `selector_unregister_fd`, whose close handler `mgmt_close` frees the connection. -/
def unregister : MgmtM Unit := modify fun m => { m with item := none }

def nextSend : MgmtM SendAnswer := do
  match (← get).sends with
  | [] => pure (.error .eagain)
  | answer :: later => do
      modify fun m => { m with sends := later }
      pure answer

end MgmtM

open MgmtM

/-- `has_output`. -/
def MgmtConn.hasOutput (c : MgmtConn) : Bool := c.writeBuffer.canRead

/-- What is printed for a line that is not handed to `mgmt_handle_line`. -/
def MgmtLineState.complaint : MgmtLineState → List UInt8
  | .tooLong => ascii "-ERR line too long\n"
  | _ => ascii "-ERR invalid\n"

/-- The body of the loop of `process_input_lines` once a line is complete. -/
def processLine (state : MgmtLineState) : MgmtM Unit := do
  let c ← getConn
  if state = .ready then
    modify fun m =>
      let handled := mgmtHandleLine c.session m.deps c.parser.text
      { m with
        deps := handled.deps
        conn :=
          { m.conn with
            session := handled.session
            writeBuffer := outPrintfAll m.conn.writeBuffer handled.printed
            closeAfterWrite := m.conn.closeAfterWrite || handled.close } }
  else
    modifyConn fun c => { c with writeBuffer := outPrintf c.writeBuffer state.complaint }
  modifyConn fun c => { c with parser := mgmtParserReset c.parser }

/-- The loop of `process_input_lines`. -/
def processInputLinesLoop : Nat → MgmtM Unit
  | 0 => throw .unbounded
  | rounds + 1 => do
      let c ← getConn
      if c.readBuffer.canRead && !c.hasOutput then do
        let (feed, readBuffer) := mgmtParserFeed c.parser c.readBuffer
        modifyConn fun c => { c with parser := feed.parser, readBuffer }
        if feed.state = .incomplete then pure ()
        else do
          processLine feed.state
          if (← getConn).closeAfterWrite then pure () else processInputLinesLoop rounds
      else pure ()

/-- `process_input_lines`: every round takes at least one byte. -/
def processInputLines : MgmtM Unit := do
  processInputLinesLoop ((← getConn).readBuffer.pending + 1)

/-- The loop of `mgmt_flush`. -/
def mgmtFlushLoop : Nat → MgmtM Bool
  | 0 => throw .unbounded
  | rounds + 1 => do
      let c ← getConn
      if c.hasOutput then
        match ← nextSend with
        | .taken n =>
            match c.writeBuffer.contents.take n with
            | [] => do
                unregister
                pure false
            | taken => do
                modifyConn fun c =>
                  { c with
                    writeBuffer := c.writeBuffer.readAdv taken.length
                    sent := c.sent ++ taken }
                mgmtFlushLoop rounds
        | .error errno =>
            if wouldBlock errno then pure true
            else do
              unregister
              pure false
      else pure true

/-- `mgmt_flush`: every round but the last sends at least one byte. -/
def mgmtFlush : MgmtM Bool := do
  mgmtFlushLoop ((← getConn).writeBuffer.pending + 1)

/-- The loop of `process_and_flush`. -/
def processAndFlushLoop : Nat → MgmtM Bool
  | 0 => throw .unbounded
  | rounds + 1 => do
      processInputLines
      if ← mgmtFlush then do
        let c ← getConn
        if !c.hasOutput && !c.closeAfterWrite && c.readBuffer.canRead then
          processAndFlushLoop rounds
        else pure true
      else pure false

/-- `process_and_flush`: every round but the first and the last takes at least one byte. -/
def processAndFlush : MgmtM Bool := do
  processAndFlushLoop ((← getConn).readBuffer.pending + 2)

/-- The part of `mgmt_read` after bytes have been received. -/
def mgmtReceived (bytes : List UInt8) : MgmtM Unit := do
  modifyConn fun c =>
    { c with readBuffer := c.readBuffer.store bytes, received := c.received ++ bytes }
  if ← processAndFlush then do
    let c ← getConn
    if c.closeAfterWrite && !c.hasOutput then unregister
    else setInterest (if c.hasOutput then OP_WRITE else OP_READ)
  else pure ()

/-- `mgmt_read`. -/
def mgmtRead (answer : RecvAnswer) : MgmtM Unit := do
  if (← getConn).writeBuffer.canWrite then do
    modifyConn fun c => { c with readBuffer := c.readBuffer.compact }
    let space := (← getConn).readBuffer.space
    -- Asking for no bytes would yield zero, which is taken for the end of the stream.
    if space = 0 then throw .recvWithoutRoom
    else
      match answer with
      | .data bytes =>
          match bytes.take space with
          | [] => unregister
          | received => mgmtReceived received
      | .error errno => if wouldBlock errno then pure () else unregister
  else setInterest OP_WRITE

/-- `mgmt_write`. -/
def mgmtWrite : MgmtM Unit := do
  if ← processAndFlush then do
    let c ← getConn
    if c.hasOutput then setInterest OP_WRITE
    else if c.closeAfterWrite then unregister
    else setInterest OP_READ
  else pure ()

/-- What can happen to a management connection: its descriptor is reported ready, with the answers
of the kernel to the calls its handler makes, or something else changes what is shared. -/
inductive MgmtEvent where
  | read (answer : RecvAnswer) (sends : List SendAnswer)
  | write (sends : List SendAnswer)
  | elsewhere (change : MgmtDeps → MgmtDeps)

namespace MgmtState

/-- A connection that was just accepted. -/
def accepted (deps : MgmtDeps) : MgmtState := ⟨newMgmtConn, deps, some OP_READ, []⟩

/-- The selector dispatches what the connection has asked for. -/
def step (m : MgmtState) : MgmtEvent → Except Fault MgmtState
  | .read answer sends =>
      if m.item = some OP_READ then (mgmtRead answer { m with sends }).map Prod.snd else .ok m
  | .write sends =>
      if m.item = some OP_WRITE then (mgmtWrite { m with sends }).map Prod.snd else .ok m
  | .elsewhere change => .ok { m with deps := change m.deps }

def run (m : MgmtState) : List MgmtEvent → Except Fault MgmtState
  | [] => .ok m
  | event :: rest =>
      match m.step event with
      | .error fault => .error fault
      | .ok m' => run m' rest

end MgmtState

end SocksProxy
