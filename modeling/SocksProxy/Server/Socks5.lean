import SocksProxy.Server.Connection

/-!
# SOCKS5 handlers

`socks5.c` and `stm.c`: the handlers of every phase, the state machine that
dispatches to them, the glue to the selector, and the teardown of a connection.
Functions appear in the order of the source, except that those which close a
connection come first, since the request phase calls them.
-/

namespace SocksProxy

/-! ## Lists and lifetime -/

/-- Dereference another connection for one of its link fields. -/
def requireAlive (other : Option ConnId) : M Unit := do
  match other with
  | none => pure ()
  | some k => onPool (do let _ ← Pool.slot k)

/-- `conn_list_push`. -/
def connListPush : M Unit := do
  let l ← get
  requireAlive l.sh.list.head
  modifyShared fun sh =>
    { sh with
      list :=
        { head := some l.id
          next := Function.update sh.list.next l.id sh.list.head
          prev :=
            let prev := Function.update sh.list.prev l.id none
            match sh.list.head with
            | none => prev
            | some first => Function.update prev first (some l.id) } }

/-- The list without `c`, as `conn_list_remove` relinks it. -/
def ConnList.remove (list : ConnList) (c : ConnId) : ConnList :=
  let before := list.prev c
  let after := list.next c
  { head := if before = none then after else list.head
    next :=
      let next := match before with
        | none => list.next
        | some k => Function.update list.next k after
      Function.update next c none
    prev :=
      let prev := match after with
        | none => list.prev
        | some k => Function.update list.prev k before
      Function.update prev c none }

/-- `conn_list_remove`. -/
def connListRemove : M Unit := do
  let l ← get
  requireAlive (l.sh.list.prev l.id)
  requireAlive (l.sh.list.next l.id)
  modifyShared fun sh => { sh with list := sh.list.remove l.id }

/-- `conn_mark_inactive`. -/
def connMarkInactive : M Unit := do
  let c ← getConn
  if c.activeCounted then do
    modifyConn fun c => { c with activeCounted := false }
    let l ← get
    modifyShared fun sh =>
      { sh with
        metrics := metricsConnectionClosed sh.metrics
        closings := (l.id, sh.metrics.activeConnections) :: sh.closings }
  else pure ()

/-- `socks5_conn_free_if_unreferenced`. -/
def socks5ConnFreeIfUnreferenced : M Unit := do
  let l ← get
  let slot ← onPool (Pool.slot l.id)
  if 0 < slot.references then pure ()
  else do
    connMarkInactive
    connListRemove
    let c ← getConn
    modify fun l =>
      { l with
        cell := .freed c slot.references
        sh :=
          { l.sh with
            pool := { l.sh.pool with slots := Function.update l.sh.pool.slots l.id none } } }

/-- `socks5_retry_accept`. -/
def socks5RetryAccept : M Unit := do
  match (← get).sh.acceptPausedFd with
  | none => pure ()
  | some fd =>
      if ← selectorSetInterest (some fd) OP_READ then
        modifyShared fun sh => { sh with acceptPausedFd := none }
      else pure ()

/-- `socks5_close`. -/
def socks5Close (fd : Fd) : M Unit := do
  let _ ← getConn
  closeFd fd
  modifyConn fun c =>
    if c.clientFd = some fd then { c with clientFd := none }
    else if c.originFd = some fd then { c with originFd := none }
    else c
  addReferences (-1)
  let c ← getConn
  let l ← get
  if c.clientFd = none ∧ c.originFd = none then do
    connMarkInactive
    locked (socks5ResolverCancelConn l.id)
  else do
    let _ ← locked (socks5ResolverTakeCompleted l.id)
  socks5ConnFreeIfUnreferenced
  socks5RetryAccept

/-- `selector_unregister_fd` on a descriptor of this connection. -/
def selectorUnregisterFd (fd : Fd) : M Unit := do
  let l ← get
  if FD_SETSIZE ≤ fd then pure ()
  else
    match l.sh.sel.items fd with
    | none => pure ()
    | some item =>
        if item.owner = .conn l.id then do
          socks5Close fd
          modifyShared fun sh => { sh with sel := sh.sel.clear fd }
        else throw .foreignConnection

/-- `socks5_done`. -/
def socks5Done : M Unit := do
  let c ← getConn
  modifyConn fun c => { c with clientFd := none, originFd := none }
  match c.originFd with
  | none => pure ()
  | some ofd => selectorUnregisterFd ofd
  match c.clientFd with
  | none => pure ()
  | some cfd => selectorUnregisterFd cfd

/-! ## Helpers -/

/-- `auth_required`. -/
def authRequired (users : Users) : Bool := 0 < usersCount users

/-- `fill_read_buffer`: the terminal state on end of file or error. -/
def fillReadBuffer (fd : Fd) : M (Option State) := do
  let c ← getConn
  match ← recv fd c.readBuffer.space with
  | .bytes received => do
      modifyConn fun c => { c with readBuffer := c.readBuffer.store received }
      pure none
  | .failed errno => pure (if wouldBlock errno then none else some .error)
  | .zero => pure (some .error)

/-- `feed_parser`: parse what is buffered and read from the socket only if more is needed. -/
def feedParser (fd : Fd) (feed : Conn → Conn) (stopped : Conn → Bool) : M (Option State) := do
  modifyConn feed
  if stopped (← getConn) then pure none
  else
    match ← fillReadBuffer fd with
    | some closed => pure (some closed)
    | none => do
        modifyConn feed
        pure none

/-- `feed_negotiation`. -/
def feedNegotiation (c : Conn) : Conn :=
  let (neg, readBuffer) := negotiationParserFeed c.neg c.readBuffer
  { c with neg, readBuffer }

/-- `feed_auth`. -/
def feedAuth (c : Conn) : Conn :=
  let (auth, readBuffer) := authParserFeed c.auth c.readBuffer
  { c with auth, readBuffer }

/-- `feed_request`. -/
def feedRequest (c : Conn) : Conn :=
  let (request, readBuffer) := requestParserFeed c.request c.readBuffer
  { c with request, readBuffer }

/-! ## Negotiation and authentication -/

/-- `negotiation_read`. -/
def negotiationRead (fd : Fd) : M State := do
  match ← feedParser fd feedNegotiation (fun c => c.neg.stopped) with
  | some closed => pure closed
  | none => do
      let c ← getConn
      if c.neg.state = .invalid then pure .error
      else if c.neg.state ≠ .done then pure .negRead
      else do
        let users := (← get).sh.users
        let (method, writeBuffer) := fillNegotiationReply c.neg c.writeBuffer (authRequired users)
        modifyConn fun c => { c with method, writeBuffer }
        observe (.chose method users)
        if ← selectorSetInterest (some fd) OP_WRITE then pure .negWrite else pure .error

/-- The common part of `negotiation_write`, `auth_write` and `request_write`: send what is pending
and tell whether all of it went out, or which state to return. -/
def sendPending (fd : Option Fd) (again : State) : M (Option State) := do
  let c ← getConn
  match ← send fd c.writeBuffer.contents with
  | .failed errno => pure (some (if wouldBlock errno then again else .error))
  | .zero => pure (some .error)
  | .bytes n => do
      modifyConn fun c => { c with writeBuffer := c.writeBuffer.readAdv n }
      pure (if (← getConn).writeBuffer.canRead then some again else none)

/-- `negotiation_write`. -/
def negotiationWrite (fd : Fd) : M State := do
  match ← sendPending (some fd) .negWrite with
  | some state => pure state
  | none => do
      let c ← getConn
      if c.method = SOCKS5_METHOD_NONE then pure .error
      else if ← selectorSetInterest (some fd) OP_READ then
        pure (if c.method = SOCKS5_METHOD_USERPASS then .authRead else .reqRead)
      else pure .error

/-- `auth_read`. -/
def authRead (fd : Fd) : M State := do
  match ← feedParser fd feedAuth (fun c => c.auth.stopped) with
  | some closed => pure closed
  | none => do
      let c ← getConn
      if c.auth.state = .error then pure .error
      else if c.auth.state ≠ .done then pure .authRead
      else do
        let users := (← get).sh.users
        let ok := usersValidate users c.auth.user c.auth.password
        let authStatus := if ok then SOCKS5_AUTH_OK else SOCKS5_AUTH_FAIL
        modifyConn fun c =>
          { c with authStatus, writeBuffer := fillAuthReply c.writeBuffer authStatus }
        observe (.validated authStatus users)
        if ← selectorSetInterest (some fd) OP_WRITE then pure .authWrite else pure .error

/-- `auth_write`. -/
def authWrite (fd : Fd) : M State := do
  match ← sendPending (some fd) .authWrite with
  | some state => pure state
  | none => do
      let c ← getConn
      if c.authStatus ≠ SOCKS5_AUTH_OK then pure .error
      else if ← selectorSetInterest (some fd) OP_READ then pure .reqRead
      else pure .error

/-! ## Requests -/

/-- `sanitize_domain`, for a destination of `cap` bytes. -/
def sanitizeDomain (cap : Nat) (src : List UInt8) : List UInt8 :=
  (src.take (cap - 1)).map fun byte => if 0x20 ≤ byte ∧ byte < 0x7f then byte else 0x3F

/-- The text `format_request_dst` writes. -/
def formatRequestDst (r : Socks5Request) : List UInt8 :=
  let host :=
    if r.atyp = SOCKS5_ATYP_DOMAIN then sanitizeDomain 256 r.address
    else if r.atyp = SOCKS5_ATYP_IPV6 then inetNtop6 (r.dstAddr.take 16)
    else inetNtop4 (r.dstAddr.take 4)
  host ++ ascii ":" ++ decimal r.dstPort.toNat

/-- `result_token`. -/
def resultToken (rep : UInt8) : List UInt8 :=
  if rep = SOCKS5_REP_SUCCESS then ascii "OK"
  else if rep = SOCKS5_REP_CONNECTION_REFUSED then ascii "CONN-REFUSED"
  else if rep = SOCKS5_REP_HOST_UNREACHABLE then ascii "HOST-UNREACH"
  else if rep = SOCKS5_REP_NETWORK_UNREACHABLE then ascii "NET-UNREACH"
  else if rep = SOCKS5_REP_TTL_EXPIRED then ascii "TTL-EXPIRED"
  else if rep = SOCKS5_REP_CMD_NOT_SUPPORTED then ascii "CMD-NOT-SUPPORTED"
  else ascii "GENERAL-FAILURE"

/-- The user name `socks5_log_access` writes: the authenticated one, or a dash. -/
def loggedUser (method : UInt8) (auth : Socks5Auth) : List UInt8 :=
  if method = SOCKS5_METHOD_USERPASS ∧ 0 < auth.ulen then
    auth.user.map fun byte => if 0x20 < byte ∧ byte < 0x7f then byte else 0x3F
  else ascii "-"

/-- `socks5_log_access`. -/
def socks5LogAccess (result : List UInt8) : M Unit := do
  let c ← getConn
  let user := loggedUser c.method c.auth
  let dst := formatRequestDst c.request
  modifyShared fun sh =>
    { sh with log := accessLogRecord sh.log sh.env.calendar user dst result }
  observe (.logged user dst result)

/-- The log entry of `request_fail`: only a request that was parsed has a destination. -/
def logFailure (rep : UInt8) : M Unit := do
  if requestDone (← getConn).request then socks5LogAccess (resultToken rep) else pure ()

/-- The part of `request_fail` that closes the origin socket, if there is one. -/
def abandonOrigin : M Unit := do
  match (← getConn).originFd with
  | none => pure ()
  | some ofd => do
      modifyConn fun c => { c with originFd := none }
      selectorUnregisterFd ofd

/-- `request_fail`. -/
def requestFail (rep : UInt8) : M State := do
  modifyConn fun c => { c with connected := false }
  logFailure rep
  modifyConn fun c =>
    { c with writeBuffer := fillRequestReply c.writeBuffer rep SOCKS5_ATYP_IPV4 }
  observe (.replied rep (nullReply rep SOCKS5_ATYP_IPV4))
  abandonOrigin
  if ← selectorSetInterest (← getConn).clientFd OP_WRITE then pure .reqWrite else pure .error

/-- `rep_from_errno`. -/
def repFromErrno : Option Errno → UInt8
  | some .econnrefused => SOCKS5_REP_CONNECTION_REFUSED
  | some .enetunreach => SOCKS5_REP_NETWORK_UNREACHABLE
  | some .ehostunreach => SOCKS5_REP_HOST_UNREACHABLE
  | some .etimedout => SOCKS5_REP_TTL_EXPIRED
  | _ => SOCKS5_REP_GENERAL_FAILURE

/-- The first `n` bytes of the destination address. -/
def Socks5Request.addressVector (r : Socks5Request) (n : Nat) : List.Vector UInt8 n :=
  ⟨r.dstAddr.take n, by simp⟩

/-- The address `build_literal_addr` makes of an IPv4 or IPv6 destination. -/
def literalAddr (r : Socks5Request) : Sockaddr :=
  if r.atyp = SOCKS5_ATYP_IPV4 then .inet (r.addressVector 4) (htons r.dstPort)
  else .inet6 (r.addressVector 16) (htons r.dstPort)

/-- `build_literal_addr`. -/
def buildLiteralAddr : M Unit := modifyConn fun c => { c with nextAddr := [literalAddr c.request] }

/-- The status of the connection attempt of the current origin socket. -/
def originStatus (c : Conn) (kern : Kernel) : SocketStatus :=
  match c.originFd.bind kern.sockets with
  | none => .unconnected
  | some socket => socket.status

/-- `getsockname(c->origin_fd, …)`. -/
def getsockname : M (Option Sockaddr) := do
  let l ← get
  let c ← getConn
  pure
    (match l.sh.env.getsockname, c.originFd.bind l.sh.kern.sockets with
      | none, some socket => some socket.localName
      | _, _ => none)

/-- `request_connect_success`. -/
def requestConnectSuccess : M State := do
  observe (.established (originStatus (← getConn) (← get).sh.kern))
  let name ← getsockname
  observe (.named name)
  match name with
  | none => requestFail SOCKS5_REP_GENERAL_FAILURE
  | some sa => do
      modifyConn fun c => { c with connected := true }
      match fillRequestReplyAddr (← getConn).writeBuffer SOCKS5_REP_SUCCESS sa with
      | none => requestFail SOCKS5_REP_GENERAL_FAILURE
      | some writeBuffer => do
          modifyConn fun c => { c with writeBuffer }
          observe (.replied SOCKS5_REP_SUCCESS ((addrReply SOCKS5_REP_SUCCESS sa).getD []))
          socks5LogAccess (ascii "OK")
          if ← selectorSetInterest (← getConn).originFd OP_NOOP then
            if ← selectorSetInterest (← getConn).clientFd OP_WRITE then pure .reqWrite
            else pure .error
          else pure .error

def nextAttempt : M AttemptAnswer := do
  match (← get).sh.env.attempts with
  | [] =>
      pure { socket := .error .emfile, nio := none, connect := none, localName := .other }
  | answer :: later => do
      modifyShared fun sh => { sh with env := { sh.env with attempts := later } }
      pure answer

/-- The descriptor `socket()` yields; a number that is in use is never handed out. A connection must
have given up its origin socket before it opens another. -/
def openSocket (answer : AttemptAnswer) : M (Except Errno Fd) := do
  match answer.socket with
  | .error errno => pure (.error errno)
  | .ok fd =>
      if (← get).sh.kern.isOpen fd then pure (.error .emfile)
      else if (← getConn).originFd ≠ none then throw .secondOrigin
      else do
        modifyShared fun sh =>
          { sh with kern := sh.kern.handOut fd ⟨.unconnected, answer.localName⟩ }
        pure (.ok fd)

/-- `connect()` on a fresh socket: how far it gets at once. -/
def connectSocket (fd : Fd) (answer : AttemptAnswer) : M Unit :=
  modifyShared fun sh =>
    { sh with
      kern := sh.kern.setSocket fd
        { status := match answer.connect with
            | none => .connected
            | some .einprogress => .inProgress
            | some errno => .failed errno
          localName := answer.localName } }

/-- Give up a candidate address of `request_connect`. -/
def failAttempt (target : Sockaddr) (errno : Errno) : M Unit := do
  modifyConn fun c => { c with lastErrno := some errno }
  observe (.attempt target (.failed errno))

/-- Register the origin socket of a candidate that may work; `false` if the selector refuses. -/
def registerOrigin (fd : Fd) (interest : Interest) : M Bool := do
  modifyConn fun c => { c with originFd := some fd }
  if ← selectorRegister fd interest then do
    addReferences 1
    pure true
  else do
    closeFd fd
    modifyConn fun c => { c with originFd := none }
    pure false

/-- One round of the loop of `request_connect`; `none` when the next candidate is to be tried. -/
def tryCandidate (target : Sockaddr) : M (Option State) := do
  let answer ← nextAttempt
  match ← openSocket answer with
  | .error errno => do
      failAttempt target errno
      pure none
  | .ok fd =>
      match answer.nio with
      | some errno => do
          closeFd fd
          failAttempt target errno
          pure none
      | none => do
          connectSocket fd answer
          match answer.connect with
          | none =>
              if ← registerOrigin fd OP_NOOP then do
                observe (.attempt target .established)
                let next ← requestConnectSuccess
                pure (some next)
              else do
                observe (.attempt target .unregistrable)
                let next ← requestFail SOCKS5_REP_GENERAL_FAILURE
                pure (some next)
          | some .einprogress =>
              if ← registerOrigin fd OP_WRITE then do
                observe (.attempt target .pending)
                if ← selectorSetInterest (← getConn).clientFd OP_NOOP then
                  pure (some .reqConnecting)
                else pure (some .error)
              else do
                observe (.attempt target .unregistrable)
                let next ← requestFail SOCKS5_REP_GENERAL_FAILURE
                pure (some next)
          | some errno => do
              closeFd fd
              failAttempt target errno
              pure none

/-- `request_connect`, over the rest of `next_addr`. -/
def requestConnectFrom : List Sockaddr → M State
  | [] => do requestFail (repFromErrno (← getConn).lastErrno)
  | target :: rest => do
      modifyConn fun c => { c with nextAddr := rest }
      match ← tryCandidate target with
      | some next => pure next
      | none => requestConnectFrom rest

/-- `request_connect`. -/
def requestConnect : M State := do requestConnectFrom (← getConn).nextAddr

/-- `request_read`. -/
def requestRead (fd : Fd) : M State := do
  match ← feedParser fd feedRequest (fun c => c.request.stopped) with
  | some closed => pure closed
  | none => do
      let r := (← getConn).request
      if r.state = .error then requestFail SOCKS5_REP_GENERAL_FAILURE
      else if r.state ≠ .done then pure .reqRead
      else if r.cmd ≠ SOCKS5_CMD_CONNECT then requestFail SOCKS5_REP_CMD_NOT_SUPPORTED
      else if r.atyp = SOCKS5_ATYP_IPV4 ∨ r.atyp = SOCKS5_ATYP_IPV6 then do
        buildLiteralAddr
        requestConnect
      else if ← selectorSetInterest (some fd) OP_NOOP then do
        let l ← get
        let queued ← locked (socks5ResolverQueueJob l.id (← getConn).clientFd r.address
          (decimal r.dstPort.toNat) l.sh.env.poolStart l.sh.env.calloc)
        observe (.lookup queued)
        if queued then pure .reqResolve else requestFail SOCKS5_REP_GENERAL_FAILURE
      else pure .error

/-- `request_resolve_done`. -/
def requestResolveDone : M State := do
  let l ← get
  if ← locked (socks5ResolverTakeCompleted l.id) then do
    let slot ← onPool (Pool.slot l.id)
    observe (.resolved slot.resolution)
    if slot.resolution = [] then requestFail SOCKS5_REP_GENERAL_FAILURE
    else do
      modifyConn fun c => { c with nextAddr := slot.resolution }
      requestConnect
  else pure .reqResolve

/-- `getsockopt(fd, SOL_SOCKET, SO_ERROR, …)`: zero both for a connected socket and for one that is
still connecting. -/
def socketError (fd : Fd) : M (Option Errno) := do
  let l ← get
  pure
    (match l.sh.env.getsockopt with
      | some errno => some errno
      | none =>
          match l.sh.kern.sockets fd with
          | some ⟨.failed errno, _⟩ => some errno
          | _ => none)

/-- The part of `request_connecting` that closes a socket whose connection failed. -/
def closeFailedOrigin : M Unit := do
  match (← getConn).originFd with
  | none => pure ()
  | some ofd => selectorUnregisterFd ofd

/-- `request_connecting`. -/
def requestConnecting (fd : Fd) : M State := do
  let soError ← socketError fd
  observe (.completed soError)
  match soError with
  | none => requestConnectSuccess
  | some errno => do
      modifyConn fun c => { c with lastErrno := some errno }
      closeFailedOrigin
      modifyConn fun c => { c with originFd := none }
      requestConnect

/-- `request_write`. -/
def requestWrite : M State := do
  match ← sendPending (← getConn).clientFd .reqWrite with
  | some state => pure state
  | none => pure (if (← getConn).connected then .relay else .done)

/-! ## Relay -/

/-- Half-close towards the origin once the client closed and its bytes are delivered. -/
def propagateClientClose : M Unit := do
  let c ← getConn
  if c.clientClosed && !c.readBuffer.canRead && !c.originWrShut then do
    shutdownWrite c.originFd
    modifyConn fun c => { c with originWrShut := true }
  else pure ()

/-- Half-close towards the client once the origin closed and its bytes are delivered. -/
def propagateOriginClose : M Unit := do
  let c ← getConn
  if c.originClosed && !c.writeBuffer.canRead && !c.clientWrShut then do
    shutdownWrite c.clientFd
    modifyConn fun c => { c with clientWrShut := true }
  else pure ()

/-- The interest `relay_update` computes for the client. -/
def relayClientInterest (c : Conn) : Interest where
  read := !c.clientClosed && c.readBuffer.canWrite
  write := c.writeBuffer.canRead && !c.clientWrShut

/-- The interest `relay_update` computes for the origin. -/
def relayOriginInterest (c : Conn) : Interest where
  read := !c.originClosed && c.writeBuffer.canWrite
  write := c.readBuffer.canRead && !c.originWrShut

/-- Arm the client unless it was last armed alike; `false` when the selector refuses. -/
def relayArmClient : M Bool := do
  let c ← getConn
  let ci := relayClientInterest c
  if ci ≠ c.clientInterest then do
    if ← selectorSetInterest c.clientFd ci then do
      modifyConn fun c => { c with clientInterest := ci }
      pure true
    else pure false
  else pure true

/-- The same for the origin. -/
def relayArmOrigin : M Bool := do
  let c ← getConn
  let oi := relayOriginInterest c
  if oi ≠ c.originInterest then do
    if ← selectorSetInterest c.originFd oi then do
      modifyConn fun c => { c with originInterest := oi }
      pure true
    else pure false
  else pure true

/-- `relay_update`. -/
def relayUpdate : M State := do
  modifyConn fun c =>
    { c with readBuffer := c.readBuffer.compact, writeBuffer := c.writeBuffer.compact }
  propagateClientClose
  propagateOriginClose
  let c ← getConn
  if c.clientWrShut && c.originWrShut then pure .done
  else if ← relayArmClient then
    if ← relayArmOrigin then pure .relay else pure .error
  else pure .error

/-- `relay_init`. -/
def relayInit : M Unit := do
  observe (.leftover (← getConn).readBuffer.contents)
  modifyConn fun c =>
    { c with
      clientClosed := false
      originClosed := false
      clientWrShut := false
      originWrShut := false }
  if (← relayUpdate) = .error then modifyConn fun c => { c with arrivalError := true }
  else pure ()

/-- The buffer `relay_flush` drains. -/
def relaySource (c : Conn) (toClient : Bool) : Buffer :=
  if toClient then c.writeBuffer else c.readBuffer

def relaySourceAdv (c : Conn) (toClient : Bool) (n : Nat) : Conn :=
  if toClient then { c with writeBuffer := c.writeBuffer.readAdv n }
  else { c with readBuffer := c.readBuffer.readAdv n }

/-- The loop of `relay_flush`; every round that goes on takes at least one byte. -/
def relayFlushLoop (toClient : Bool) : Nat → M State
  | 0 => do
      if (relaySource (← getConn) toClient).canRead then throw .unbounded else pure .relay
  | rounds + 1 => do
      let c ← getConn
      if (relaySource c toClient).canRead then
        match ← send (if toClient then c.clientFd else c.originFd)
            (relaySource c toClient).contents with
        | .bytes n => do
            modifyConn fun c => relaySourceAdv c toClient n
            relayFlushLoop toClient rounds
        | .failed errno => pure (if wouldBlock errno then .relay else .error)
        | .zero => pure .relay
      else pure .relay

/-- `relay_flush`. -/
def relayFlush (toClient : Bool) : M State := do
  relayFlushLoop toClient (relaySource (← getConn) toClient).pending

/-- `relay_read`. -/
def relayRead (fd : Fd) : M State := do
  let c ← getConn
  let fromClient : Bool := c.clientFd = some fd
  match ← recv fd (if fromClient then c.readBuffer else c.writeBuffer).space with
  | .bytes received => do
      modifyConn fun c =>
        if fromClient then { c with readBuffer := c.readBuffer.store received }
        else { c with writeBuffer := c.writeBuffer.store received }
      modifyShared fun sh =>
        { sh with
          metrics :=
            if fromClient then metricsBytesClientToOrigin sh.metrics received.length
            else metricsBytesOriginToClient sh.metrics received.length }
      if (← relayFlush (!fromClient)) = .error then pure .error else relayUpdate
  | .failed errno => pure (if wouldBlock errno then .relay else .error)
  | .zero => do
      modifyConn fun c =>
        if fromClient then { c with clientClosed := true } else { c with originClosed := true }
      relayUpdate

/-- `relay_write`. -/
def relayWrite (fd : Fd) : M State := do
  let toClient : Bool := (← getConn).clientFd = some fd
  if (← relayFlush toClient) = .error then pure .error else relayUpdate

/-! ## State machine -/

/-- The `on_arrival` column of `socks5_states`. -/
def onArrival : State → M Unit
  | .negRead => modifyConn fun c => { c with neg := negotiationParserInit }
  | .authRead => modifyConn fun c => { c with auth := authParserInit c.auth }
  | .reqRead => modifyConn fun c => { c with request := requestParserInit c.request }
  | .relay => relayInit
  | _ => pure ()

/-- The `on_read_ready` column. -/
def onReadReady (fd : Fd) : State → Option (M State)
  | .negRead => some (negotiationRead fd)
  | .authRead => some (authRead fd)
  | .reqRead => some (requestRead fd)
  | .relay => some (relayRead fd)
  | _ => none

/-- The `on_write_ready` column. -/
def onWriteReady (fd : Fd) : State → Option (M State)
  | .negWrite => some (negotiationWrite fd)
  | .authWrite => some (authWrite fd)
  | .reqConnecting => some (requestConnecting fd)
  | .reqWrite => some requestWrite
  | .relay => some (relayWrite fd)
  | _ => none

/-- The `on_block_ready` column. -/
def onBlockReady : State → Option (M State)
  | .reqResolve => some requestResolveDone
  | _ => none

/-- Make `state` the current one; the history notes a change. -/
def setCurrent (state : State) : M Unit :=
  modifyConn fun c =>
    { c with
      current := some state
      hist := if c.current = some state then c.hist else .entered state :: c.hist }

/-- `handle_first`. -/
def handleFirst : M Unit := do
  if (← getConn).current = none then do
    setCurrent .negRead
    onArrival .negRead
  else pure ()

/-- `jump`; no state has an `on_departure`. -/
def jump (next : State) : M Unit := do
  if maxState < next.code then throw .abort
  else if (← getConn).current = some next then pure ()
  else do
    setCurrent next
    onArrival next

/-- `stm_handler_read`, `stm_handler_write` and `stm_handler_block`, which differ in the column of
the table they look at. -/
def stmHandler (column : State → Option (M State)) : M State := do
  handleFirst
  match (← getConn).current.bind column with
  | none => throw .abort
  | some handler => do
      let ret ← handler
      jump ret
      pure ret

/-- `stm_state`. -/
def stmState (c : Conn) : State := c.current.getD .negRead

/-- `is_read_state`. -/
def isReadState (s : State) : Bool := s = .negRead || s = .authRead || s = .reqRead

/-- The loop of `socks5_advance`. A read state is never followed by another one without a write in
between, so two rounds are more than it makes. -/
def advanceLoop (fd : Fd) : Nat → State → M State
  | 0, st => do
      if isReadState st && (← getConn).readBuffer.canRead then throw .unbounded else pure st
  | rounds + 1, st => do
      if isReadState st && (← getConn).readBuffer.canRead then do
        let st ← stmHandler (onReadReady fd)
        advanceLoop fd rounds st
      else pure st

/-- `socks5_advance`. -/
def socks5Advance (fd : Fd) (st : State) : M Unit := do
  let now := (← get).sh.env.now
  modifyConn fun c => { c with lastActivity := now }
  let st ← advanceLoop fd 2 st
  if st = .error ∨ st = .done ∨ (← getConn).arrivalError = true then socks5Done else pure ()

/-- `socks5_read`. -/
def socks5Read (fd : Fd) : M Unit := do
  let st ← stmHandler (onReadReady fd)
  socks5Advance fd st

/-- `socks5_write`. -/
def socks5Write (fd : Fd) : M Unit := do
  let st ← stmHandler (onWriteReady fd)
  socks5Advance fd st

/-- `socks5_block`. -/
def socks5Block (fd : Fd) : M Unit := do
  if stmState (← getConn) ≠ .reqResolve then pure ()
  else do
    let st ← stmHandler onBlockReady
    socks5Advance fd st

/-! ## Reaper -/

/-- `idle_timeout_expired`. -/
def idleTimeoutExpired (now lastActivity timeout : Int) : Bool := timeout < now - lastActivity

/-- What the reaper does with the state a request handler returned; it does not go through `jump`.
-/
def reapNext (now : Int) (next : State) : M Unit := do
  if next = .error ∨ next = .done then socks5Done
  else do
    modifyConn fun c => { c with lastActivity := now }
    setCurrent next

/-- Whether the connection waits for a lookup that has completed. -/
def lookupCompleted : M Bool := do
  let l ← get
  if stmState (← getConn) = .reqResolve then locked (socks5ResolverIsCompleted l.id) else pure false

/-- The part of `socks5_reap_idle` that ends what a connection was doing when it timed out. -/
def reapExpired (now : Int) : M Unit := do
  let l ← get
  let st := stmState (← getConn)
  observe .timedOut
  if st = .reqConnecting then do
    let next ← requestFail SOCKS5_REP_TTL_EXPIRED
    reapNext now next
  else if st = .reqResolve then do
    locked (socks5ResolverCancelConn l.id)
    if (← getConn).clientFd = none then do
      connMarkInactive
      socks5ConnFreeIfUnreferenced
    else do
      let next ← requestFail SOCKS5_REP_GENERAL_FAILURE
      reapNext now next
  else socks5Done

/-- The body of the loop of `socks5_reap_idle`, after `nxt` was read. -/
def reapConn : M Unit := do
  let l ← get
  let now := l.sh.env.now
  if ← lookupCompleted then do
    let next ← requestResolveDone
    reapNext now next
  else if idleTimeoutExpired now (← getConn).lastActivity l.sh.config.connTimeout.toNat then
    reapExpired now
  else pure ()

end SocksProxy
