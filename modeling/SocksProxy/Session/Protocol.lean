import SocksProxy.Server.Socks5

/-!
# The SOCKS5 session

What one connection is for, without descriptors, buffers or timers: a session
reads the client's byte stream, decides, answers, and finally relays. `Step`
lists everything that can happen to a session. The handlers of the proxy are
shown to take only such steps, so that what holds of every session holds of
every connection.

The parameter `trusted` of `Step` says whether a reported connection can be
relied on: it is `True` where the readiness of a socket really belongs to it.
-/

namespace SocksProxy

/-- The state of a session. `unread` is received and not yet used, `out` is queued for the client
and not yet sent. -/
structure Session where
  phase : Option State
  neg : NegotiationParser
  auth : Socks5Auth
  request : Socks5Request
  method : UInt8
  authStatus : UInt8
  unread : List UInt8
  out : List UInt8
  targets : List Sockaddr
  lastErrno : Option Errno
  connected : Bool
  clientClosed : Bool
  originClosed : Bool
  clientWrShut : Bool
  originWrShut : Bool
  hist : List Obs

/-- The session a connection implements. -/
def Conn.session (c : Conn) : Session where
  phase := c.current
  neg := c.neg
  auth := c.auth
  request := c.request
  method := c.method
  authStatus := c.authStatus
  unread := c.readBuffer.contents
  out := c.writeBuffer.contents
  targets := c.nextAddr
  lastErrno := c.lastErrno
  connected := c.connected
  clientClosed := c.clientClosed
  originClosed := c.originClosed
  clientWrShut := c.clientWrShut
  originWrShut := c.originWrShut
  hist := c.hist

/-- Observations of what the network was asked for and reported. -/
def Obs.isNetwork : Obs → Bool
  | .lookup _ | .resolved _ | .attempt _ _ | .completed _ => true
  | _ => false

namespace Session

/-- A session nothing has happened to. -/
def initial : Session where
  phase := none
  neg := ⟨.version, 0, false, false⟩
  auth := Socks5Auth.zero
  request := Socks5Request.zero
  method := 0
  authStatus := 0
  unread := []
  out := []
  targets := []
  lastErrno := none
  connected := false
  clientClosed := false
  originClosed := false
  clientWrShut := false
  originWrShut := false
  hist := []

/-- Extend the history. -/
@[simps]
def note (s : Session) (what : Obs) : Session := { s with hist := what :: s.hist }

/-- What a phase initialises when it is entered. -/
def arrive (s : Session) : State → Session
  | .negRead => { s with neg := negotiationParserInit }
  | .authRead => { s with auth := authParserInit s.auth }
  | .reqRead => { s with request := requestParserInit s.request }
  | .relay =>
      { s.note (.leftover s.unread) with
        clientClosed := false
        originClosed := false
        clientWrShut := false
        originWrShut := false }
  | _ => s

/-- Move to a phase; staying in a phase is not a move. -/
def enter (s : Session) (next : State) : Session :=
  if s.phase = some next then s
  else ({ s with phase := some next, hist := .entered next :: s.hist } : Session).arrive next

/-- Write an access record. -/
def record (s : Session) (result : List UInt8) : Session :=
  s.note (.logged (loggedUser s.method s.auth) (formatRequestDst s.request) result)

/-- A failure is recorded only where there is a destination. -/
def failureRecord (method : UInt8) (auth : Socks5Auth) (request : Socks5Request) (rep : UInt8) :
    List Obs :=
  if requestDone request then
    [.logged (loggedUser method auth) (formatRequestDst request) (resultToken rep)]
  else []

def recordFailure (s : Session) (rep : UInt8) : Session :=
  { s with hist := failureRecord s.method s.auth s.request rep ++ s.hist }

/-- Queue the reply to the request. -/
def answer (s : Session) (rep : UInt8) (reply : List UInt8) (connected : Bool) : Session :=
  { s with connected, out := s.out ++ reply, hist := .replied rep reply :: s.hist }

/-- The request is refused with a reply that carries no address. -/
def fail (s : Session) (rep : UInt8) : Session :=
  ((s.recordFailure rep).answer rep (nullReply rep SOCKS5_ATYP_IPV4) false).enter .reqWrite

/-- The origin answered: the request is granted if its local address can be reported. -/
def succeed (s : Session) (status : SocketStatus) (name : Option Sockaddr) : Session :=
  let asked := (s.note (.established status)).note (.named name)
  match name.bind (addrReply SOCKS5_REP_SUCCESS) with
  | none => asked.fail SOCKS5_REP_GENERAL_FAILURE
  | some reply =>
      ((asked.answer SOCKS5_REP_SUCCESS reply true).record (ascii "OK")).enter .reqWrite

/-- The last thing the network was asked for or reported. -/
def latest (s : Session) : Option Obs := s.hist.find? Obs.isNetwork

/-- An attempt to connect has been begun and not been reported on. -/
def Pending (s : Session) : Prop := ∃ target, s.latest = some (.attempt target .pending)

/-- The last attempt to connect has failed. -/
def Failed (s : Session) : Prop :=
  (∃ target error, s.latest = some (.attempt target (.failed error))) ∨
    ∃ error, s.latest = some (.completed (some error))

/-- It is time to try the next candidate, or to give up: no answer of the network is waited for. -/
def Ready (s : Session) : Prop :=
  s.Failed ∨ (s.targets ≠ [] ∧ s.latest ≠ some (.lookup true) ∧ ¬s.Pending)

/-- The phases in which the client is read. -/
def Reading (s : Session) : Prop := ∃ state, s.phase = some state ∧ isReadState state = true

/-- The phases in which a reply is being sent. -/
def Answering (s : Session) : Prop :=
  s.phase = some .negWrite ∨ s.phase = some .authWrite ∨ s.phase = some .reqWrite

/-- The parser of the current phase still needs input. -/
def Hungry (s : Session) : Prop :=
  (s.phase = some .negRead ∧ s.neg.stopped = false) ∨
    (s.phase = some .authRead ∧ s.auth.stopped = false) ∨
    (s.phase = some .reqRead ∧ s.request.stopped = false)

/-- A CONNECT request was parsed and has not been answered. -/
def Requested (s : Session) : Prop :=
  s.phase = some .reqRead ∧ s.request.state = .done ∧ s.request.cmd = SOCKS5_CMD_CONNECT

/-- Connection attempts are made in three phases: at once for an address, after the lookup for a
name, and again after an attempt that was pending failed. -/
def Connecting (s : Session) : Prop :=
  s.Requested ∨ s.phase = some .reqResolve ∨ s.phase = some .reqConnecting

/-- The destination is an address rather than a name. -/
def Literal (s : Session) : Prop :=
  s.request.atyp = SOCKS5_ATYP_IPV4 ∨ s.request.atyp = SOCKS5_ATYP_IPV6

/-- Everything that can happen to a session. -/
inductive Step (trusted : Prop) : Session → Session → Prop where
  | start (s : Session) (fresh : s.phase = none) : Step trusted s (s.enter .negRead)
  | receive (s : Session) (bytes : List UInt8) (reading : s.Reading) :
      Step trusted s { s with unread := s.unread ++ bytes, hist := .received bytes :: s.hist }
  | parseNeg (s : Session) (phase : s.phase = some .negRead) :
      Step trusted s
        { s with
          neg := (NegotiationParser.consumer.consume s.neg s.unread).1
          unread := (NegotiationParser.consumer.consume s.neg s.unread).2 }
  | parseAuth (s : Session) (phase : s.phase = some .authRead) :
      Step trusted s
        { s with
          auth := (Socks5Auth.consumer.consume s.auth s.unread).1
          unread := (Socks5Auth.consumer.consume s.auth s.unread).2 }
  | parseRequest (s : Session) (phase : s.phase = some .reqRead) :
      Step trusted s
        { s with
          request := (Socks5Request.consumer.consume s.request s.unread).1
          unread := (Socks5Request.consumer.consume s.request s.unread).2 }
  | clientGone (s : Session) (hungry : s.Hungry) (drained : s.unread = []) :
      Step trusted s ((s.note .clientEof).enter .error)
  | ioError (s : Session) (begun : s.phase ≠ none) :
      Step trusted s ((s.note .ioError).enter .error)
  | badGreeting (s : Session) (phase : s.phase = some .negRead) (invalid : s.neg.state = .invalid) :
      Step trusted s (s.enter .error)
  | badCredentials (s : Session) (phase : s.phase = some .authRead)
      (invalid : s.auth.state = .error) : Step trusted s (s.enter .error)
  | choose (s : Session) (store : Users) (phase : s.phase = some .negRead)
      (complete : s.neg.state = .done) :
      Step trusted s
        (({ s with
            method := negotiationMethod s.neg (authRequired store)
            out := s.out ++ [SOCKS5_VERSION, negotiationMethod s.neg (authRequired store)]
            hist := .chose (negotiationMethod s.neg (authRequired store)) store ::
              s.hist } : Session).enter .negWrite)
  | validate (s : Session) (store : Users) (status : UInt8) (phase : s.phase = some .authRead)
      (complete : s.auth.state = .done)
      (judged : status =
        if usersValidate store s.auth.user s.auth.password then SOCKS5_AUTH_OK
        else SOCKS5_AUTH_FAIL) :
      Step trusted s
        (({ s with
            authStatus := status
            out := s.out ++ [SOCKS5_AUTH_VERSION, status]
            hist := .validated status store :: s.hist } : Session).enter .authWrite)
  | send (s : Session) (bytes rest : List UInt8) (answering : s.Answering ∨ s.phase = some .relay)
      (pending : s.out = bytes ++ rest) :
      Step trusted s { s with out := rest, hist := .sent bytes :: s.hist }
  | stall (s : Session) (answering : s.Answering) :
      Step trusted s ((s.note .stalled).enter .error)
  | methodRefused (s : Session) (phase : s.phase = some .negWrite) (flushed : s.out = [])
      (method : s.method = SOCKS5_METHOD_NONE) : Step trusted s (s.enter .error)
  | methodUserpass (s : Session) (phase : s.phase = some .negWrite) (flushed : s.out = [])
      (method : s.method = SOCKS5_METHOD_USERPASS) : Step trusted s (s.enter .authRead)
  | methodNoauth (s : Session) (phase : s.phase = some .negWrite) (flushed : s.out = [])
      (accepted : s.method ≠ SOCKS5_METHOD_NONE) (method : s.method ≠ SOCKS5_METHOD_USERPASS) :
      Step trusted s (s.enter .reqRead)
  | authRefused (s : Session) (phase : s.phase = some .authWrite) (flushed : s.out = [])
      (status : s.authStatus ≠ SOCKS5_AUTH_OK) : Step trusted s (s.enter .error)
  | authAccepted (s : Session) (phase : s.phase = some .authWrite) (flushed : s.out = [])
      (status : s.authStatus = SOCKS5_AUTH_OK) : Step trusted s (s.enter .reqRead)
  | badRequest (s : Session) (phase : s.phase = some .reqRead)
      (invalid : s.request.state = .error) :
      Step trusted s (s.fail SOCKS5_REP_GENERAL_FAILURE)
  | unsupported (s : Session) (phase : s.phase = some .reqRead) (complete : s.request.state = .done)
      (cmd : s.request.cmd ≠ SOCKS5_CMD_CONNECT) :
      Step trusted s (s.fail SOCKS5_REP_CMD_NOT_SUPPORTED)
  | literal (s : Session) (requested : s.Requested) (address : s.Literal)
      (untried : s.latest = none) :
      Step trusted s { s with targets := [literalAddr s.request] }
  | lookupRefused (s : Session) (requested : s.Requested) (name : ¬s.Literal)
      (untried : s.latest = none) :
      Step trusted s ((s.note (.lookup false)).fail SOCKS5_REP_GENERAL_FAILURE)
  | lookupQueued (s : Session) (requested : s.Requested) (name : ¬s.Literal)
      (untried : s.latest = none) :
      Step trusted s ((s.note (.lookup true)).enter .reqResolve)
  | resolvedNothing (s : Session) (phase : s.phase = some .reqResolve)
      (asked : s.latest = some (.lookup true)) :
      Step trusted s ((s.note (.resolved [])).fail SOCKS5_REP_GENERAL_FAILURE)
  | resolved (s : Session) (addresses : List Sockaddr) (phase : s.phase = some .reqResolve)
      (some : addresses ≠ []) (asked : s.latest = Option.some (.lookup true)) :
      Step trusted s { s.note (.resolved addresses) with targets := addresses }
  | attemptFails (s : Session) (target : Sockaddr) (rest : List Sockaddr) (error : Errno)
      (connecting : s.Connecting) (targets : s.targets = target :: rest) (ready : s.Ready) :
      Step trusted s
        { s.note (.attempt target (.failed error)) with
          targets := rest
          lastErrno := some error }
  | attemptUnusable (s : Session) (target : Sockaddr) (rest : List Sockaddr)
      (connecting : s.Connecting) (targets : s.targets = target :: rest) (ready : s.Ready) :
      Step trusted s
        (({ s.note (.attempt target .unregistrable) with targets := rest } : Session).fail
          SOCKS5_REP_GENERAL_FAILURE)
  | attemptPends (s : Session) (target : Sockaddr) (rest : List Sockaddr)
      (connecting : s.Connecting) (targets : s.targets = target :: rest) (ready : s.Ready) :
      Step trusted s
        (({ s.note (.attempt target .pending) with targets := rest } : Session).enter
          .reqConnecting)
  | attemptSucceeds (s : Session) (target : Sockaddr) (rest : List Sockaddr)
      (status : SocketStatus) (name : Option Sockaddr) (connecting : s.Connecting)
      (targets : s.targets = target :: rest) (sound : trusted → status = .connected)
      (ready : s.Ready) :
      Step trusted s
        (({ s.note (.attempt target .established) with targets := rest } : Session).succeed
          status name)
  | exhausted (s : Session) (connecting : s.Connecting) (targets : s.targets = [])
      (failed : s.Failed) :
      Step trusted s (s.fail (repFromErrno s.lastErrno))
  | completes (s : Session) (status : SocketStatus) (name : Option Sockaddr)
      (phase : s.phase = some .reqConnecting) (sound : trusted → status = .connected)
      (pending : s.Pending) :
      Step trusted s ((s.note (.completed none)).succeed status name)
  | completesFailing (s : Session) (error : Errno) (phase : s.phase = some .reqConnecting)
      (pending : s.Pending) :
      Step trusted s { s.note (.completed (some error)) with lastErrno := some error }
  | expire (s : Session) : Step trusted s (s.note .timedOut)
  | expireConnecting (s : Session) (phase : s.phase = some .reqConnecting) (pending : s.Pending) :
      Step trusted s ((s.note .timedOut).fail SOCKS5_REP_TTL_EXPIRED)
  | expireResolving (s : Session) (phase : s.phase = some .reqResolve)
      (asked : s.latest = some (.lookup true)) :
      Step trusted s ((s.note .timedOut).fail SOCKS5_REP_GENERAL_FAILURE)
  | openRelay (s : Session) (phase : s.phase = some .reqWrite) (flushed : s.out = [])
      (connected : s.connected = true) : Step trusted s (s.enter .relay)
  | refused (s : Session) (phase : s.phase = some .reqWrite) (flushed : s.out = [])
      (connected : s.connected = false) : Step trusted s (s.enter .done)
  | relayReceive (s : Session) (bytes : List UInt8) (phase : s.phase = some .relay)
      (isOpen : s.clientClosed = false) :
      Step trusted s { s with unread := s.unread ++ bytes, hist := .received bytes :: s.hist }
  | relayFetch (s : Session) (bytes : List UInt8) (phase : s.phase = some .relay)
      (isOpen : s.originClosed = false) :
      Step trusted s { s with out := s.out ++ bytes, hist := .fetched bytes :: s.hist }
  | relayForward (s : Session) (bytes rest : List UInt8) (phase : s.phase = some .relay)
      (pending : s.unread = bytes ++ rest) :
      Step trusted s { s with unread := rest, hist := .forwarded bytes :: s.hist }
  | relayStall (s : Session) (phase : s.phase = some .relay) : Step trusted s (s.note .stalled)
  | relayClientEof (s : Session) (phase : s.phase = some .relay) (isOpen : s.clientClosed = false) :
      Step trusted s { s.note .clientEof with clientClosed := true }
  | relayOriginEof (s : Session) (phase : s.phase = some .relay) (isOpen : s.originClosed = false) :
      Step trusted s { s.note .originEof with originClosed := true }
  | relayShutOrigin (s : Session) (phase : s.phase = some .relay) (closed : s.clientClosed = true)
      (delivered : s.unread = []) (once : s.originWrShut = false) :
      Step trusted s { s.note .shutOrigin with originWrShut := true }
  | relayShutClient (s : Session) (phase : s.phase = some .relay) (closed : s.originClosed = true)
      (delivered : s.out = []) (once : s.clientWrShut = false) :
      Step trusted s { s.note .shutClient with clientWrShut := true }
  | relayDone (s : Session) (phase : s.phase = some .relay) (client : s.clientWrShut = true)
      (origin : s.originWrShut = true) : Step trusted s (s.enter .done)

/-- The sessions that can come about. -/
def Reachable (trusted : Prop) (s : Session) : Prop :=
  Relation.ReflTransGen (Step trusted) initial s

theorem Reachable.step {trusted : Prop} {s s' : Session} (reachable : s.Reachable trusted)
    (step : Step trusted s s') : s'.Reachable trusted :=
  Relation.ReflTransGen.tail reachable step

end Session

end SocksProxy
