import SocksProxy.Safety.Teardown
import SocksProxy.Session.Guarantees
import SocksProxy.Session.Network

/-!
# Phases of a connection

What a handler may rely on and what it must leave behind. `Fits` relates the
fields of a connection to what it holds, `Armed` says which events are armed in
every phase. A handler that returns a state has taken steps of the session that
lead to that state, and has armed what the state needs.
-/

namespace SocksProxy

open Prog

/-- The descriptor fields are those of the ends, and the buffers have room for any reply. -/
structure Fits (c : Conn) (e : Ends) : Prop where
  present : e.client.isSome = true
  clientFd : c.clientFd = e.client.map End.fd
  originFd : c.originFd = e.origin.map End.fd
  readLimit : 512 ≤ c.readBuffer.limit
  writeLimit : 512 ≤ c.writeBuffer.limit
  arrived : c.arrivalError = false
  cached : c.current ≠ some .relay → c.clientInterest = OP_NOOP ∧ c.originInterest = OP_NOOP

/-- The interests a relay remembers are those of its ends. -/
structure RelayCached (c : Conn) (e : Ends) : Prop where
  client : e.client.map End.interest = some c.clientInterest
  origin : e.origin.map End.interest = some c.originInterest

/-- The free space of both buffers is in one piece. -/
def Conn.Packed (c : Conn) : Prop := c.readBuffer.read = 0 ∧ c.writeBuffer.read = 0

/-- A client that closed and whose bytes are delivered has its half-close passed on. -/
def Conn.ClientPassed (c : Conn) : Prop :=
  c.clientClosed = true → c.readBuffer.contents = [] → c.originWrShut = true

/-- The same for the origin. -/
def Conn.OriginPassed (c : Conn) : Prop :=
  c.originClosed = true → c.writeBuffer.contents = [] → c.clientWrShut = true

/-- The interests of a relay are the ones its buffers and its open directions call for, which
`relay_update` has brought up to date. -/
structure RelayArmed (c : Conn) (e : Ends) : Prop extends RelayCached c e where
  clientWanted : c.clientInterest = relayClientInterest c
  originWanted : c.originInterest = relayOriginInterest c
  packed : c.Packed
  clientPassed : c.ClientPassed
  originPassed : c.OriginPassed
  goesOn : ¬(c.clientWrShut = true ∧ c.originWrShut = true)

/-- The read buffer is not full. A parser that stopped has used at least one byte of it, and nothing
is read from the client until the relay begins. -/
def Conn.Roomy (c : Conn) : Prop := c.readBuffer.contents.length < c.readBuffer.limit

/-- What is armed when a state has been returned, and what the state waits for. -/
def Armed (next : State) (c : Conn) (e : Ends) : Prop :=
  match next with
  | .negRead | .authRead | .reqRead =>
      e.client.map End.interest = some OP_READ ∧ e.origin = none ∧ e.job = false
  | .negWrite | .authWrite =>
      e.client.map End.interest = some OP_WRITE ∧ e.origin = none ∧ e.job = false ∧
        c.writeBuffer.contents ≠ []
  | .reqResolve =>
      e.client.map End.interest = some OP_NOOP ∧ e.origin = none ∧ e.job = true ∧
        c.session.latest = some (.lookup true) ∧ c.Roomy
  | .reqConnecting =>
      e.client.map End.interest = some OP_NOOP ∧ e.origin.map End.interest = some OP_WRITE ∧
        e.job = false ∧ (∀ b, e.origin = some b → b.socket.status ≠ .unconnected) ∧
        c.session.Pending ∧ c.Roomy
  | .reqWrite =>
      e.client.map End.interest = some OP_WRITE ∧
        (e.origin = none ∨ e.origin.map End.interest = some OP_NOOP) ∧ e.job = false ∧
        c.writeBuffer.contents ≠ [] ∧ c.connected = e.origin.isSome ∧ (c.connected = true → c.Roomy)
  | .relay =>
      e.job = false ∧
        if c.current = some .relay then RelayArmed c e
        else
          e.client.map End.interest = some OP_WRITE ∧ e.origin.map End.interest = some OP_NOOP ∧
            c.Roomy
  | .done | .error => True

/-- A connection in `phase`, ready for a handler of that phase. -/
structure Entered (trusted : Prop) (view : View) (id : ConnId) (phase : State) (c : Conn) (e : Ends)
    (sh : Shared) : Prop where
  sound : sh.Sound (Function.update view id (some e)) none
  fits : Fits c e
  current : c.current = some phase
  reachable : c.session.Reachable trusted
  armed : Armed phase c e
  waits : phase ≠ .done ∧ phase ≠ .error
  hungry : isReadState phase = true → c.session.Hungry

/-- A handler that was called for `fd` in `phase` returned `next`. -/
structure Result (trusted : Prop) (view : View) (id : ConnId) (fd : Fd) (phase next : State)
    (c : Conn) (e : Ends) (sh : Shared) : Prop where
  sound : sh.Sound (Function.update view id (some e)) none
  fits : Fits c e
  current : c.current = some phase
  reachable : (c.session.enter next).Reachable trusted
  armed : Armed next c e
  reading : isReadState next = true → c.clientFd = some fd ∧
    (next = phase → c.session.Hungry ∧ c.readBuffer.contents = [])
  advances : isReadState phase = true → isReadState next = true → next = phase

/-- The states in which a handler may return. -/
def Returned (trusted : Prop) (view : View) (id : ConnId) (fd : Fd) (phase next : State)
    (l : Local) : Prop :=
  ∃ c e sh, l = ⟨id, .live c, sh⟩ ∧ Result trusted view id fd phase next c e sh

section

variable {trusted : Prop} {view : View} {id : ConnId} {fd : Fd} {c : Conn} {e : Ends}
  {sh : Shared} {phase next : State}

theorem returned_error (sound : sh.Sound (Function.update view id (some e)) none) (fits : Fits c e)
    (current : c.current = some phase) (reachable : (c.session.enter .error).Reachable trusted) :
    Returned trusted view id fd phase .error ⟨id, .live c, sh⟩ :=
  ⟨c, e, sh, rfl, sound, fits, current, reachable, trivial, by simp [isReadState],
    by simp [isReadState]⟩

theorem Fits.clientFd_eq {a : End} (fits : Fits c e) (client : e.client = some a) :
    c.clientFd = some a.fd := by
  rw [fits.clientFd, client, Option.map_some]

theorem Fits.job (fits : Fits c e) (job : Bool) : Fits c { e with job } :=
  ⟨fits.present, fits.clientFd, fits.originFd, fits.readLimit, fits.writeLimit, fits.arrived,
    fits.cached⟩

/-- The parser of a phase needs more than there is. -/
theorem returned_reading {a : End} (sound : sh.Sound (Function.update view id (some e)) none)
    (fits : Fits c e) (current : c.current = some phase) (client : e.client = some a)
    (armed : Armed phase c e) (reachable : c.session.Reachable trusted)
    (drained : c.session.Hungry ∧ c.readBuffer.contents = []) :
    Returned trusted view id a.fd phase phase ⟨id, .live c, sh⟩ := by
  refine ⟨c, e, sh, rfl, sound, fits, current, ?_, armed,
    fun _ => ⟨fits.clientFd_eq client, fun _ => drained⟩, fun _ _ => rfl⟩
  simpa [Session.enter, Conn.session, current] using reachable

theorem Fits.exists_client (fits : Fits c e) :
    ∃ a, e.client = some a ∧ c.clientFd = some a.fd := by
  rcases Option.isSome_iff_exists.mp fits.present with ⟨a, client⟩
  exact ⟨a, client, fits.clientFd_eq client⟩

theorem fd_ne_of_sound (sound : sh.Sound (Function.update view id (some e)) none) {a b : End}
    (client : e.client = some a) (origin : e.origin = some b) : a.fd ≠ b.fd := by
  intro same
  have clash := sound.table.distinct id .client a .origin b
    (by simp [View.ends, Ends.get, client]) (by simp [View.ends, Ends.get, origin]) same
  cases clash

theorem Fits.of_eq {c' : Conn} (fits : Fits c e) (clientFd : c'.clientFd = c.clientFd)
    (originFd : c'.originFd = c.originFd) (read : c'.readBuffer.limit = c.readBuffer.limit)
    (write : c'.writeBuffer.limit = c.writeBuffer.limit)
    (arrived : c'.arrivalError = c.arrivalError) (current : c'.current = c.current)
    (clientInterest : c'.clientInterest = c.clientInterest)
    (originInterest : c'.originInterest = c.originInterest) : Fits c' e :=
  ⟨fits.present, clientFd ▸ fits.clientFd, originFd ▸ fits.originFd, read ▸ fits.readLimit,
    write ▸ fits.writeLimit, arrived ▸ fits.arrived,
    fun outside => clientInterest ▸ originInterest ▸ fits.cached (current ▸ outside)⟩

/-- `feed` runs the parser of `phase` over the read buffer; `stopped` tells that it is done. -/
structure Feeds (phase : State) (feed : Conn → Conn) (stopped : Conn → Bool) : Prop where
  current : ∀ c, (feed c).current = c.current
  hist : ∀ c, (feed c).hist = c.hist
  fits : ∀ c e, Fits c e → Fits (feed c) e
  reachable : ∀ c trusted, c.current = some phase → c.session.Reachable trusted →
    (feed c).session.Reachable trusted
  drained : ∀ c, c.current = some phase → stopped (feed c) = false →
    (feed c).session.Hungry ∧ (feed c).readBuffer.contents = []
  parserOnly : ∀ c readBuffer hist, stopped { c with readBuffer, hist } = stopped c
  roomy : ∀ c, stopped c = false → stopped (feed c) = true → (feed c).Roomy

theorem feeds_negotiation : Feeds .negRead feedNegotiation fun c => c.neg.stopped where
  current _ := rfl
  hist _ := rfl
  fits c e fits := fits.of_eq rfl rfl (by simp [feedNegotiation, negotiationParserFeed]) rfl rfl rfl
    rfl rfl
  reachable c trusted current reachable := by
    have parsed := reachable.step (.parseNeg c.session current)
    simpa [feedNegotiation, negotiationParserFeed, Conn.session] using parsed
  drained c current running := by
    refine ⟨.inl ⟨current, running⟩, ?_⟩
    simp only [feedNegotiation, negotiationParserFeed, Buffer.feed_contents, Buffer.feed_state]
      at running ⊢
    exact NegotiationParser.consumer.rest_eq_nil_of_running running
  parserOnly _ _ _ := rfl
  roomy c running stops := Buffer.length_feed_lt NegotiationParser.consumer running stops

theorem feeds_auth : Feeds .authRead feedAuth fun c => c.auth.stopped where
  current _ := rfl
  hist _ := rfl
  fits c e fits := fits.of_eq rfl rfl (by simp [feedAuth, authParserFeed]) rfl rfl rfl rfl rfl
  reachable c trusted current reachable := by
    have parsed := reachable.step (.parseAuth c.session current)
    simpa [feedAuth, authParserFeed, Conn.session] using parsed
  drained c current running := by
    refine ⟨.inr (.inl ⟨current, running⟩), ?_⟩
    simp only [feedAuth, authParserFeed, Buffer.feed_contents, Buffer.feed_state] at running ⊢
    exact Socks5Auth.consumer.rest_eq_nil_of_running running
  parserOnly _ _ _ := rfl
  roomy c running stops := Buffer.length_feed_lt Socks5Auth.consumer running stops

theorem feeds_request : Feeds .reqRead feedRequest fun c => c.request.stopped where
  current _ := rfl
  hist _ := rfl
  fits c e fits := fits.of_eq rfl rfl (by simp [feedRequest, requestParserFeed]) rfl rfl rfl rfl rfl
  reachable c trusted current reachable := by
    have parsed := reachable.step (.parseRequest c.session current)
    simpa [feedRequest, requestParserFeed, Conn.session] using parsed
  drained c current running := by
    refine ⟨.inr (.inr ⟨current, running⟩), ?_⟩
    simp only [feedRequest, requestParserFeed, Buffer.feed_contents, Buffer.feed_state] at running ⊢
    exact Socks5Request.consumer.rest_eq_nil_of_running running
  parserOnly _ _ _ := rfl
  roomy c running stops := Buffer.length_feed_lt Socks5Request.consumer running stops

theorem Buffer.contents_store_of_le {b : Buffer} {bytes : List UInt8}
    (fit : bytes.length ≤ b.space) : (b.store bytes).contents = b.contents ++ bytes := by
  rw [Buffer.contents_store, List.take_of_length_le fit]

/-- `feed_parser`: either the client is gone, or the parser has stopped or used up its input. -/
theorem wp_feedParser {feed : Conn → Conn} {stopped : Conn → Bool} {a : End}
    {post : Option State → Local → Prop} (feeds : Feeds phase feed stopped)
    (reading : isReadState phase = true)
    (sound : sh.Sound (Function.update view id (some e)) none) (fits : Fits c e)
    (current : c.current = some phase) (client : e.client = some a)
    (reachable : c.session.Reachable trusted)
    (closed : ∀ c' sh', Shared.Sound (Function.update view id (some e)) none sh' → Fits c' e →
      c'.current = some phase → (c'.session.enter .error).Reachable trusted →
      post (some .error) ⟨id, .live c', sh'⟩)
    (fed : ∀ c' sh', Shared.Sound (Function.update view id (some e)) none sh' → Fits c' e →
      c'.current = some phase → c'.session.Reachable trusted →
      (stopped c' = false → c'.session.Hungry ∧ c'.readBuffer.contents = []) →
      (stopped c = false → stopped c' = true → c'.Roomy) →
      c'.session.latest = c.session.latest → post none ⟨id, .live c', sh'⟩) :
    wp (feedParser a.fd feed stopped) post ⟨id, .live c, sh⟩ := by
  -- Parsing once more after the socket was read.
  have again : ∀ c' sh', Shared.Sound (Function.update view id (some e)) none sh' → Fits c' e →
      c'.current = some phase → c'.session.Reachable trusted → stopped c' = false →
      c'.session.latest = c.session.latest → post none ⟨id, .live (feed c'), sh'⟩ := by
    intro c' sh' sound' fits' current' reachable' running latest
    refine fed (feed c') sh' sound' (feeds.fits c' e fits') ((feeds.current c').trans current')
      (feeds.reachable c' trusted current' reachable') (feeds.drained c' current')
      (fun _ => feeds.roomy c' running) ?_
    exact (congrArg (List.find? Obs.isNetwork) (feeds.hist c')).trans latest
  have fits₁ := feeds.fits c e fits
  have current₁ := (feeds.current c).trans current
  have reachable₁ := feeds.reachable c trusted current reachable
  have latest₁ : (feed c).session.latest = c.session.latest :=
    congrArg (List.find? Obs.isNetwork) (feeds.hist c)
  have clientFd : (feed c).clientFd = some a.fd := by rw [fits₁.clientFd, client, Option.map_some]
  simp only [feedParser, wp_bind, wp_modifyConn, wp_getConn, wp_ite, wp_pure]
  split
  · next isStopped =>
      exact fed (feed c) sh sound fits₁ current₁ reachable₁
        (fun running => by simp [running] at isStopped) (feeds.roomy c) latest₁
  · next running =>
      rcases feeds.drained c current (by simpa using running) with ⟨hungry, empty⟩
      have room : 0 < (feed c).readBuffer.space := by
        rw [Buffer.space_of_empty _ empty]
        exact Nat.lt_of_lt_of_le (by decide) fits₁.readLimit
      simp only [fillReadBuffer, wp_bind, wp_getConn]
      refine wp_recv room sound ?_ ?_ ?_ ?_
      · intro errno sh' blocks sound'
        simp only [wp_pure, blocks, if_true, wp_bind, wp_modifyConn]
        exact again (feed c) sh' sound' fits₁ current₁ reachable₁ (by simpa using running) latest₁
      · intro errno sh' breaks sound'
        simp only [wp_pure, breaks, Bool.false_eq_true, if_false]
        refine closed _ sh' sound' (fits₁.of_eq rfl rfl rfl rfl rfl rfl rfl rfl) current₁ ?_
        exact reachable₁.step (.ioError _ (by simp [Conn.session, current₁]))
      · intro sh' sound'
        simp only [wp_pure, clientFd, if_true]
        refine closed _ sh' sound' (fits₁.of_eq rfl rfl rfl rfl rfl rfl rfl rfl) current₁ ?_
        exact reachable₁.step (.clientGone _ hungry empty)
      · intro bytes sh' some fit sound'
        simp only [wp_bind, wp_modifyConn, wp_pure, clientFd, if_true]
        refine again _ sh' sound' (fits₁.of_eq rfl rfl ?_ rfl rfl rfl rfl rfl) current₁ ?_ ?_
          latest₁
        · simp
        · have received := reachable₁.step
            (.receive _ bytes ⟨phase, current₁, reading⟩)
          simpa [Conn.session, Buffer.contents_store_of_le fit] using received
        · exact (feeds.parserOnly (feed c) _ _).trans (by simpa using running)

/-- The connection after some bytes of its write buffer were sent. -/
def Conn.afterSending (c : Conn) (bytes : List UInt8) : Conn :=
  { c.observed (.sent bytes) with writeBuffer := c.writeBuffer.readAdv bytes.length }

/-- The phases that answer the client. -/
def State.IsAnswering (phase : State) : Prop :=
  phase = .negWrite ∨ phase = .authWrite ∨ phase = .reqWrite

theorem Armed.afterSending {bytes : List UInt8} (armed : Armed phase c e)
    (answering : phase.IsAnswering) (more : (c.afterSending bytes).writeBuffer.contents ≠ []) :
    Armed phase (c.afterSending bytes) e := by
  rcases answering with rfl | rfl | rfl
  · exact ⟨armed.1, armed.2.1, armed.2.2.1, more⟩
  · exact ⟨armed.1, armed.2.1, armed.2.2.1, more⟩
  · exact ⟨armed.1, armed.2.1, armed.2.2.1, more, armed.2.2.2.2⟩

theorem wp_sendPending (fd : Fd) {a : End} {post : Option State → Local → Prop}
    (answering : phase.IsAnswering)
    (sound : sh.Sound (Function.update view id (some e)) none) (fits : Fits c e)
    (current : c.current = some phase) (client : e.client = some a) (armed : Armed phase c e)
    (reachable : c.session.Reachable trusted)
    (stop : ∀ state l, Returned trusted view id fd phase state l → post (some state) l)
    (sent : ∀ bytes sh', Shared.Sound (Function.update view id (some e)) none sh' →
      Fits (c.afterSending bytes) e → (c.afterSending bytes).session.Reachable trusted →
      (c.afterSending bytes).writeBuffer.contents = [] →
      post none ⟨id, .live (c.afterSending bytes), sh'⟩) :
    wp (sendPending (some a.fd) phase) post ⟨id, .live c, sh⟩ := by
  have clientFd : c.clientFd = some a.fd := by rw [fits.clientFd, client, Option.map_some]
  have notReading : isReadState phase = false := by rcases answering with rfl | rfl | rfl <;> rfl
  have stays : c.session.enter phase = c.session := by simp [Session.enter, Conn.session, current]
  have answers : c.session.Answering := by
    rcases answering with rfl | rfl | rfl <;> simp [Session.Answering, Conn.session, current]
  simp only [sendPending, wp_bind, wp_getConn]
  refine wp_send sound ?_ ?_ ?_ ?_
  · intro errno sh' blocks sound'
    simp only [wp_pure, blocks, if_true]
    refine stop phase _ ⟨c, e, sh', rfl, sound', fits, current, stays.symm ▸ reachable, armed, ?_,
      ?_⟩
    · simp [notReading]
    · simp [notReading]
  · intro errno sh' breaks sound'
    simp only [wp_pure, breaks, Bool.false_eq_true, if_false]
    refine stop .error _ (returned_error sound'
      (fits.of_eq rfl rfl rfl rfl rfl rfl rfl rfl) current ?_)
    exact reachable.step (.ioError _ (by simp [Conn.session, current]))
  · intro sh' sound'
    simp only [wp_pure]
    refine stop .error _ (returned_error sound'
      (fits.of_eq rfl rfl rfl rfl rfl rfl rfl rfl) current ?_)
    exact reachable.step (.stall _ answers)
  · intro bytes rest sh' some pending sound'
    simp only [wp_bind, wp_modifyConn, wp_getConn, wp_pure, clientFd, if_true]
    have fits' : Fits (c.afterSending bytes) e :=
      fits.of_eq rfl rfl rfl (by simp [Conn.afterSending]) rfl rfl rfl rfl
    have reachable' : (c.afterSending bytes).session.Reachable trusted := by
      have taken := reachable.step (.send _ bytes rest (.inl answers) pending)
      simpa [Conn.session, Conn.afterSending, pending] using taken
    change post (if (c.afterSending bytes).writeBuffer.canRead then _ else _)
      ⟨id, .live (c.afterSending bytes), sh'⟩
    by_cases more : (c.afterSending bytes).writeBuffer.canRead = true
    · rw [if_pos more]
      refine stop phase _ ⟨c.afterSending bytes, e, sh', rfl, sound', fits', current, ?_,
        armed.afterSending answering ((Buffer.canRead_iff _).mp more), ?_, ?_⟩
      · simpa [Session.enter, Conn.session, Conn.afterSending, current] using reachable'
      · simp [notReading]
      · simp [notReading]
    · rw [if_neg more]
      exact sent bytes sh' sound' fits' reachable'
        ((Buffer.canRead_eq_false_iff _).mp (by simpa using more))

theorem Buffer.contents_reply {b : Buffer} (bytes : List UInt8) (empty : b.contents = [])
    (limit : 512 ≤ b.limit) (short : bytes.length ≤ 512) :
    (b.writeBytes bytes).contents = b.contents ++ bytes := by
  rw [Buffer.contents_writeBytes]
  rw [Buffer.space_of_empty b empty]
  omega

theorem Fits.arm (side : Side) {a : End} (fits : Fits c e) (has : e.get side = some a)
    (interest : Interest) : Fits c (e.put side (some { a with interest })) := by
  rcases fits with ⟨present, clientFd, originFd, readLimit, writeLimit, arrived, cached⟩
  cases side with
  | client =>
      have client : e.client = some a := has
      exact ⟨rfl, by simpa [Ends.put, client] using clientFd, originFd, readLimit, writeLimit,
        arrived, cached⟩
  | origin =>
      have origin : e.origin = some a := has
      exact ⟨present, clientFd, by simpa [Ends.put, origin] using originFd, readLimit, writeLimit,
        arrived, cached⟩

theorem wp_negotiationRead {a : End} (entered : Entered trusted view id .negRead c e sh)
    (client : e.client = some a) :
    wp (negotiationRead a.fd) (Returned trusted view id a.fd .negRead) ⟨id, .live c, sh⟩ := by
  rcases entered with ⟨sound, fits, current, reachable, armed, -, -⟩
  simp only [negotiationRead, wp_bind]
  refine wp_feedParser feeds_negotiation rfl sound fits current client reachable ?_ ?_
  · intro c' sh' sound' fits' current' reachable'
    simp only [wp_pure]
    exact returned_error sound' fits' current' reachable'
  · intro c' sh' sound' fits' current' reachable' drained _ _
    simp only [wp_bind, wp_getConn, wp_ite, wp_pure]
    split
    · next invalid =>
        exact returned_error sound' fits' current'
          (reachable'.step (.badGreeting _ current' invalid))
    · next valid =>
        split
        · next incomplete =>
            have running : c'.neg.stopped = false := by
              simp [NegotiationParser.stopped, valid, incomplete]
            exact returned_reading sound' fits' current' client armed reachable' (drained running)
        · next complete =>
            have finished : c'.neg.state = .done := not_not.mp complete
            have empty : c'.writeBuffer.contents = [] := by
              have stage := reachable'.invariant.2
              simp only [Session.Stage, Conn.session, current'] at stage
              exact stage.2.1
            have chosen := reachable'.step (.choose _ sh'.users current' finished)
            simp only [wp_bind, wp_get, wp_modifyConn, wp_observe]
            refine wp_selectorSetInterest .client sound' client rfl fun sh'' sound'' => ?_
            simp only [if_true, wp_pure]
            have replied : ((c'.writeBuffer.writeByte SOCKS5_VERSION).writeByte
                (negotiationMethod c'.neg (authRequired sh'.users))).contents =
                c'.writeBuffer.contents ++
                  [SOCKS5_VERSION, negotiationMethod c'.neg (authRequired sh'.users)] :=
              Buffer.contents_reply [_, _] empty fits'.writeLimit (by simp)
            refine ⟨_, _, sh'', rfl, sound'', ?_, current', ?_, ?_, by simp [isReadState],
              by simp [isReadState]⟩
            · refine (fits'.arm .client client OP_WRITE).of_eq rfl rfl rfl ?_ rfl rfl rfl rfl
              simp [fillNegotiationReply]
            · simpa [Conn.session, fillNegotiationReply, replied] using chosen
            · refine ⟨rfl, armed.2.1, armed.2.2, ?_⟩
              simp [fillNegotiationReply, replied]

theorem wp_negotiationWrite {a : End} (entered : Entered trusted view id .negWrite c e sh)
    (client : e.client = some a) :
    wp (negotiationWrite a.fd) (Returned trusted view id a.fd .negWrite) ⟨id, .live c, sh⟩ := by
  rcases entered with ⟨sound, fits, current, reachable, armed, -, -⟩
  simp only [negotiationWrite, wp_bind]
  refine wp_sendPending a.fd (.inl rfl) sound fits current client armed reachable ?_ ?_
  · intro state l returned
    simpa using returned
  · intro bytes sh' sound' fits' reachable' flushed
    simp only [wp_bind, wp_getConn, wp_ite, wp_pure]
    split
    · next refused =>
        exact returned_error sound' fits' current
          (reachable'.step (.methodRefused _ current flushed refused))
    · next accepted =>
        refine wp_selectorSetInterest .client sound' client rfl fun sh'' sound'' => ?_
        simp only [if_true, wp_pure]
        have fits'' := fits'.arm .client client OP_READ
        split
        · next userpass =>
            exact ⟨_, _, sh'', rfl, sound'', fits'', current,
              reachable'.step (.methodUserpass _ current flushed userpass),
              ⟨rfl, armed.2.1, armed.2.2.1⟩,
              fun _ => ⟨fits'.clientFd_eq client, by simp⟩, by simp [isReadState]⟩
        · next noauth =>
            exact ⟨_, _, sh'', rfl, sound'', fits'', current,
              reachable'.step (.methodNoauth _ current flushed accepted noauth),
              ⟨rfl, armed.2.1, armed.2.2.1⟩,
              fun _ => ⟨fits'.clientFd_eq client, by simp⟩, by simp [isReadState]⟩

theorem wp_authRead {a : End} (entered : Entered trusted view id .authRead c e sh)
    (client : e.client = some a) :
    wp (authRead a.fd) (Returned trusted view id a.fd .authRead) ⟨id, .live c, sh⟩ := by
  rcases entered with ⟨sound, fits, current, reachable, armed, -, -⟩
  simp only [authRead, wp_bind]
  refine wp_feedParser feeds_auth rfl sound fits current client reachable ?_ ?_
  · intro c' sh' sound' fits' current' reachable'
    simp only [wp_pure]
    exact returned_error sound' fits' current' reachable'
  · intro c' sh' sound' fits' current' reachable' drained _ _
    simp only [wp_bind, wp_getConn, wp_ite, wp_pure]
    split
    · next invalid =>
        exact returned_error sound' fits' current'
          (reachable'.step (.badCredentials _ current' invalid))
    · next valid =>
        split
        · next incomplete =>
            have running : c'.auth.stopped = false := by
              simp [Socks5Auth.stopped, valid, incomplete]
            exact returned_reading sound' fits' current' client armed reachable' (drained running)
        · next complete =>
            have finished : c'.auth.state = .done := not_not.mp complete
            have empty : c'.writeBuffer.contents = [] := by
              have stage := reachable'.invariant.2
              simp only [Session.Stage, Conn.session, current'] at stage
              exact stage.1
            simp only [wp_bind, wp_get, wp_modifyConn, wp_observe]
            generalize verdict : (if usersValidate sh'.users c'.auth.user c'.auth.password = true
              then SOCKS5_AUTH_OK else SOCKS5_AUTH_FAIL) = status
            have judged := reachable'.step
              (.validate _ sh'.users status current' finished verdict.symm)
            refine wp_selectorSetInterest .client sound' client rfl fun sh'' sound'' => ?_
            simp only [if_true, wp_pure]
            have replied : (fillAuthReply c'.writeBuffer status).contents =
                c'.writeBuffer.contents ++ [SOCKS5_AUTH_VERSION, status] :=
              Buffer.contents_reply [_, _] empty fits'.writeLimit (by simp)
            refine ⟨_, _, sh'', rfl, sound'', ?_, current', ?_, ?_, by simp [isReadState],
              by simp [isReadState]⟩
            · refine (fits'.arm .client client OP_WRITE).of_eq rfl rfl rfl ?_ rfl rfl rfl rfl
              simp [fillAuthReply]
            · simpa [Conn.session, replied] using judged
            · refine ⟨rfl, armed.2.1, armed.2.2, ?_⟩
              simp [replied]

theorem wp_authWrite {a : End} (entered : Entered trusted view id .authWrite c e sh)
    (client : e.client = some a) :
    wp (authWrite a.fd) (Returned trusted view id a.fd .authWrite) ⟨id, .live c, sh⟩ := by
  rcases entered with ⟨sound, fits, current, reachable, armed, -, -⟩
  simp only [authWrite, wp_bind]
  refine wp_sendPending a.fd (.inr (.inl rfl)) sound fits current client armed reachable ?_ ?_
  · intro state l returned
    simpa using returned
  · intro bytes sh' sound' fits' reachable' flushed
    simp only [wp_bind, wp_getConn, wp_ite, wp_pure]
    split
    · next refused =>
        exact returned_error sound' fits' current
          (reachable'.step (.authRefused _ current flushed refused))
    · next accepted =>
        refine wp_selectorSetInterest .client sound' client rfl fun sh'' sound'' => ?_
        simp only [if_true, wp_pure]
        exact ⟨_, _, sh'', rfl, sound'', fits'.arm .client client OP_READ, current,
          reachable'.step (.authAccepted _ current flushed (not_not.mp accepted)),
          ⟨rfl, armed.2.1, armed.2.2.1⟩,
              fun _ => ⟨fits'.clientFd_eq client, by simp⟩, by simp [isReadState]⟩

end

end SocksProxy
