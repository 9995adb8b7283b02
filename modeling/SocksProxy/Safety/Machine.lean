import SocksProxy.Safety.Relay

/-!
# The state machine of a connection

Between two dispatches a connection is at rest: its phase is one that waits for
an event, and exactly the events it can handle are armed. Every dispatch that
respects the armed interests therefore finds a handler, and leads back to rest
or frees the connection. This holds for reads, writes, block notifications and
for the sweeps of the reaper, which do not go through `jump`.
-/

namespace SocksProxy

open Prog

/-- The outcome of a handler; a relay is only left to end the connection. -/
def Handled (trusted : Prop) (view : View) (id : ConnId) (fd : Fd) (phase next : State)
    (l : Local) : Prop :=
  (phase = .relay → next = .relay ∨ next = .done ∨ next = .error) ∧
    Returned trusted view id fd phase next l

/-- The descriptor fields are those of the ends, which is all that closing a connection needs. -/
structure HoldsEnds (c : Conn) (e : Ends) : Prop where
  present : e.client.isSome = true
  clientFd : c.clientFd = e.client.map End.fd
  originFd : c.originFd = e.origin.map End.fd

/-- A connection that a handler of `phase`, called for `fd`, has moved to `next`. -/
structure Jumped (trusted : Prop) (view : View) (id : ConnId) (fd : Fd) (phase next : State)
    (c : Conn) (e : Ends) (sh : Shared) : Prop where
  sound : sh.Sound (Function.update view id (some e)) none
  holds : HoldsEnds c e
  current : c.current = some next
  reachable : c.session.Reachable trusted
  arrived : c.arrivalError = false
  waiting : next ≠ .done ∧ next ≠ .error → Fits c e ∧ Armed next c e
  reading : isReadState next = true → c.clientFd = some fd ∧ c.session.Hungry ∧
    (next = phase → c.readBuffer.contents = [])
  advances : isReadState phase = true → isReadState next = true → next = phase

/-- A connection whose phase waits for an event that is armed. -/
structure Waits (trusted : Prop) (c : Conn) (e : Ends) : Prop where
  fits : Fits c e
  reachable : c.session.Reachable trusted
  waits : stmState c ≠ .done ∧ stmState c ≠ .error
  armed : Armed (stmState c) c e
  hungry : ∀ phase, c.current = some phase → isReadState phase = true → c.session.Hungry

/-- A connection between two dispatches: nothing that was received is left to be parsed. -/
structure AtRest (trusted : Prop) (c : Conn) (e : Ends) : Prop extends Waits trusted c e where
  drained : ∀ phase, c.current = some phase → isReadState phase = true →
    c.session.Hungry ∧ c.readBuffer.contents = []

/-- How a dispatch to connection `id` ends: the connection rests again, or it is freed. -/
inductive Ended (trusted : Prop) (view : View) (id : ConnId) : Local → Prop where
  | resting (c : Conn) (e : Ends) (sh : Shared)
      (sound : sh.Sound (Function.update view id (some e)) none) (rest : AtRest trusted c e) :
      Ended trusted view id ⟨id, .live c, sh⟩
  | freed (c : Conn) (sh : Shared) (sound : sh.Sound (Function.update view id none) none)
      (reachable : c.session.Reachable trusted) : Ended trusted view id ⟨id, .freed c 0, sh⟩

section

variable {trusted : Prop} {view : View} {id : ConnId} {fd : Fd} {c : Conn} {e : Ends} {sh : Shared}
  {phase next : State}

/-! ## Handlers of ready descriptors -/

theorem Ends.client_of_vacant {side : Side} {a : End} (vacant : e.origin = none)
    (has : e.get side = some a) : e.client = some a := by
  cases side with
  | client => exact has
  | origin => simp [Ends.get, vacant] at has

theorem Entered.onReadReady (side : Side) {a : End} (entered : Entered trusted view id phase c e sh)
    (has : e.get side = some a) (wanted : a.interest.read = true) :
    ∃ handler, SocksProxy.onReadReady a.fd phase = some handler ∧
      wp handler (Handled trusted view id a.fd phase) ⟨id, .live c, sh⟩ := by
  have armed := entered.armed
  cases phase with
  | negRead =>
      have client := Ends.client_of_vacant armed.2.1 has
      exact ⟨_, rfl, wp_mono (wp_negotiationRead entered client)
        fun _ _ returned => ⟨by simp, returned⟩⟩
  | authRead =>
      have client := Ends.client_of_vacant armed.2.1 has
      exact ⟨_, rfl, wp_mono (wp_authRead entered client)
        fun _ _ returned => ⟨by simp, returned⟩⟩
  | reqRead =>
      have client := Ends.client_of_vacant armed.2.1 has
      exact ⟨_, rfl, wp_mono (wp_requestRead entered client)
        fun _ _ returned => ⟨by simp, returned⟩⟩
  | negWrite | authWrite | reqResolve =>
      have client := Ends.client_of_vacant armed.2.1 has
      have interest := armed.1
      rw [client, Option.map_some, Option.some.injEq] at interest
      simp [interest, OP_WRITE, OP_NOOP] at wanted
  | reqConnecting =>
      have clientInterest := armed.1
      have originInterest := armed.2.1
      cases side with
      | client => simp_all [Ends.get, OP_NOOP]
      | origin => simp_all [Ends.get, OP_WRITE]
  | reqWrite =>
      have clientInterest := armed.1
      have originInterest := armed.2.1
      cases side with
      | client => simp_all [Ends.get, OP_WRITE]
      | origin => simp_all [Ends.get, OP_NOOP]
  | relay =>
      rcases armed with ⟨idle, armed⟩
      rw [if_pos entered.current] at armed
      have relaying : Relaying trusted view id c e sh :=
        ⟨entered.sound, entered.fits, entered.current, idle, armed.toRelayCached, entered.reachable⟩
      cases side with
      | client =>
          exact ⟨_, rfl, wp_mono (wp_relayRead_client relaying armed has wanted)
            fun _ _ outcome => ⟨fun _ => outcome.1, outcome.2⟩⟩
      | origin =>
          exact ⟨_, rfl, wp_mono (wp_relayRead_origin relaying armed has wanted)
            fun _ _ outcome => ⟨fun _ => outcome.1, outcome.2⟩⟩
  | done => exact absurd rfl entered.waits.1
  | error => exact absurd rfl entered.waits.2

theorem Entered.onWriteReady (side : Side) {a : End}
    (entered : Entered trusted view id phase c e sh)
    (has : e.get side = some a) (wanted : a.interest.write = true)
    (settled : trusted → phase = .reqConnecting → a.socket.status ≠ .inProgress) :
    ∃ handler, SocksProxy.onWriteReady a.fd phase = some handler ∧
      wp handler (Handled trusted view id a.fd phase) ⟨id, .live c, sh⟩ := by
  have armed := entered.armed
  cases phase with
  | negWrite =>
      have client := Ends.client_of_vacant armed.2.1 has
      exact ⟨_, rfl, wp_mono (wp_negotiationWrite entered client)
        fun _ _ returned => ⟨by simp, returned⟩⟩
  | authWrite =>
      have client := Ends.client_of_vacant armed.2.1 has
      exact ⟨_, rfl, wp_mono (wp_authWrite entered client)
        fun _ _ returned => ⟨by simp, returned⟩⟩
  | negRead | authRead | reqRead | reqResolve =>
      have client := Ends.client_of_vacant armed.2.1 has
      have interest := armed.1
      rw [client, Option.map_some, Option.some.injEq] at interest
      simp [interest, OP_READ, OP_NOOP] at wanted
  | reqConnecting =>
      have clientInterest := armed.1
      cases side with
      | client => simp_all [Ends.get, OP_NOOP]
      | origin =>
          exact ⟨_, rfl, wp_mono (wp_requestConnecting entered has
            fun sure => settled sure rfl) fun _ _ tried => ⟨by simp, tried.2⟩⟩
  | reqWrite =>
      exact ⟨_, rfl, wp_mono (wp_requestWrite entered)
        fun _ _ returned => ⟨by simp, returned⟩⟩
  | relay =>
      rcases armed with ⟨idle, armed⟩
      rw [if_pos entered.current] at armed
      have relaying : Relaying trusted view id c e sh :=
        ⟨entered.sound, entered.fits, entered.current, idle, armed.toRelayCached, entered.reachable⟩
      exact ⟨_, rfl, wp_mono (wp_relayWrite relaying) fun _ _ outcome =>
        ⟨fun _ => outcome.1, outcome.2⟩⟩
  | done => exact absurd rfl entered.waits.1
  | error => exact absurd rfl entered.waits.2

/-! ## Transitions -/

theorem Fits.holds (fits : Fits c e) : HoldsEnds c e := ⟨fits.present, fits.clientFd, fits.originFd⟩

theorem code_le_maxState (state : State) : ¬maxState < state.code := by cases state <;> decide

/-- A connection that just moved to another phase. -/
def Conn.entering (c : Conn) (next : State) : Conn :=
  { c with current := some next, hist := .entered next :: c.hist }

theorem wp_setCurrent {post : Unit → Local → Prop} (moves : c.current ≠ some next)
    (done : post () ⟨id, .live (c.entering next), sh⟩) :
    wp (setCurrent next) post ⟨id, .live c, sh⟩ := by
  simp only [setCurrent, wp_modifyConn, moves, if_false]
  exact done

theorem session_enter (moves : c.current ≠ some next) :
    c.session.enter next = (c.entering next).session.arrive next := by
  simp [Session.enter, Conn.session, moves, Conn.entering]

/-- Entering a phase other than the relay initialises at most a parser. -/
theorem wp_onArrival {post : Unit → Local → Prop} (other : next ≠ .relay)
    (arrived : ∀ neg auth request,
      ({ c with neg, auth, request } : Conn).session = c.session.arrive next →
      post () ⟨id, .live { c with neg, auth, request }, sh⟩) :
    wp (onArrival next) post ⟨id, .live c, sh⟩ := by
  cases next with
  | relay => exact absurd rfl other
  | negRead => simpa [onArrival] using arrived negotiationParserInit c.auth c.request rfl
  | authRead => simpa [onArrival] using arrived c.neg (authParserInit c.auth) c.request rfl
  | reqRead => simpa [onArrival] using arrived c.neg c.auth (requestParserInit c.request) rfl
  | _ => simpa [onArrival] using arrived c.neg c.auth c.request rfl

/-- A parser that was just initialised needs input. -/
theorem hungry_arrive (reads : isReadState next = true) :
    ((c.entering next).session.arrive next).Hungry := by
  cases next with
  | negRead => exact .inl ⟨rfl, rfl⟩
  | authRead => exact .inr (.inl ⟨rfl, rfl⟩)
  | reqRead => exact .inr (.inr ⟨rfl, rfl⟩)
  | _ => simp [isReadState] at reads

theorem Armed.of_eq {c' : Conn} (armed : Armed next c e) (other : next ≠ .relay)
    (read : c'.readBuffer = c.readBuffer) (write : c'.writeBuffer = c.writeBuffer)
    (connected : c'.connected = c.connected) (latest : c'.session.latest = c.session.latest) :
    Armed next c' e := by
  cases next <;> simp_all [Armed, Session.Pending, Conn.Roomy]

theorem Armed.client_read {a : End} (armed : Armed next c e) (reads : isReadState next = true)
    (client : e.client = some a) : a.interest = OP_READ := by
  cases next <;> simp_all [Armed, isReadState]

/-- `jump`: the state that was returned is entered, and is never above `max_state`. -/
theorem wp_jump {l : Local} {post : Unit → Local → Prop}
    (handled : Handled trusted view id fd phase next l)
    (jumped : ∀ c e sh, Jumped trusted view id fd phase next c e sh → post () ⟨id, .live c, sh⟩) :
    wp (jump next) post l := by
  rcases handled with ⟨inside, c, e, sh, rfl, sound, fits, current, reachable, armed, reading,
    advances⟩
  simp only [jump, wp_ite, code_le_maxState, if_false, wp_bind, wp_getConn, wp_pure]
  split
  · next stays =>
      obtain rfl : phase = next := Option.some.inj (current.symm.trans stays)
      refine jumped c e sh ⟨sound, fits.holds, stays, ?_, fits.arrived, fun _ => ⟨fits, armed⟩, ?_,
        advances⟩
      · simpa [Session.enter, Conn.session, stays] using reachable
      · intro reads
        rcases reading reads with ⟨home, waits⟩
        exact ⟨home, (waits rfl).1, fun _ => (waits rfl).2⟩
  · next moves =>
      have other : next ≠ phase := fun same => moves (same ▸ current)
      rw [session_enter moves] at reachable
      refine wp_setCurrent moves ?_
      -- Only `RELAY` has an arrival action that touches the selector.
      by_cases relays : next = .relay
      · subst relays
        rcases armed with ⟨idle, armed⟩
        rw [if_neg moves] at armed
        rcases fits.cached moves with ⟨clientInterest, originInterest⟩
        refine wp_relayInit fd sound ?_ rfl idle clientInterest ?_ armed.2.2 reachable ?_
        · exact ⟨fits.present, fits.clientFd, fits.originFd, fits.readLimit, fits.writeLimit,
            fits.arrived, by simp [Conn.entering]⟩
        · rw [armed.2.1]
          exact congrArg some originInterest.symm
        · rintro l ⟨c', e', sh', rfl, sound', fits', current', reachable', armed', -, -⟩
          refine jumped c' e' sh' ⟨sound', fits'.holds, current', ?_, fits'.arrived,
            fun _ => ⟨fits', armed'⟩, by simp [isReadState], by simp [isReadState]⟩
          simpa [Session.enter, Conn.session, current'] using reachable'
      · refine wp_onArrival relays fun neg auth request session => ?_
        refine jumped _ e sh ⟨sound, ⟨fits.present, fits.clientFd, fits.originFd⟩, rfl,
          session ▸ reachable, fits.arrived, ?_,
          fun reads => ⟨(reading reads).1, session ▸ hungry_arrive reads,
            fun same => absurd same other⟩, advances⟩
        intro waits
        have outside : phase ≠ .relay := by
          intro wasRelay
          rcases inside wasRelay with relay | done | error
          · exact relays relay
          · exact waits.1 done
          · exact waits.2 error
        refine ⟨⟨fits.present, fits.clientFd, fits.originFd, fits.readLimit, fits.writeLimit,
          fits.arrived, fun _ => fits.cached ?_⟩, armed.of_eq relays rfl rfl rfl ?_⟩
        · rw [current]
          simpa using outside
        · rw [session, Session.latest_arrive]
          rfl

/-! ## Dispatches -/

theorem Waits.entered (rest : Waits trusted c e)
    (sound : sh.Sound (Function.update view id (some e)) none) (current : c.current = some phase) :
    Entered trusted view id phase c e sh := by
  rcases rest with ⟨fits, reachable, waits, armed, hungry⟩
  rw [show stmState c = phase by simp [stmState, current]] at armed waits
  exact ⟨sound, fits, current, reachable, armed, waits, hungry phase current⟩

/-- `handle_first`: the first event of a connection starts its negotiation. -/
theorem wp_handleFirst {post : Unit → Local → Prop}
    (sound : sh.Sound (Function.update view id (some e)) none) (rest : Waits trusted c e)
    (entered : ∀ c', Entered trusted view id (stmState c) c' e sh → post () ⟨id, .live c', sh⟩) :
    wp handleFirst post ⟨id, .live c, sh⟩ := by
  have fits := rest.fits
  have armed := rest.armed
  simp only [handleFirst, wp_bind, wp_getConn, wp_ite, wp_pure]
  split
  · next fresh =>
      have phase : stmState c = .negRead := by simp [stmState, fresh]
      have moves : c.current ≠ some .negRead := by simp [fresh]
      have cached := fits.cached (by simp [fresh])
      rw [phase] at armed entered
      refine wp_setCurrent moves ?_
      refine wp_onArrival (by simp) fun neg auth request session => ?_
      refine entered _ ⟨sound, ?_, rfl, ?_, armed, by simp, fun _ => session ▸ hungry_arrive rfl⟩
      · exact ⟨fits.present, fits.clientFd, fits.originFd, fits.readLimit, fits.writeLimit,
          fits.arrived, fun _ => cached⟩
      · rw [session, ← session_enter moves]
        exact rest.reachable.step (.start _ fresh)
  · next started =>
      rcases Option.ne_none_iff_exists'.mp started with ⟨phase, current⟩
      rw [show stmState c = phase by simp [stmState, current]] at entered
      exact entered c (rest.entered sound current)

/-- `stm_handler_read`, `_write` and `_block`: they never abort, since a handler exists. -/
theorem wp_stmHandler (fd : Fd) {column : State → Option (M State)} {post : State → Local → Prop}
    (sound : sh.Sound (Function.update view id (some e)) none) (rest : Waits trusted c e)
    (ready : ∀ c', Entered trusted view id (stmState c) c' e sh →
      ∃ handler, column (stmState c) = some handler ∧
        wp handler (Handled trusted view id fd (stmState c)) ⟨id, .live c', sh⟩)
    (jumped : ∀ next c' e' sh', Jumped trusted view id fd (stmState c) next c' e' sh' →
      post next ⟨id, .live c', sh'⟩) :
    wp (stmHandler column) post ⟨id, .live c, sh⟩ := by
  simp only [stmHandler, wp_bind]
  refine wp_handleFirst sound rest fun c' entered => ?_
  rcases ready c' entered with ⟨handler, found, handles⟩
  simp only [wp_getConn, entered.current, Option.bind_some, found, wp_bind]
  refine wp_mono handles fun next l handled => ?_
  rw [wp_bind]
  refine wp_jump handled fun c'' e' sh' outcome => ?_
  simpa using jumped next c'' e' sh' outcome

theorem wp_socks5Done_of_holds (sound : sh.Sound (Function.update view id (some e)) none)
    (holds : HoldsEnds c e) (reachable : c.session.Reachable trusted) :
    wp socks5Done (fun _ => Ended trusted view id) ⟨id, .live c, sh⟩ := by
  rcases Option.isSome_iff_exists.mp holds.present with ⟨a, client⟩
  have clientFd : c.clientFd = some a.fd := by rw [holds.clientFd, client, Option.map_some]
  refine wp_socks5Done sound client clientFd holds.originFd fun counted sh' sound' => ?_
  exact .freed _ sh' sound' reachable

theorem Jumped.waits (jumped : Jumped trusted view id fd phase next c e sh)
    (goesOn : next ≠ .done ∧ next ≠ .error) : Waits trusted c e := by
  rcases jumped.waiting goesOn with ⟨fits, armed⟩
  have state : stmState c = next := by simp [stmState, jumped.current]
  refine ⟨fits, jumped.reachable, state.symm ▸ goesOn, state.symm ▸ armed, ?_⟩
  intro phase' current reads
  obtain rfl : next = phase' := Option.some.inj (jumped.current.symm.trans current)
  exact (jumped.reading reads).2.1

/-- The end of `socks5_advance`, where a connection that has ended is closed. -/
theorem Jumped.finish (jumped : Jumped trusted view id fd phase next c e sh)
    (rests : next ≠ .done ∧ next ≠ .error → isReadState next = true →
      c.session.Hungry ∧ c.readBuffer.contents = []) :
    wp (do if next = .error ∨ next = .done ∨ (← getConn).arrivalError = true then socks5Done
           else pure ())
      (fun _ => Ended trusted view id) ⟨id, .live c, sh⟩ := by
  simp only [wp_bind, wp_getConn, jumped.arrived, Bool.false_eq_true, or_false, wp_ite, wp_pure]
  split
  · exact wp_socks5Done_of_holds jumped.sound jumped.holds jumped.reachable
  · next goesOn =>
      have waits : next ≠ .done ∧ next ≠ .error :=
        ⟨fun done => goesOn (.inr done), fun error => goesOn (.inl error)⟩
      rcases jumped.waiting waits with ⟨fits, armed⟩
      have state : stmState c = next := by simp [stmState, jumped.current]
      refine .resting c e sh jumped.sound
        ⟨(jumped.waits waits), ?_⟩
      intro phase current reading
      obtain rfl : next = phase := Option.some.inj (jumped.current.symm.trans current)
      exact rests waits reading

theorem Jumped.touch (jumped : Jumped trusted view id fd phase next c e sh) (now : Int) :
    Jumped trusted view id fd phase next { c with lastActivity := now } e sh := by
  rcases jumped with ⟨sound, holds, current, reachable, arrived, waiting, reading, advances⟩
  refine ⟨sound, ⟨holds.present, holds.clientFd, holds.originFd⟩, current, reachable, arrived, ?_,
    reading, advances⟩
  intro goesOn
  rcases waiting goesOn with ⟨fits, armed⟩
  refine ⟨fits.of_eq rfl rfl rfl rfl rfl rfl rfl rfl, ?_⟩
  by_cases relays : next = .relay
  · subst relays
    refine ⟨armed.1, ?_⟩
    have cached := armed.2
    rw [if_pos current] at cached
    rw [if_pos current]
    exact ⟨⟨cached.client, cached.origin⟩, cached.clientWanted, cached.originWanted,
      cached.packed, cached.clientPassed, cached.originPassed, cached.goesOn⟩
  · exact armed.of_eq relays rfl rfl rfl rfl

theorem advanceLoop_of_idle {rounds : Nat} {post : State → Local → Prop}
    (idle : ¬(isReadState next = true ∧ c.readBuffer.canRead = true))
    (done : post next ⟨id, .live c, sh⟩) :
    wp (advanceLoop fd rounds next) post ⟨id, .live c, sh⟩ := by
  cases rounds <;> simpa [advanceLoop, idle] using done

/-- The loop of `socks5_advance`: what was pipelined is parsed at once, and the read handler that is
called for it either uses up the buffer or leaves the reading phases. -/
theorem wp_advanceLoop {post : State → Local → Prop}
    (jumped : Jumped trusted view id fd phase next c e sh)
    (done : ∀ phase' next' c' e' sh', Jumped trusted view id fd phase' next' c' e' sh' →
      (isReadState next' = true → c'.session.Hungry ∧ c'.readBuffer.contents = []) →
      post next' ⟨id, .live c', sh'⟩) :
    wp (advanceLoop fd 2 next) post ⟨id, .live c, sh⟩ := by
  by_cases busy : isReadState next = true ∧ c.readBuffer.canRead = true
  · rcases busy with ⟨reads, more⟩
    rcases jumped.reading reads with ⟨home, -, -⟩
    have goesOn : next ≠ .done ∧ next ≠ .error := by
      constructor <;> rintro rfl <;> simp [isReadState] at reads
    have rest := jumped.waits goesOn
    have state : stmState c = next := by simp [stmState, jumped.current]
    rcases rest.fits.exists_client with ⟨a, client, clientFd⟩
    obtain rfl : a.fd = fd := Option.some.inj (clientFd.symm.trans home)
    have interest := (jumped.waiting goesOn).2.client_read reads client
    rw [advanceLoop, wp_bind, wp_getConn, if_pos (by simp [reads, more]), wp_bind]
    refine wp_stmHandler a.fd jumped.sound rest ?_ ?_
    · intro c' entered
      exact entered.onReadReady .client client (by simp [interest, OP_READ])
    · intro next' c' e' sh' jumped'
      rw [state] at jumped'
      -- The handler of a reading phase goes on reading only if it has used up its input.
      have used : isReadState next' = true → c'.readBuffer.contents = [] := fun reads' =>
        (jumped'.reading reads').2.2 (jumped'.advances reads reads')
      refine advanceLoop_of_idle ?_ (done next next' c' e' sh' jumped' fun reads' =>
        ⟨(jumped'.reading reads').2.1, used reads'⟩)
      rintro ⟨reads', more'⟩
      exact (Buffer.canRead_iff _).mp more' (used reads')
  · refine advanceLoop_of_idle busy (done phase next c e sh jumped fun reads => ?_)
    refine ⟨(jumped.reading reads).2.1, (Buffer.canRead_eq_false_iff _).mp ?_⟩
    simpa [reads] using busy

/-- `socks5_advance`. -/
theorem wp_socks5Advance (jumped : Jumped trusted view id fd phase next c e sh) :
    wp (socks5Advance fd next) (fun _ => Ended trusted view id) ⟨id, .live c, sh⟩ := by
  unfold socks5Advance
  rw [wp_bind, wp_get, wp_bind, wp_modifyConn, wp_bind]
  refine wp_advanceLoop (jumped.touch _) fun phase' next' c' e' sh' jumped' drained => ?_
  exact jumped'.finish fun _ => drained

theorem wp_socks5Read (side : Side) {a : End}
    (sound : sh.Sound (Function.update view id (some e)) none) (rest : AtRest trusted c e)
    (has : e.get side = some a) (wanted : a.interest.read = true) :
    wp (socks5Read a.fd) (fun _ => Ended trusted view id) ⟨id, .live c, sh⟩ := by
  simp only [socks5Read, wp_bind]
  refine wp_stmHandler a.fd sound rest.toWaits ?_ ?_
  · exact fun c' entered => entered.onReadReady side has wanted
  · exact fun next c' e' sh' jumped => wp_socks5Advance jumped

theorem wp_socks5Write (side : Side) {a : End}
    (sound : sh.Sound (Function.update view id (some e)) none) (rest : AtRest trusted c e)
    (has : e.get side = some a) (wanted : a.interest.write = true)
    (settled : trusted → stmState c = .reqConnecting → a.socket.status ≠ .inProgress) :
    wp (socks5Write a.fd) (fun _ => Ended trusted view id) ⟨id, .live c, sh⟩ := by
  simp only [socks5Write, wp_bind]
  refine wp_stmHandler a.fd sound rest.toWaits ?_ ?_
  · exact fun c' entered => entered.onWriteReady side has wanted settled
  · exact fun next c' e' sh' jumped => wp_socks5Advance jumped

/-- `socks5_block`, for any notified descriptor number: only a connection that waits for a lookup
does anything. -/
theorem wp_socks5Block (fd : Fd)
    (sound : sh.Sound (Function.update view id (some e)) none) (rest : AtRest trusted c e) :
    wp (socks5Block fd) (fun _ => Ended trusted view id) ⟨id, .live c, sh⟩ := by
  simp only [socks5Block, wp_bind, wp_getConn, wp_ite, wp_pure]
  split
  · exact .resting c e sh sound rest
  · next resolving =>
      have state : stmState c = .reqResolve := not_not.mp resolving
      refine wp_stmHandler fd sound rest.toWaits ?_ ?_
      · intro c' entered
        rw [state] at entered ⊢
        exact ⟨_, rfl, wp_mono (wp_requestResolveDone fd entered) fun _ _ outcome =>
          ⟨by simp, outcome.2⟩⟩
      · exact fun next c' e' sh' jumped => wp_socks5Advance jumped

/-! ## The reaper -/

/-- `stm.current` overwritten without `jump`, as the reaper does with what a request handler
returned. -/
theorem wp_reapNext {l : Local} (now : Int) (returned : Returned trusted view id fd phase next l)
    (outside : phase ≠ .relay)
    (kind : next = .reqResolve ∨ next = .reqWrite ∨ next = .reqConnecting) :
    wp (reapNext now next) (fun _ => Ended trusted view id) l := by
  rcases returned with ⟨c, e, sh, rfl, sound, fits, current, reachable, armed, -, -⟩
  have waits : ¬(next = .error ∨ next = .done) := by rcases kind with rfl | rfl | rfl <;> simp
  have notRelay : next ≠ .relay := by rcases kind with rfl | rfl | rfl <;> simp
  have notReading : isReadState next = false := by rcases kind with rfl | rfl | rfl <;> rfl
  have stays : ∀ s : Session, s.arrive next = s := by
    rcases kind with rfl | rfl | rfl <;> exact fun _ => rfl
  simp only [reapNext, waits, if_false, wp_bind, wp_modifyConn, setCurrent]
  have unread : ∀ phase', some next = some phase' → isReadState phase' = true → False := by
    rintro _ ⟨⟩ reads
    simp [notReading] at reads
  refine .resting _ e sh sound ⟨⟨?_, ?_, ?_, ?_, fun _ entered reads =>
    (unread _ entered reads).elim⟩, fun _ entered reads => (unread _ entered reads).elim⟩
  · exact ⟨fits.present, fits.clientFd, fits.originFd, fits.readLimit, fits.writeLimit,
      fits.arrived, fun _ => fits.cached (by simpa [current] using outside)⟩
  · by_cases same : c.current = some next
    · simpa [Session.enter, Conn.session, same] using reachable
    · simpa [Session.enter, Conn.session, same, stays] using reachable
  · exact ⟨fun done => waits (.inr done), fun error => waits (.inl error)⟩
  · refine armed.of_eq notRelay rfl rfl rfl ?_
    simp only [Conn.session, Session.latest]
    split <;> simp [Obs.isNetwork]

theorem current_of_stmState (state : stmState c = phase) (other : phase ≠ .negRead) :
    c.current = some phase := by
  cases current : c.current with
  | none =>
      rw [stmState, current] at state
      exact absurd state.symm other
  | some phase' =>
      rw [stmState, current] at state
      exact congrArg some state

theorem wp_lookupCompleted {post : Bool → Local → Prop}
    (sound : sh.Sound (Function.update view id (some e)) none)
    (next : ∀ completed sh', Shared.Sound (Function.update view id (some e)) none sh' →
      (completed = true → stmState c = .reqResolve) → post completed ⟨id, .live c, sh'⟩) :
    wp lookupCompleted post ⟨id, .live c, sh⟩ := by
  simp only [lookupCompleted, wp_bind, wp_get, wp_getConn, wp_ite, wp_pure]
  split
  · next resolving =>
      exact wp_lockedIsCompleted sound fun completed sh' sound' =>
        next completed sh' sound' fun _ => resolving
  · exact next false sh sound (by simp)

/-- A connection that timed out answers its request, if there is one, or is closed. -/
theorem wp_reapExpired (now : Int) (sound : sh.Sound (Function.update view id (some e)) none)
    (rest : AtRest trusted c e) :
    wp (reapExpired now) (fun _ => Ended trusted view id) ⟨id, .live c, sh⟩ := by
  rcases rest.fits.exists_client with ⟨a, client, clientFd⟩
  have armed := rest.armed
  have stage := rest.reachable.invariant.2
  simp only [reapExpired, wp_bind, wp_get, wp_getConn, wp_observe, wp_ite]
  split
  · next connecting =>
      have current := current_of_stmState connecting (by simp)
      rw [connecting] at armed
      simp only [Session.Stage, Conn.session, current] at stage
      refine wp_mono (wp_requestFail 0 sound (rest.fits.of_eq rfl rfl rfl rfl rfl rfl rfl rfl)
        current armed.2.2.1 stage.1
        (rest.reachable.step (.expireConnecting _ current armed.2.2.2.2.1))) ?_
      exact fun next l outcome => wp_reapNext now outcome.2 (by simp) (.inr (.inl outcome.1))
  · split
    · next resolving =>
        have current := current_of_stmState resolving (by simp)
        rw [resolving] at armed
        simp only [Session.Stage, Conn.session, current] at stage
        refine wp_lockedCancel sound fun sh' sound' => ?_
        rw [wp_bind, wp_getConn, if_neg (by simp [clientFd]), wp_bind]
        refine wp_mono (wp_requestFail 0 sound'
          ((rest.fits.job false).of_eq rfl rfl rfl rfl rfl rfl rfl rfl) current rfl stage.1
          (rest.reachable.step (.expireResolving _ current armed.2.2.2.1))) ?_
        exact fun next l outcome => wp_reapNext now outcome.2 (by simp) (.inr (.inl outcome.1))
    · have holds : HoldsEnds (c.observed .timedOut) e :=
        ⟨rest.fits.present, rest.fits.clientFd, rest.fits.originFd⟩
      exact wp_socks5Done_of_holds sound holds (rest.reachable.step (.expire _))

theorem wp_reapConn (sound : sh.Sound (Function.update view id (some e)) none)
    (rest : AtRest trusted c e) :
    wp reapConn (fun _ => Ended trusted view id) ⟨id, .live c, sh⟩ := by
  simp only [reapConn, wp_bind, wp_get]
  refine wp_lookupCompleted sound fun completed sh' sound' resolving => ?_
  simp only [wp_ite, wp_bind, wp_getConn, wp_pure]
  split
  · next finished =>
      have entered := rest.entered sound' (current_of_stmState (resolving finished) (by simp))
      refine wp_mono (wp_requestResolveDone 0 entered) ?_
      exact fun next l outcome => wp_reapNext _ outcome.2 (by simp) outcome.1
  · split
    · exact wp_reapExpired _ sound' rest
    · exact .resting c e sh' sound' rest

end

end SocksProxy
