import SocksProxy.Safety.Phases

/-!
# Handlers of the request phases

Every way a request can go: refused, looked up, connected at once or later, or
given up after the last address. Each handler keeps the shared state sound,
takes only steps of the session, and arms what the state it returns needs.
-/

namespace SocksProxy

open Prog

section

variable {trusted : Prop} {view : View} {id : ConnId} {fd : Fd} {c : Conn} {e : Ends}
  {sh : Shared} {phase : State}

theorem IsReply.length_le {rep : UInt8} {reply : List UInt8} (complete : IsReply rep reply) :
    reply.length ≤ 512 := by
  rcases complete.length_eq with length | length <;> omega

theorem wp_socks5LogAccess {result : List UInt8} {post : Unit → Local → Prop}
    (sound : sh.Sound (Function.update view id (some e)) none)
    (next : ∀ sh', Shared.Sound (Function.update view id (some e)) none sh' →
      post () ⟨id, .live (c.observed (.logged (loggedUser c.method c.auth)
        (formatRequestDst c.request) result)), sh'⟩) :
    wp (socks5LogAccess result) post ⟨id, .live c, sh⟩ := by
  simp only [socks5LogAccess, wp_bind, wp_getConn, wp_modifyShared, wp_observe]
  exact next _ (sound.of_eq rfl rfl rfl rfl rfl rfl)

theorem wp_logFailure {rep : UInt8} {post : Unit → Local → Prop}
    (sound : sh.Sound (Function.update view id (some e)) none)
    (next : ∀ sh', Shared.Sound (Function.update view id (some e)) none sh' →
      post () ⟨id, .live { c with
        hist := Session.failureRecord c.method c.auth c.request rep ++ c.hist }, sh'⟩) :
    wp (logFailure rep) post ⟨id, .live c, sh⟩ := by
  simp only [logFailure, wp_bind, wp_getConn, wp_ite, wp_pure]
  unfold Session.failureRecord at next
  split
  · next complete =>
      rw [if_pos complete] at next
      exact wp_socks5LogAccess sound next
  · next incomplete =>
      rw [if_neg incomplete] at next
      exact next sh sound

/-- Closing the origin socket, if there is one, leaves the client. -/
theorem wp_abandonOrigin {post : Unit → Local → Prop}
    (sound : sh.Sound (Function.update view id (some e)) none) (fits : Fits c e)
    (idle : e.job = false)
    (next : ∀ counted sh',
      Shared.Sound (Function.update view id (some { e with origin := none })) none sh' →
      post () ⟨id, .live { c with originFd := none, activeCounted := counted }, sh'⟩) :
    wp abandonOrigin post ⟨id, .live c, sh⟩ := by
  rcases fits.exists_client with ⟨a, client, clientFd⟩
  simp only [abandonOrigin, wp_bind, wp_getConn, fits.originFd]
  cases origin : e.origin with
  | none =>
      have same : ({ e with origin := none } : Ends) = e := by rw [← origin]
      have unset : ({ c with originFd := none, activeCounted := c.activeCounted } : Conn) = c := by
        have gone : c.originFd = none := by rw [fits.originFd, origin, Option.map_none]
        rw [← gone]
      have result := next c.activeCounted sh (same.symm ▸ sound)
      rw [unset] at result
      simpa using result
  | some b =>
      simp only [Option.map_some, wp_bind, wp_modifyConn]
      exact wp_dropOrigin sound client origin idle clientFd (.inl rfl) next

/-- `request_fail`: the reply is all that is queued, the origin is gone and the client is armed. -/
theorem wp_requestFail_replied (fd : Fd) {rep : UInt8}
    (sound : sh.Sound (Function.update view id (some e)) none) (fits : Fits c e)
    (current : c.current = some phase) (idle : e.job = false)
    (empty : c.writeBuffer.contents = []) (reachable : (c.session.fail rep).Reachable trusted) :
    wp (requestFail rep)
      (fun next l => next = .reqWrite ∧ ∃ c' e' sh', l = ⟨id, .live c', sh'⟩ ∧
        Result trusted view id fd phase .reqWrite c' e' sh' ∧
        c'.writeBuffer.contents = nullReply rep SOCKS5_ATYP_IPV4 ∧ c'.originFd = none ∧
        c'.clientFd = c.clientFd)
      ⟨id, .live c, sh⟩ := by
  rcases fits.exists_client with ⟨a, client, clientFd⟩
  have replied : (fillRequestReply c.writeBuffer rep SOCKS5_ATYP_IPV4).contents =
      nullReply rep SOCKS5_ATYP_IPV4 := by
    have appended := Buffer.contents_reply _ empty fits.writeLimit
      (isReply_nullReply rep).length_le
    rwa [← fillRequestReply_eq, empty, List.nil_append] at appended
  simp only [requestFail, wp_bind, wp_modifyConn]
  refine wp_logFailure sound fun sh₁ sound₁ => ?_
  simp only [wp_bind, wp_modifyConn, wp_observe]
  refine wp_abandonOrigin sound₁ ?_ idle fun counted sh₂ sound₂ => ?_
  · exact fits.of_eq rfl rfl rfl (by simp [fillRequestReply_eq]) rfl rfl rfl rfl
  · simp only [wp_bind, wp_getConn]
    refine wp_selectorSetInterest .client sound₂ client clientFd fun sh₃ sound₃ => ?_
    simp only [if_true, wp_pure, true_and]
    have fits₂ : Fits ({ c with originFd := none } : Conn) { e with origin := none } :=
      ⟨fits.present, fits.clientFd, rfl, fits.readLimit, fits.writeLimit, fits.arrived, fits.cached⟩
    refine ⟨_, _, sh₃, rfl, ⟨sound₃, ?_, current, ?_, ⟨rfl, .inl rfl, idle, ?_, ?_, ?_⟩,
      by simp [isReadState], by simp [isReadState]⟩, ?_, rfl, rfl⟩
    · exact (fits₂.arm .client client OP_WRITE).of_eq rfl rfl rfl
        (by simp [fillRequestReply_eq]) rfl rfl rfl rfl
    · simpa [Session.fail, Session.recordFailure, Session.answer, Conn.session, replied, empty]
        using reachable
    · simp only [Conn.observed_writeBuffer, replied]
      exact (isReply_nullReply rep).ne_nil
    · rfl
    · simp
    · simpa using replied

theorem wp_requestFail (fd : Fd) {rep : UInt8}
    (sound : sh.Sound (Function.update view id (some e)) none) (fits : Fits c e)
    (current : c.current = some phase) (idle : e.job = false)
    (empty : c.writeBuffer.contents = []) (reachable : (c.session.fail rep).Reachable trusted) :
    wp (requestFail rep)
      (fun next l => next = .reqWrite ∧ Returned trusted view id fd phase next l)
      ⟨id, .live c, sh⟩ := by
  refine wp_mono (wp_requestFail_replied fd sound fits current idle empty reachable) ?_
  rintro next l ⟨rfl, c', e', sh', rfl, result, -⟩
  exact ⟨rfl, c', e', sh', rfl, result⟩

theorem originStatus_eq {b : End} (sound : sh.Sound (Function.update view id (some e)) none)
    (fits : Fits c e) (origin : e.origin = some b) :
    originStatus c sh.kern = b.socket.status := by
  have held : View.ends (Function.update view id (some e)) id .origin = some b := by
    simp [View.ends, Ends.get, origin]
  have socket := (sound.table.registered id .origin b held).2
  have originFd : c.originFd = some b.fd := by rw [fits.originFd, origin, Option.map_some]
  simp [originStatus, originFd, socket]

theorem wp_getsockname {post : Option Sockaddr → Local → Prop}
    (next : ∀ name, post name ⟨id, .live c, sh⟩) : wp getsockname post ⟨id, .live c, sh⟩ := by
  simp only [getsockname, wp_bind, wp_get, wp_getConn, wp_pure]
  exact next _

/-- `request_connect_success`: success is reported with the address of the origin socket, or the
request fails after all. -/
theorem wp_requestConnectSuccess {b : End}
    (sound : sh.Sound (Function.update view id (some e)) none) (fits : Fits c e)
    (current : c.current = some phase) (idle : e.job = false)
    (empty : c.writeBuffer.contents = []) (origin : e.origin = some b) (roomy : c.Roomy)
    (reachable : ∀ name, (c.session.succeed b.socket.status name).Reachable trusted) :
    wp requestConnectSuccess
      (fun next l => next = .reqWrite ∧ Returned trusted view id fd phase next l)
      ⟨id, .live c, sh⟩ := by
  rcases fits.exists_client with ⟨a, client, clientFd⟩
  have originFd : c.originFd = some b.fd := by rw [fits.originFd, origin, Option.map_some]
  simp only [requestConnectSuccess, wp_bind, wp_getConn, wp_get, wp_observe,
    originStatus_eq sound fits origin]
  refine wp_getsockname fun name => ?_
  simp only [wp_bind, wp_observe]
  have outcome := reachable name
  cases name with
  | none =>
      refine wp_requestFail fd sound ?_ current idle empty ?_
      · exact fits.of_eq rfl rfl rfl rfl rfl rfl rfl rfl
      · simpa [Session.succeed, Session.note, Conn.session] using outcome
  | some sa =>
      simp only [wp_bind, wp_modifyConn, wp_getConn, fillRequestReplyAddr_eq]
      cases built : addrReply SOCKS5_REP_SUCCESS sa with
      | none =>
          simp only [Option.map_none]
          refine wp_requestFail fd sound ?_ current idle empty ?_
          · exact fits.of_eq rfl rfl rfl rfl rfl rfl rfl rfl
          · simpa [Session.succeed, Session.fail, Session.recordFailure, Session.answer,
              Session.note, Conn.session, built] using outcome
      | some reply =>
          have complete := (isReply_of_addrReply built).1
          have replied : (c.writeBuffer.writeBytes reply).contents =
              c.writeBuffer.contents ++ reply :=
            Buffer.contents_reply _ empty fits.writeLimit complete.length_le
          simp only [Option.map_some, Option.getD_some, wp_bind, wp_modifyConn, wp_observe]
          refine wp_socks5LogAccess sound fun sh₁ sound₁ => ?_
          simp only [wp_bind, wp_getConn]
          refine wp_selectorSetInterest .origin sound₁ origin originFd fun sh₂ sound₂ => ?_
          simp only [if_true, wp_bind, wp_getConn]
          refine wp_selectorSetInterest .client sound₂ client clientFd fun sh₃ sound₃ => ?_
          simp only [if_true, wp_pure, true_and]
          have armed := (fits.arm .origin origin OP_NOOP).arm .client client OP_WRITE
          refine ⟨_, _, sh₃, rfl, sound₃, ?_, current, ?_,
            ⟨rfl, .inr rfl, idle, ?_, rfl, fun _ => roomy⟩,
            by simp [isReadState], by simp [isReadState]⟩
          · exact armed.of_eq rfl rfl rfl (by simp) rfl rfl rfl rfl
          · simpa [Session.succeed, Session.answer, Session.record, Session.note, Conn.session,
              built, replied] using outcome
          · simp only [Conn.observed_writeBuffer, replied]
            exact List.append_ne_nil_of_right_ne_nil _ complete.ne_nil

section Attempts

variable {cell : Cell} {other : View}

theorem wp_nextAttempt {post : AttemptAnswer → Local → Prop} (sound : sh.Sound other none)
    (next : ∀ answer sh', Shared.Sound other none sh' → post answer ⟨id, cell, sh'⟩) :
    wp nextAttempt post ⟨id, cell, sh⟩ := by
  simp only [nextAttempt, wp_bind, wp_get]
  cases sh.env.attempts with
  | nil => simpa using next _ _ sound
  | cons answer later => simpa using next answer _ (sound.env _)

theorem wp_openSocket {answer : AttemptAnswer} {post : Except Errno Fd → Local → Prop}
    (sound : sh.Sound other none) (unset : c.originFd = none)
    (refused : ∀ errno, post (.error errno) ⟨id, .live c, sh⟩)
    (opened : ∀ fd socket sh', Shared.Sound other (some (fd, socket)) sh' →
      post (.ok fd) ⟨id, .live c, sh'⟩) :
    wp (openSocket answer) post ⟨id, .live c, sh⟩ := by
  unfold openSocket
  cases answer.socket with
  | error errno => simpa using refused errno
  | ok fd =>
      simp only [wp_bind, wp_get, wp_ite, wp_pure, wp_modifyShared, wp_getConn, unset, ne_eq,
        not_true_eq_false, if_false]
      split
      · exact refused .emfile
      · next unused =>
          refine opened fd ⟨.unconnected, answer.localName⟩ _
            ⟨?_, sound.slots, sound.listed, sound.sizes⟩
          exact sound.table.handOut _ (by simpa using unused)

theorem wp_closeLoose {fd : Fd} {socket : Socket} {post : Unit → Local → Prop}
    (sound : sh.Sound other (some (fd, socket)))
    (next : ∀ sh', Shared.Sound other none sh' → sh'.kern.foreign = sh.kern.foreign →
      post () ⟨id, cell, sh'⟩) :
    wp (closeFd fd) post ⟨id, cell, sh⟩ := by
  have isOpen := (sound.table.unregistered fd socket rfl).1
  simp only [closeFd, wp_bind, wp_get, isOpen, wp_modifyShared]
  exact next _ ⟨sound.table.discard, sound.slots, sound.listed, sound.sizes⟩ rfl

theorem wp_connectSocket {fd : Fd} {socket : Socket} {answer : AttemptAnswer}
    {post : Unit → Local → Prop} (sound : sh.Sound other (some (fd, socket)))
    (next : ∀ socket' sh', Shared.Sound other (some (fd, socket')) sh' →
      socket'.status ≠ .unconnected → (answer.connect = none → socket'.status = .connected) →
      post () ⟨id, cell, sh'⟩) :
    wp (connectSocket fd answer) post ⟨id, cell, sh⟩ := by
  simp only [connectSocket, wp_modifyShared]
  refine next _ _ ⟨sound.table.connect _, sound.slots, sound.listed, sound.sizes⟩ ?_ ?_
  · cases answer.connect with
    | none => simp
    | some errno => cases errno <;> simp
  · intro connected
    simp [connected]

end Attempts

/-- Registering the origin socket takes a reference; a refused socket is closed. -/
theorem wp_registerOrigin {fd : Fd} {socket : Socket} {interest : Interest}
    {post : Bool → Local → Prop}
    (sound : sh.Sound (Function.update view id (some e)) (some (fd, socket)))
    (vacant : e.origin = none) (unset : c.originFd = none)
    (registered : ∀ sh', Shared.Sound (Function.update view id
        (some { e with origin := some ⟨fd, interest, socket⟩ })) none sh' →
      post true ⟨id, .live { c with originFd := some fd }, sh'⟩)
    (refused : ∀ sh', Shared.Sound (Function.update view id (some e)) none sh' →
      post false ⟨id, .live c, sh'⟩) :
    wp (registerOrigin fd interest) post ⟨id, .live c, sh⟩ := by
  have mine : (Function.update view id (some e)) id = some e := Function.update_self ..
  have loose := sound.table.unregistered fd socket rfl
  simp only [registerOrigin, wp_bind, wp_modifyConn, selectorRegister, wp_get, Selector.register]
  by_cases small : fd < FD_SETSIZE
  · simp only [Nat.not_le.mpr small, if_false, loose.2, wp_bind, wp_modifyShared, wp_pure, if_true,
      addReferences, wp_get, wp_onPool, Pool.wp_modifySlot]
    rcases sound.slots.exists_slot mine with ⟨s, present, -⟩
    refine ⟨s, present, registered _ ?_⟩
    have ends : View.ends (Function.update view id
        (some { e with origin := some ⟨fd, interest, socket⟩ })) =
        setEnd (View.ends (Function.update view id (some e))) id .origin
          (some ⟨fd, interest, socket⟩) := by
      rw [← View.ends_put mine, Function.update_idem]
      rfl
    have free : View.ends (Function.update view id (some e)) id .origin = none := by
      simp [View.ends, Ends.get, vacant]
    have count : ({ e with origin := some ⟨fd, interest, socket⟩ } : Ends).count = e.count + 1 := by
      have put := e.count_put .origin (some ⟨fd, interest, socket⟩)
      simpa [Ends.put, Ends.get, vacant] using put
    refine ⟨?_, ?_, ?_, sound.sizes⟩
    · rw [ends]
      exact sound.table.enroll small free interest
    · have referred := sound.slots.refer mine present count rfl
      rwa [Function.update_idem] at referred
    · have listed : Listed (Function.update (Function.update view id (some e)) id
          (some { e with origin := some ⟨fd, interest, socket⟩ })) sh.list :=
        sound.listed.update mine
      rwa [Function.update_idem] at listed
  · simp only [Nat.not_lt.mp small, if_true, wp_pure, Bool.false_eq_true, if_false, wp_bind]
    refine wp_closeLoose sound fun sh' sound' _ => ?_
    simp only [wp_bind, wp_modifyConn, wp_pure]
    have same : ({ c with originFd := none } : Conn) = c := by rw [← unset]
    rw [same]
    exact refused sh' sound'

/-- What `request_connect` returns when `left` candidates were left: the request is answered, or the
next candidate is waited for. -/
def Attempted (trusted : Prop) (view : View) (id : ConnId) (fd : Fd) (phase : State) (left : Nat)
    (next : State) (l : Local) : Prop :=
  (next = .reqWrite ∨ next = .reqConnecting ∧ l.cell.conn.nextAddr.length < left) ∧
    Returned trusted view id fd phase next l

theorem attempted_of_failed {left : Nat} {next : State} {l : Local}
    (failed : next = .reqWrite ∧ Returned trusted view id fd phase next l) :
    Attempted trusted view id fd phase left next l :=
  ⟨.inl failed.1, failed.2⟩

theorem Attempted.mono {left more : Nat} {next : State} {l : Local}
    (attempted : Attempted trusted view id fd phase left next l) (le : left ≤ more) :
    Attempted trusted view id fd phase more next l :=
  ⟨attempted.1.imp_right fun waits => ⟨waits.1, Nat.lt_of_lt_of_le waits.2 le⟩, attempted.2⟩

theorem Attempted.next {left : Nat} {next : State} {l : Local}
    (attempted : Attempted trusted view id fd phase left next l) :
    next = .reqWrite ∨ next = .reqConnecting :=
  attempted.1.imp_right And.left

/-- What a round of `request_connect` comes to: the request is answered, the candidate is waited
for, or the connection is ready for the next one. -/
def Round (trusted : Prop) (view : View) (id : ConnId) (fd : Fd) (phase : State) (c : Conn)
    (e : Ends) (target : Sockaddr) (rest : List Sockaddr) (result : Option State) (l : Local) :
    Prop :=
  (∀ next ∈ result, Attempted trusted view id fd phase (rest.length + 1) next l) ∧
    (result = none → ∃ errno sh, Shared.Sound (Function.update view id (some e)) none sh ∧
      l = ⟨id, .live { c with
        nextAddr := rest
        lastErrno := some errno
        hist := .attempt target (.failed errno) :: c.hist }, sh⟩)

theorem round_of_attempted {target : Sockaddr} {rest : List Sockaddr} {next : State} {l : Local}
    (attempted : Attempted trusted view id fd phase (rest.length + 1) next l) :
    Round trusted view id fd phase c e target rest (some next) l := by
  refine ⟨?_, by simp⟩
  rintro _ ⟨⟩
  exact attempted

/-- A candidate that fails leaves the connection ready for the next one. -/
theorem wp_failAttempt {target : Sockaddr} {rest : List Sockaddr} (errno : Errno)
    (sound : sh.Sound (Function.update view id (some e)) none) :
    wp (do
        failAttempt target errno
        pure none)
      (Round trusted view id fd phase c e target rest)
      ⟨id, .live { c with nextAddr := rest }, sh⟩ := by
  simp only [failAttempt, wp_bind, wp_modifyConn, wp_observe, wp_pure]
  exact ⟨by simp, fun _ => ⟨errno, sh, sound, rfl⟩⟩

theorem wp_tryCandidate (fd : Fd) {target : Sockaddr} {rest : List Sockaddr}
    (sound : sh.Sound (Function.update view id (some e)) none) (fits : Fits c e)
    (current : c.current = some phase) (idle : e.job = false) (vacant : e.origin = none)
    (empty : c.writeBuffer.contents = []) (roomy : c.Roomy)
    (remaining : c.nextAddr = target :: rest) (reachable : c.session.Reachable trusted)
    (connecting : c.session.Connecting) (ready : c.session.Ready) :
    wp (tryCandidate target) (Round trusted view id fd phase c e target rest)
      ⟨id, .live { c with nextAddr := rest }, sh⟩ := by
  rcases fits.exists_client with ⟨a, client, clientFd⟩
  have unset : c.originFd = none := by rw [fits.originFd, vacant, Option.map_none]
  -- A selector that refuses the socket ends the search: no further candidate is tried.
  have refuse : ∀ sh', Shared.Sound (Function.update view id (some e)) none sh' →
      wp (do
          observe (.attempt target .unregistrable)
          let next ← requestFail SOCKS5_REP_GENERAL_FAILURE
          pure (some next)) (Round trusted view id fd phase c e target rest)
        ⟨id, .live { c with nextAddr := rest }, sh'⟩ := by
    intro sh' sound'
    simp only [wp_bind, wp_observe]
    refine wp_mono (wp_requestFail fd sound' (fits.of_eq rfl rfl rfl rfl rfl rfl rfl rfl) current
      idle empty ?_) fun next l
        (failed : next = .reqWrite ∧ Returned trusted view id fd phase next l) => ?_
    · exact reachable.step (.attemptUnusable _ target rest connecting remaining ready)
    · exact (wp_pure ..).mpr (round_of_attempted (attempted_of_failed failed))
  simp only [tryCandidate, wp_bind]
  refine wp_nextAttempt sound fun answer sh₁ sound₁ => ?_
  rw [wp_bind]
  refine wp_openSocket sound₁ unset ?_ ?_
  · exact fun errno => wp_failAttempt errno sound₁
  · intro fd socket sh₂ sound₂
    cases nio : answer.nio with
    | some errno =>
        simp only [wp_bind]
        exact wp_closeLoose sound₂ fun sh₃ sound₃ _ => wp_failAttempt errno sound₃
    | none =>
        simp only [wp_bind]
        refine wp_connectSocket sound₂ fun socket' sh₃ sound₃ started connected => ?_
        cases connect : answer.connect with
        | none =>
            simp only [wp_bind]
            refine wp_registerOrigin sound₃ vacant unset ?_ ?_
            · intro sh₄ sound₄
              simp only [if_true, wp_bind, wp_observe]
              refine wp_mono (wp_requestConnectSuccess sound₄ ?_ current idle empty rfl roomy
                ?_) fun _ _ failed =>
                (wp_pure ..).mpr (round_of_attempted (attempted_of_failed failed))
              · exact ⟨fits.present, fits.clientFd, rfl, fits.readLimit, fits.writeLimit,
                  fits.arrived, fits.cached⟩
              · intro name
                exact reachable.step (.attemptSucceeds _ target rest socket'.status name
                  connecting remaining (fun _ => connected connect) ready)
            · intro sh₄ sound₄
              simp only [Bool.false_eq_true, if_false]
              exact refuse sh₄ sound₄
        | some errno =>
            cases errno with
            | einprogress =>
                simp only [wp_bind]
                refine wp_registerOrigin sound₃ vacant unset ?_ ?_
                · intro sh₄ sound₄
                  simp only [if_true, wp_bind, wp_observe, wp_getConn]
                  refine wp_selectorSetInterest .client sound₄ client clientFd
                    fun sh₅ sound₅ => ?_
                  simp only [if_true, wp_pure]
                  have fits' : Fits ({ c with originFd := some fd } : Conn)
                      { e with origin := some ⟨fd, OP_WRITE, socket'⟩ } :=
                    ⟨fits.present, fits.clientFd, rfl, fits.readLimit, fits.writeLimit,
                      fits.arrived, fits.cached⟩
                  refine round_of_attempted ⟨.inr ⟨rfl, Nat.lt_succ_self _⟩, _, _, sh₅, rfl,
                    sound₅, ?_, current, ?_, ⟨rfl, rfl, idle, ?_, ⟨target, rfl⟩, roomy⟩,
                    by simp [isReadState], by simp [isReadState]⟩
                  · exact (fits'.arm .client client OP_NOOP).of_eq rfl rfl rfl rfl rfl rfl rfl
                      rfl
                  · exact reachable.step (.attemptPends _ target rest connecting remaining
                      ready)
                  · rintro b ⟨⟩
                    exact started
                · intro sh₄ sound₄
                  simp only [Bool.false_eq_true, if_false]
                  exact refuse sh₄ sound₄
            | _ =>
                simp only [wp_bind]
                exact wp_closeLoose sound₃ fun sh₄ sound₄ _ => wp_failAttempt _ sound₄

theorem wp_requestConnectFrom {targets : List Sockaddr}
    (sound : sh.Sound (Function.update view id (some e)) none) (fits : Fits c e)
    (current : c.current = some phase) (idle : e.job = false) (vacant : e.origin = none)
    (empty : c.writeBuffer.contents = []) (roomy : c.Roomy) (remaining : c.nextAddr = targets)
    (reachable : c.session.Reachable trusted) (connecting : c.session.Connecting)
    (ready : c.session.Ready) :
    wp (requestConnectFrom targets) (Attempted trusted view id fd phase targets.length)
      ⟨id, .live c, sh⟩ := by
  induction targets generalizing c sh with
  | nil =>
      simp only [requestConnectFrom, wp_bind, wp_getConn]
      refine wp_mono (wp_requestFail fd sound fits current idle empty ?_) fun _ _ =>
        attempted_of_failed
      exact reachable.step (.exhausted _ connecting remaining
        (ready.resolve_right fun waiting => waiting.1 remaining))
  | cons target rest ih =>
      simp only [requestConnectFrom, wp_bind, wp_modifyConn]
      refine wp_mono (wp_tryCandidate fd sound fits current idle vacant empty roomy remaining
        reachable connecting ready) ?_
      rintro (_ | next) l ⟨answered, failed⟩
      · rcases failed rfl with ⟨errno, sh', sound', rfl⟩
        refine wp_mono (ih sound' (fits.of_eq rfl rfl rfl rfl rfl rfl rfl rfl) current empty roomy
          rfl ?_ connecting (.inl (.inl ⟨target, errno, rfl⟩)))
          fun _ _ tried => tried.mono (by simp)
        exact reachable.step (.attemptFails _ target rest errno connecting remaining ready)
      · exact (wp_pure ..).mpr (answered next rfl)

section Resolver

variable {cell : Cell}

/-- A critical section that changes at most the job of this connection. -/
theorem wp_lockedJob {α : Type} {program : PoolM α} (result : α → Bool → Prop)
    {post : α → Local → Prop} (sound : sh.Sound (Function.update view id (some e)) none)
    (critical : ∀ pool, Slots (Function.update view id (some e)) pool →
      wp program (fun value pool' => ∃ job, result value job ∧
        Slots (Function.update view id (some { e with job })) pool') pool)
    (next : ∀ value job sh', result value job →
      Shared.Sound (Function.update view id (some { e with job })) none sh' →
      post value ⟨id, cell, sh'⟩) :
    wp (locked program) post ⟨id, cell, sh⟩ := by
  have mine : (Function.update view id (some e)) id = some e := Function.update_self ..
  refine wp_locked sound.slots fun pool jobs env slots => ?_
  refine wp_mono (critical pool slots) ?_
  rintro value pool' ⟨job, outcome, slots'⟩
  refine next value job _ outcome ⟨?_, slots', ?_, sound.sizes⟩
  · have same : View.ends (Function.update (Function.update view id (some e)) id
        (some { e with job })) = View.ends (Function.update view id (some e)) :=
      View.ends_congr mine (by funext side; cases side <;> rfl)
    rw [Function.update_idem] at same
    rw [same]
    exact sound.table
  · have listed : Listed (Function.update (Function.update view id (some e)) id
        (some { e with job })) sh.list := sound.listed.update mine
    rwa [Function.update_idem] at listed

/-- `socks5_resolver_queue_job`: a queued lookup is held as a job. -/
theorem wp_lockedQueue {clientFd : Option Fd} {host port : List UInt8} {created allocated : Bool}
    {post : Bool → Local → Prop} (sound : sh.Sound (Function.update view id (some e)) none)
    (idle : e.job = false)
    (next : ∀ queued sh',
      Shared.Sound (Function.update view id (some { e with job := queued })) none sh' →
        post queued ⟨id, cell, sh'⟩) :
    wp (locked (socks5ResolverQueueJob id clientFd host port created allocated)) post
      ⟨id, cell, sh⟩ := by
  refine wp_lockedJob (fun queued job => job = queued) sound ?_ ?_
  · intro pool slots
    rcases slots.exists_slot (Function.update_self ..) with ⟨s, present, references, job⟩
    refine wp_mono (Pool.wp_socks5ResolverQueueJob slots.ok present) ?_
    rintro queued pool' ⟨ok, others, outcome⟩
    refine ⟨queued, rfl, ?_⟩
    cases queued with
    | true =>
        rcases outcome with ⟨-, j, mine⟩
        refine slots.setJob ok others mine ?_ rfl
        rw [Ends.count_setJob, idle]
        simp [Pool.queuedSlot, references]
    | false =>
        rw [if_neg (by simp)] at outcome
        have kept := slots.setJob ok others outcome references job
        rwa [idle] at kept
  · rintro queued job sh' rfl sound'
    exact next job sh' sound'

/-- `socks5_resolver_take_completed`: a completed lookup gives its job up. -/
theorem wp_lockedTake {post : Bool → Local → Prop}
    (sound : sh.Sound (Function.update view id (some e)) none)
    (taken : ∀ sh', Shared.Sound (Function.update view id (some { e with job := false })) none sh' →
      post true ⟨id, cell, sh'⟩)
    (pending : ∀ sh', Shared.Sound (Function.update view id (some e)) none sh' →
      post false ⟨id, cell, sh'⟩) :
    wp (locked (socks5ResolverTakeCompleted id)) post ⟨id, cell, sh⟩ := by
  refine wp_lockedJob (fun completed job => job = if completed then false else e.job)
    sound ?_ ?_
  · intro pool slots
    rcases slots.exists_slot (Function.update_self ..) with ⟨s, present, references, job⟩
    refine wp_mono (Pool.wp_socks5ResolverTakeCompleted slots.ok present) ?_
    rintro completed pool' ⟨ok, others, rfl, mine⟩
    cases finished : s.resolverDone with
    | true =>
        rw [finished, if_pos rfl] at mine
        exact ⟨false, rfl, slots.release present ok others mine⟩
    | false =>
        rw [finished, if_neg (by simp)] at mine
        exact ⟨e.job, rfl, slots.setJob ok others mine references job⟩
  · rintro completed job sh' rfl sound'
    cases completed with
    | true => exact taken sh' sound'
    | false => exact pending sh' sound'

theorem wp_lockedCancel {post : Unit → Local → Prop}
    (sound : sh.Sound (Function.update view id (some e)) none)
    (next : ∀ sh', Shared.Sound (Function.update view id (some { e with job := false })) none sh' →
      post () ⟨id, cell, sh'⟩) :
    wp (locked (socks5ResolverCancelConn id)) post ⟨id, cell, sh⟩ := by
  refine wp_lockedJob (fun _ job => job = false) sound ?_ ?_
  · intro pool slots
    rcases slots.exists_slot (Function.update_self ..) with ⟨s, present, -⟩
    refine wp_mono (Pool.wp_socks5ResolverCancelConn slots.ok present) ?_
    rintro _ pool' ⟨ok, others, mine⟩
    exact ⟨false, rfl, slots.release present ok others mine⟩
  · rintro _ job sh' rfl sound'
    exact next sh' sound'

theorem wp_lockedIsCompleted {post : Bool → Local → Prop}
    (sound : sh.Sound (Function.update view id (some e)) none)
    (next : ∀ completed sh', Shared.Sound (Function.update view id (some e)) none sh' →
      post completed ⟨id, cell, sh'⟩) :
    wp (locked (socks5ResolverIsCompleted id)) post ⟨id, cell, sh⟩ := by
  refine wp_lockedJob (fun _ job => job = e.job) sound ?_ ?_
  · intro pool slots
    rcases slots.exists_slot (Function.update_self ..) with ⟨s, present, -⟩
    simp only [socks5ResolverIsCompleted, wp_bind, Pool.wp_slot, wp_pure]
    exact ⟨s, present, e.job, rfl, slots⟩
  · rintro completed job sh' rfl sound'
    exact next completed sh' sound'

end Resolver

theorem wp_requestRead {a : End} (entered : Entered trusted view id .reqRead c e sh)
    (client : e.client = some a) :
    wp (requestRead a.fd) (Returned trusted view id a.fd .reqRead) ⟨id, .live c, sh⟩ := by
  rcases entered with ⟨sound, fits, current, reachable, ⟨interest, vacant, idle⟩, -, hungry⟩
  have hungry := hungry rfl
  simp only [requestRead, wp_bind]
  refine wp_feedParser feeds_request rfl sound fits current client reachable ?_ ?_
  · intro c' sh' sound' fits' current' reachable'
    simp only [wp_pure]
    exact returned_error sound' fits' current' reachable'
  · intro c' sh' sound' fits' current' reachable' drained stops latest
    have untried : c'.session.latest = none := latest.trans (reachable.untried hungry)
    have empty : c'.writeBuffer.contents = [] := by
      have stage := reachable'.invariant.2
      simp only [Session.Stage, Conn.session, current'] at stage
      exact stage.1
    have refuse : ∀ rep, (c'.session.fail rep).Reachable trusted →
        wp (requestFail rep) (Returned trusted view id a.fd .reqRead) ⟨id, .live c', sh'⟩ :=
      fun rep failed =>
        wp_mono (wp_requestFail a.fd sound' fits' current' idle empty failed) fun _ _ outcome =>
          outcome.2
    simp only [wp_bind, wp_getConn, wp_ite, wp_pure]
    split
    · next invalid => exact refuse _ (reachable'.step (.badRequest _ current' invalid))
    · next valid =>
        split
        · next incomplete =>
            have running : c'.request.stopped = false := by
              simp [Socks5Request.stopped, valid, incomplete]
            exact returned_reading sound' fits' current' client ⟨interest, vacant, idle⟩ reachable'
              (drained running)
        · next complete =>
            have finished : c'.request.state = .done := not_not.mp complete
            split
            · next cmd => exact refuse _ (reachable'.step (.unsupported _ current' finished cmd))
            · next connect =>
                have requested : c'.session.Requested := ⟨current', finished, not_not.mp connect⟩
                have running : c.request.stopped = false := by
                  simpa [Session.Hungry, Conn.session, current] using hungry
                have roomy := stops running (by simp [Socks5Request.stopped, finished])
                split
                · next address =>
                    simp only [buildLiteralAddr, wp_bind, wp_modifyConn, requestConnect, wp_getConn]
                    refine wp_mono (wp_requestConnectFrom sound'
                      (fits'.of_eq rfl rfl rfl rfl rfl rfl rfl rfl) current' idle vacant empty roomy
                      rfl ?_ ?_ ?_) fun _ _ outcome => outcome.2
                    · exact reachable'.step (.literal _ requested address untried)
                    · exact .inl requested
                    · refine .inr ⟨List.cons_ne_nil _ _, ?_, ?_⟩
                      · exact untried.trans_ne (by simp)
                      · rintro ⟨target, pending⟩
                        cases untried.symm.trans pending
                · next name =>
                    refine wp_selectorSetInterest .client sound' client rfl fun sh₁ sound₁ => ?_
                    simp only [if_true, wp_bind, wp_get, wp_getConn]
                    refine wp_lockedQueue sound₁ idle fun queued sh₂ sound₂ => ?_
                    have fits₂ := fits'.arm .client client OP_NOOP
                    simp only [wp_bind, wp_observe, wp_ite, wp_pure]
                    cases queued with
                    | true =>
                        rw [if_pos rfl]
                        refine ⟨_, _, sh₂, rfl, sound₂, ?_, current',
                          reachable'.step (.lookupQueued _ requested name untried),
                            ⟨rfl, vacant, rfl, rfl, roomy⟩,
                          by simp [isReadState], by simp [isReadState]⟩
                        exact (fits₂.job true).of_eq rfl rfl rfl rfl rfl rfl rfl rfl
                    | false =>
                        rw [if_neg (by simp)]
                        refine wp_mono (wp_requestFail a.fd sound₂ ?_ current' rfl empty
                          (reachable'.step (.lookupRefused _ requested name untried)))
                          fun _ _ outcome => outcome.2
                        exact (fits₂.job false).of_eq rfl rfl rfl rfl rfl rfl rfl rfl

/-- `request_resolve_done`: nothing happens until the lookup has completed. -/
theorem wp_requestResolveDone (fd : Fd) (entered : Entered trusted view id .reqResolve c e sh) :
    wp requestResolveDone
      (fun next l => (next = .reqResolve ∨ next = .reqWrite ∨ next = .reqConnecting) ∧
        Returned trusted view id fd .reqResolve next l)
      ⟨id, .live c, sh⟩ := by
  rcases entered with
    ⟨sound, fits, current, reachable, ⟨interest, vacant, job, asked, roomy⟩, -, -⟩
  have empty : c.writeBuffer.contents = [] := by
    have stage := reachable.invariant.2
    simp only [Session.Stage, Conn.session, current] at stage
    exact stage.1
  simp only [requestResolveDone, wp_bind, wp_get]
  refine wp_lockedTake sound ?_ ?_
  · intro sh₁ sound₁
    have fits₁ : Fits c { e with job := false } :=
      ⟨fits.present, fits.clientFd, fits.originFd, fits.readLimit, fits.writeLimit, fits.arrived,
        fits.cached⟩
    rcases sound₁.slots.exists_slot (Function.update_self ..) with ⟨s, present, -⟩
    simp only [if_true, wp_bind, wp_onPool, Pool.wp_slot]
    refine ⟨s, present, ?_⟩
    simp only [wp_observe, wp_ite]
    split
    · next nothing =>
        refine wp_mono (wp_requestFail fd sound₁
          (fits₁.of_eq rfl rfl rfl rfl rfl rfl rfl rfl) current
          rfl empty ?_) fun _ _ outcome => ⟨.inr (.inl outcome.1), outcome.2⟩
        rw [nothing]
        exact reachable.step (.resolvedNothing _ current asked)
    · next some =>
        simp only [wp_bind, wp_modifyConn, requestConnect, wp_getConn]
        refine wp_mono (wp_requestConnectFrom sound₁ (fits₁.of_eq rfl rfl rfl rfl rfl rfl rfl rfl)
          current rfl vacant empty roomy rfl ?_ (.inr (.inl current)) (.inr ⟨some, ?_, ?_⟩))
          fun _ _ outcome => ⟨.inr outcome.next, outcome.2⟩
        · exact reachable.step (.resolved _ s.resolution current some asked)
        · rintro ⟨⟩
        · rintro ⟨target, ⟨⟩⟩
  · intro sh₁ sound₁
    simp only [Bool.false_eq_true, if_false, wp_pure]
    refine ⟨.inl trivial, c, e, sh₁, rfl, sound₁, fits, current, ?_,
      ⟨interest, vacant, job, asked, roomy⟩,
      by simp [isReadState], by simp [isReadState]⟩
    simpa [Session.enter, Conn.session, current] using reachable

/-- `SO_ERROR` is read once; it is clear only if the socket is connected or still connecting. -/
theorem wp_socketError {b : End} {post : Option Errno → Local → Prop}
    (sound : sh.Sound (Function.update view id (some e)) none) (origin : e.origin = some b)
    (started : b.socket.status ≠ .unconnected)
    (next : ∀ error, (error = none → b.socket.status ≠ .inProgress → b.socket.status = .connected) →
      post error ⟨id, .live c, sh⟩) :
    wp (socketError b.fd) post ⟨id, .live c, sh⟩ := by
  have held : View.ends (Function.update view id (some e)) id .origin = some b := by
    simp [View.ends, Ends.get, origin]
  have socket := (sound.table.registered id .origin b held).2
  simp only [socketError, wp_bind, wp_get, wp_pure, socket]
  refine next _ ?_
  intro clear settled
  cases answered : sh.env.getsockopt with
  | some errno => simp [answered] at clear
  | none =>
      rcases known : b.socket with ⟨status, localName⟩
      simp only [known, answered] at started settled clear
      cases status with
      | unconnected => exact absurd rfl started
      | inProgress => exact absurd rfl settled
      | connected => rfl
      | failed errno => simp at clear

theorem wp_closeFailedOrigin {a b : End} {post : Unit → Local → Prop}
    (sound : sh.Sound (Function.update view id (some e)) none) (client : e.client = some a)
    (origin : e.origin = some b) (idle : e.job = false) (clientFd : c.clientFd = some a.fd)
    (originFd : c.originFd = some b.fd)
    (next : ∀ counted sh',
      Shared.Sound (Function.update view id (some { e with origin := none })) none sh' →
      post () ⟨id, .live { c with originFd := none, activeCounted := counted }, sh'⟩) :
    wp closeFailedOrigin post ⟨id, .live c, sh⟩ := by
  simp only [closeFailedOrigin, wp_bind, wp_getConn, originFd]
  exact wp_dropOrigin sound client origin idle clientFd (.inr originFd) next

/-- `request_connecting`: the pending attempt has succeeded, or the next address is tried. -/
theorem wp_requestConnecting {b : End} (entered : Entered trusted view id .reqConnecting c e sh)
    (origin : e.origin = some b) (settled : trusted → b.socket.status ≠ .inProgress) :
    wp (requestConnecting b.fd)
      (Attempted trusted view id fd .reqConnecting c.nextAddr.length) ⟨id, .live c, sh⟩ := by
  rcases entered with
    ⟨sound, fits, current, reachable, ⟨interest, waiting, idle, started, pending, roomy⟩, -, -⟩
  rcases fits.exists_client with ⟨a, client, clientFd⟩
  have originFd : c.originFd = some b.fd := by rw [fits.originFd, origin, Option.map_some]
  have empty : c.writeBuffer.contents = [] := by
    have stage := reachable.invariant.2
    simp only [Session.Stage, Conn.session, current] at stage
    exact stage.1
  simp only [requestConnecting, wp_bind]
  refine wp_socketError sound origin (started b origin) fun error succeeded => ?_
  rw [wp_bind, wp_observe]
  cases error with
  | none =>
      refine wp_mono (wp_requestConnectSuccess sound (fits.of_eq rfl rfl rfl rfl rfl rfl rfl rfl)
        current idle empty origin roomy ?_) fun _ _ => attempted_of_failed
      intro name
      exact reachable.step (.completes _ b.socket.status name current
        (fun sure => succeeded rfl (settled sure)) pending)
  | some errno =>
      simp only [wp_bind, wp_modifyConn]
      refine wp_closeFailedOrigin sound client origin idle clientFd originFd
        fun counted sh₁ sound₁ => ?_
      simp only [wp_modifyConn, requestConnect, wp_bind, wp_getConn]
      refine wp_requestConnectFrom sound₁ ?_ current idle rfl empty roomy rfl ?_
        (.inr (.inr current)) (.inl (.inr ⟨errno, rfl⟩))
      · exact ⟨fits.present, fits.clientFd, rfl, fits.readLimit, fits.writeLimit, fits.arrived,
          fits.cached⟩
      · exact reachable.step (.completesFailing _ errno current pending)

/-- `request_write`: a reply that went out opens the relay or ends the connection. -/
theorem wp_requestWrite (entered : Entered trusted view id .reqWrite c e sh) :
    wp requestWrite (Returned trusted view id fd .reqWrite) ⟨id, .live c, sh⟩ := by
  rcases entered with ⟨sound, fits, current, reachable, armed, -, -⟩
  rcases fits.exists_client with ⟨a, client, clientFd⟩
  simp only [requestWrite, wp_bind, wp_getConn, clientFd]
  refine wp_sendPending fd (.inr (.inr rfl)) sound fits current client armed reachable ?_ ?_
  · intro state l returned
    simpa using returned
  · intro bytes sh' sound' fits' reachable' flushed
    rcases armed with ⟨interest, quiet, idle, -, opened, roomy⟩
    simp only [wp_bind, wp_getConn, wp_pure]
    split
    · next connected =>
        rcases Option.isSome_iff_exists.mp (opened.symm.trans connected) with ⟨b, origin⟩
        have noop : e.origin.map End.interest = some OP_NOOP := by simpa [origin] using quiet
        refine ⟨_, e, sh', rfl, sound', fits', current,
          reachable'.step (.openRelay _ current flushed connected), ⟨idle, ?_⟩,
          by simp [isReadState], by simp [isReadState]⟩
        rw [if_neg (by simp [Conn.afterSending, current])]
        exact ⟨interest, noop, roomy connected⟩
    · next failed =>
        exact ⟨_, e, sh', rfl, sound', fits', current,
          reachable'.step (.refused _ current flushed (by simpa [Conn.session] using failed)),
            trivial,
          by simp [isReadState], by simp [isReadState]⟩

end

end SocksProxy
