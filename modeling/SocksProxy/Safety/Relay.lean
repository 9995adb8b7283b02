import SocksProxy.Safety.Requests

/-!
# Handlers of the relay

A relay moves bytes between its two ends and passes on their half-closes. All
of its handlers preserve `Relaying`; `relay_update` then arms each end for what
the buffers and the open directions call for, or finds that both directions
have ended.
-/

namespace SocksProxy

open Prog

/-- A connection that relays, between two operations of a handler. -/
structure Relaying (trusted : Prop) (view : View) (id : ConnId) (c : Conn) (e : Ends)
    (sh : Shared) : Prop where
  sound : sh.Sound (Function.update view id (some e)) none
  fits : Fits c e
  current : c.current = some .relay
  idle : e.job = false
  cached : RelayCached c e
  reachable : c.session.Reachable trusted

/-- What a handler of the relay returns. -/
def RelayReturned (trusted : Prop) (view : View) (id : ConnId) (fd : Fd) (next : State)
    (l : Local) : Prop :=
  (next = .relay ∨ next = .done ∨ next = .error) ∧ Returned trusted view id fd .relay next l

section

variable {trusted : Prop} {view : View} {id : ConnId} {fd : Fd} {c : Conn} {e : Ends} {sh : Shared}

namespace Relaying

theorem exists_origin (relaying : Relaying trusted view id c e sh) :
    ∃ b, e.origin = some b ∧ c.originFd = some b.fd := by
  have armed := relaying.cached.origin
  cases origin : e.origin with
  | none => simp [origin] at armed
  | some b => exact ⟨b, rfl, by rw [relaying.fits.originFd, origin, Option.map_some]⟩

theorem clientFd_ne (relaying : Relaying trusted view id c e sh) : c.clientFd ≠ c.originFd := by
  rcases relaying.fits.exists_client with ⟨a, client, clientFd⟩
  rcases relaying.exists_origin with ⟨b, origin, originFd⟩
  simpa [clientFd, originFd] using fd_ne_of_sound relaying.sound client origin

/-- Changes that touch neither the descriptors nor the interests. -/
theorem change {c' : Conn} {sh' : Shared} (relaying : Relaying trusted view id c e sh)
    (sound : sh'.Sound (Function.update view id (some e)) none) (fits : Fits c' e)
    (current : c'.current = c.current) (clientInterest : c'.clientInterest = c.clientInterest)
    (originInterest : c'.originInterest = c.originInterest)
    (reachable : c'.session.Reachable trusted) : Relaying trusted view id c' e sh' :=
  ⟨sound, fits, current.trans relaying.current, relaying.idle,
    ⟨clientInterest ▸ relaying.cached.client, originInterest ▸ relaying.cached.origin⟩, reachable⟩

end Relaying

/-! ## Half-closes and interests -/

theorem wp_propagateClientClose {post : Unit → Local → Prop}
    (relaying : Relaying trusted view id c e sh) (packed : c.Packed)
    (next : ∀ c', Relaying trusted view id c' e sh → c'.Packed → c'.ClientPassed →
      post () ⟨id, .live c', sh⟩) :
    wp propagateClientClose post ⟨id, .live c, sh⟩ := by
  simp only [propagateClientClose, wp_bind, wp_getConn, wp_ite, wp_pure]
  split
  · next due =>
      simp only [Bool.and_eq_true, Bool.not_eq_true', Buffer.canRead_eq_false_iff] at due
      rcases due with ⟨⟨closed, delivered⟩, once⟩
      simp only [shutdownWrite, wp_bind, wp_getConn, relaying.clientFd_ne, if_false, wp_observe,
        wp_modifyConn]
      refine next _ (relaying.change relaying.sound ?_ rfl rfl rfl ?_) packed fun _ _ => rfl
      · exact relaying.fits.of_eq rfl rfl rfl rfl rfl rfl rfl rfl
      · exact relaying.reachable.step (.relayShutOrigin _ relaying.current closed delivered once)
  · next undue =>
      refine next c relaying packed fun closed delivered => ?_
      simpa [closed, Buffer.canRead_eq_false_iff, delivered] using undue

theorem wp_propagateOriginClose {post : Unit → Local → Prop}
    (relaying : Relaying trusted view id c e sh) (packed : c.Packed) (passed : c.ClientPassed)
    (next : ∀ c', Relaying trusted view id c' e sh → c'.Packed → c'.ClientPassed → c'.OriginPassed →
      post () ⟨id, .live c', sh⟩) :
    wp propagateOriginClose post ⟨id, .live c, sh⟩ := by
  simp only [propagateOriginClose, wp_bind, wp_getConn, wp_ite, wp_pure]
  split
  · next due =>
      simp only [Bool.and_eq_true, Bool.not_eq_true', Buffer.canRead_eq_false_iff] at due
      rcases due with ⟨⟨closed, delivered⟩, once⟩
      simp only [shutdownWrite, wp_bind, wp_getConn, if_true, wp_observe, wp_modifyConn]
      refine next _ (relaying.change relaying.sound ?_ rfl rfl rfl ?_) packed passed fun _ _ => rfl
      · exact relaying.fits.of_eq rfl rfl rfl rfl rfl rfl rfl rfl
      · exact relaying.reachable.step (.relayShutClient _ relaying.current closed delivered once)
  · next undue =>
      refine next c relaying packed passed fun closed delivered => ?_
      simpa [closed, Buffer.canRead_eq_false_iff, delivered] using undue

theorem wp_relayArmClient_of_ne {a : End} {post : Bool → Local → Prop}
    (sound : sh.Sound (Function.update view id (some e)) none) (client : e.client = some a)
    (clientFd : c.clientFd = some a.fd) (changed : relayClientInterest c ≠ c.clientInterest)
    (next : ∀ sh', Shared.Sound (Function.update view id (some
        (e.put .client (some { a with interest := relayClientInterest c })))) none sh' →
      post true ⟨id, .live { c with clientInterest := relayClientInterest c }, sh'⟩) :
    wp relayArmClient post ⟨id, .live c, sh⟩ := by
  rw [relayArmClient, wp_bind, wp_getConn, if_pos changed, wp_bind]
  refine wp_selectorSetInterest .client sound client clientFd fun sh' sound' => ?_
  simp only [if_true, wp_bind, wp_modifyConn, wp_pure]
  exact next sh' sound'

theorem wp_relayArmClient {post : Bool → Local → Prop} (relaying : Relaying trusted view id c e sh)
    (next : ∀ e' sh', Relaying trusted view id { c with clientInterest := relayClientInterest c } e'
      sh' → post true ⟨id, .live { c with clientInterest := relayClientInterest c }, sh'⟩) :
    wp relayArmClient post ⟨id, .live c, sh⟩ := by
  rcases relaying.fits.exists_client with ⟨a, client, clientFd⟩
  by_cases same : relayClientInterest c = c.clientInterest
  · have unchanged : ({ c with clientInterest := relayClientInterest c } : Conn) = c := by rw [same]
    have result := next e sh
    rw [unchanged] at result
    simpa [relayArmClient, same] using result relaying
  · refine wp_relayArmClient_of_ne relaying.sound client clientFd same fun sh' sound' => ?_
    have fits := relaying.fits.arm .client client (relayClientInterest c)
    refine next _ sh' ⟨sound', ?_, relaying.current, relaying.idle, ⟨rfl, ?_⟩,
      relaying.reachable⟩
    · exact ⟨fits.present, fits.clientFd, fits.originFd, fits.readLimit, fits.writeLimit,
        fits.arrived, fun outside => absurd relaying.current outside⟩
    · exact relaying.cached.origin

theorem wp_relayArmOrigin {post : Bool → Local → Prop} (relaying : Relaying trusted view id c e sh)
    (next : ∀ e' sh', Relaying trusted view id { c with originInterest := relayOriginInterest c } e'
      sh' → post true ⟨id, .live { c with originInterest := relayOriginInterest c }, sh'⟩) :
    wp relayArmOrigin post ⟨id, .live c, sh⟩ := by
  rcases relaying.exists_origin with ⟨b, origin, originFd⟩
  simp only [relayArmOrigin, wp_bind, wp_getConn, wp_ite, wp_pure]
  split
  · refine wp_selectorSetInterest .origin relaying.sound origin originFd fun sh' sound' => ?_
    simp only [if_true, wp_bind, wp_modifyConn, wp_pure]
    have fits := relaying.fits.arm .origin origin (relayOriginInterest c)
    refine next _ sh' ⟨sound', ?_, relaying.current, relaying.idle, ⟨?_, rfl⟩, relaying.reachable⟩
    · exact ⟨fits.present, fits.clientFd, fits.originFd, fits.readLimit, fits.writeLimit,
        fits.arrived, fun outside => absurd relaying.current outside⟩
    · exact relaying.cached.client
  · next same =>
      have unchanged : ({ c with originInterest := relayOriginInterest c } : Conn) = c := by
        rw [not_not.mp same]
      have result := next e sh
      rw [unchanged] at result
      exact result relaying

/-- `relay_update`: the relay goes on with what it wants armed, or both directions have ended. -/
theorem wp_relayUpdate (fd : Fd) (relaying : Relaying trusted view id c e sh) :
    wp relayUpdate (RelayReturned trusted view id fd) ⟨id, .live c, sh⟩ := by
  simp only [relayUpdate, wp_bind, wp_modifyConn]
  have compacted : Relaying trusted view id
      { c with readBuffer := c.readBuffer.compact, writeBuffer := c.writeBuffer.compact } e sh := by
    refine relaying.change relaying.sound ?_ rfl rfl rfl ?_
    · exact relaying.fits.of_eq rfl rfl (by simp) (by simp) rfl rfl rfl rfl
    · simpa [Conn.session] using relaying.reachable
  refine wp_propagateClientClose compacted ⟨Buffer.read_compact _, Buffer.read_compact _⟩
    fun c₁ relaying₁ packed₁ passed₁ => ?_
  rw [wp_bind]
  refine wp_propagateOriginClose relaying₁ packed₁ passed₁
    fun c₂ relaying₂ packed₂ clientPassed originPassed => ?_
  simp only [wp_bind, wp_getConn, wp_ite, wp_pure, Bool.and_eq_true]
  split
  · next ended =>
      refine ⟨.inr (.inl rfl), c₂, e, sh, rfl, relaying₂.sound, relaying₂.fits,
        relaying₂.current, ?_, trivial, by simp [isReadState], by simp [isReadState]⟩
      exact relaying₂.reachable.step (.relayDone _ relaying₂.current ended.1 ended.2)
  · next goesOn =>
      refine wp_relayArmClient relaying₂ fun e₃ sh₃ relaying₃ => ?_
      simp only [if_true, wp_bind]
      refine wp_relayArmOrigin relaying₃ fun e₄ sh₄ relaying₄ => ?_
      simp only [if_true, wp_pure]
      refine ⟨.inl rfl, _, e₄, sh₄, rfl, relaying₄.sound, relaying₄.fits, relaying₄.current, ?_,
        ⟨relaying₄.idle, ?_⟩, by simp [isReadState], by simp [isReadState]⟩
      · have stays := relaying₄.reachable
        simpa [Session.enter, Conn.session, relaying₂.current] using stays
      · rw [if_pos relaying₄.current]
        exact ⟨relaying₄.cached, rfl, rfl, packed₂, clientPassed, originPassed, goesOn⟩

theorem wp_relayUpdate_of_open {post : State → Local → Prop} (client : c.clientClosed = false)
    (origin : c.originClosed = false) (unshut : c.clientWrShut = false)
    (armed : wp relayArmClient (fun yes => wp (do
        if yes then if ← relayArmOrigin then pure .relay else pure .error else pure .error) post)
      ⟨id, .live { c with
        readBuffer := c.readBuffer.compact, writeBuffer := c.writeBuffer.compact }, sh⟩) :
    wp relayUpdate post ⟨id, .live c, sh⟩ := by
  simpa [relayUpdate, propagateClientClose, propagateOriginClose, client, origin, unshut] using
    armed

/-- `relay_init`: the relay starts with both directions open. The client is still armed for writing,
which is not what the connection remembers; since the read buffer has room the client is to be read
from, so that it is armed anew. -/
theorem wp_relayInit (fd : Fd) {post : Unit → Local → Prop}
    (sound : sh.Sound (Function.update view id (some e)) none) (fits : Fits c e)
    (current : c.current = some .relay) (idle : e.job = false)
    (clientInterest : c.clientInterest = OP_NOOP)
    (cached : e.origin.map End.interest = some c.originInterest) (roomy : c.Roomy)
    (reachable : (c.session.arrive .relay).Reachable trusted)
    (next : ∀ l, Returned trusted view id fd .relay .relay l → post () l) :
    wp relayInit post ⟨id, .live c, sh⟩ := by
  rcases fits.exists_client with ⟨a, client, clientFd⟩
  simp only [relayInit, wp_bind, wp_getConn, wp_observe, wp_modifyConn]
  refine wp_relayUpdate_of_open rfl rfl rfl ?_
  refine wp_relayArmClient_of_ne sound client clientFd ?_ fun sh₁ sound₁ => ?_
  · have room : c.readBuffer.compact.canWrite = true := by
      rw [Buffer.canWrite_iff, Buffer.space_compact]
      exact Nat.sub_pos_of_lt roomy
    simp [relayClientInterest, room, clientInterest, OP_NOOP]
  · simp only [if_true, wp_bind]
    refine wp_relayArmOrigin ⟨sound₁, ?_, current, idle, ⟨rfl, cached⟩,
      show Session.Reachable trusted _ from ?_⟩ fun e₂ sh₂ relaying => ?_
    · have armed := fits.arm .client client OP_NOOP
      exact ⟨armed.present, by simpa [Ends.put] using armed.clientFd, armed.originFd,
        by simpa using armed.readLimit, by simpa using armed.writeLimit, armed.arrived,
        fun outside => absurd current outside⟩
    · simpa [Conn.session, Session.arrive] using reachable
    · simp only [if_true, wp_pure, reduceCtorEq, if_false]
      refine next _ ⟨_, e₂, sh₂, rfl, relaying.sound, relaying.fits, relaying.current, ?_,
        ⟨relaying.idle, ?_⟩, by simp [isReadState], by simp [isReadState]⟩
      · have stays := relaying.reachable
        simpa [Session.enter, Conn.session, current] using stays
      · rw [if_pos relaying.current]
        exact ⟨relaying.cached, rfl, rfl, ⟨Buffer.read_compact _, Buffer.read_compact _⟩,
          by simp [Conn.ClientPassed], by simp [Conn.OriginPassed], by simp⟩

/-! ## Moving bytes -/

/-- The loop of `relay_flush` ends within as many rounds as there are bytes pending. -/
theorem wp_relayFlushLoop {post : State → Local → Prop} (toClient : Bool) {rounds : Nat}
    (relaying : Relaying trusted view id c e sh)
    (enough : (relaySource c toClient).pending ≤ rounds)
    (broken : ∀ c' sh', Shared.Sound (Function.update view id (some e)) none sh' → Fits c' e →
      c'.current = some .relay → (c'.session.enter .error).Reachable trusted →
      post .error ⟨id, .live c', sh'⟩)
    (flushed : ∀ c' sh', Relaying trusted view id c' e sh' → post .relay ⟨id, .live c', sh'⟩) :
    wp (relayFlushLoop toClient rounds) post ⟨id, .live c, sh⟩ := by
  -- On the rounds: every send that takes something leaves less pending than rounds remain.
  induction rounds generalizing c sh with
  | zero =>
      have empty : (relaySource c toClient).canRead = false := by
        rw [Buffer.canRead_eq_false_iff, ← List.length_eq_zero_iff, Buffer.length_contents]
        omega
      simp only [relayFlushLoop, wp_bind, wp_getConn, empty, Bool.false_eq_true, if_false, wp_pure]
      exact flushed c sh relaying
  | succ rounds ih =>
      rcases relaying.fits.exists_client with ⟨a, client, clientFd⟩
      rcases relaying.exists_origin with ⟨b, origin, originFd⟩
      have target : (if toClient then c.clientFd else c.originFd) =
          some (if toClient then a.fd else b.fd) := by
        cases toClient <;> simp [clientFd, originFd]
      simp only [relayFlushLoop, wp_bind, wp_getConn, wp_ite, wp_pure, target]
      split
      · refine wp_send relaying.sound ?_ ?_ ?_ ?_
        · intro errno sh' blocks sound'
          simp only [wp_pure, blocks, if_true]
          exact flushed c sh' (relaying.change sound' relaying.fits rfl rfl rfl relaying.reachable)
        · intro errno sh' breaks sound'
          simp only [wp_pure, breaks, Bool.false_eq_true, if_false]
          refine broken _ sh' sound' (relaying.fits.of_eq rfl rfl rfl rfl rfl rfl rfl rfl)
            relaying.current ?_
          exact relaying.reachable.step (.ioError _ (by simp [Conn.session, relaying.current]))
        · intro sh' sound'
          simp only [wp_pure]
          refine flushed _ sh' (relaying.change sound' ?_ rfl rfl rfl ?_)
          · exact relaying.fits.of_eq rfl rfl rfl rfl rfl rfl rfl rfl
          · exact relaying.reachable.step (.relayStall _ relaying.current)
        · intro bytes rest sh' some pending sound'
          have shorter : bytes.length ≠ 0 := by simpa using some
          have apart : a.fd ≠ b.fd := fd_ne_of_sound relaying.sound client origin
          simp only [wp_bind, wp_modifyConn]
          cases toClient with
          | true =>
              refine ih (relaying.change sound' ?_ rfl rfl rfl ?_) ?_
              · exact relaying.fits.of_eq rfl rfl rfl (by simp [relaySourceAdv]) rfl rfl rfl rfl
              · have taken := relaying.reachable.step
                  (.send _ bytes rest (.inr relaying.current) pending)
                have left : (c.writeBuffer.readAdv bytes.length).contents = rest := by
                  rw [Buffer.contents_readAdv]
                  simpa [relaySource] using congrArg (List.drop bytes.length) pending
                simpa [Conn.session, relaySourceAdv, clientFd, left] using taken
              · rw [← Buffer.length_contents] at enough ⊢
                simp [relaySource, relaySourceAdv] at enough ⊢
                omega
          | false =>
              refine ih (relaying.change sound' ?_ rfl rfl rfl ?_) ?_
              · exact relaying.fits.of_eq rfl rfl (by simp [relaySourceAdv]) rfl rfl rfl rfl rfl
              · have taken := relaying.reachable.step
                  (.relayForward _ bytes rest relaying.current pending)
                have left : (c.readBuffer.readAdv bytes.length).contents = rest := by
                  rw [Buffer.contents_readAdv]
                  simpa [relaySource] using congrArg (List.drop bytes.length) pending
                simpa [Conn.session, relaySourceAdv, clientFd, apart, left] using taken
              · rw [← Buffer.length_contents] at enough ⊢
                simp [relaySource, relaySourceAdv] at enough ⊢
                omega
      · exact flushed c sh relaying

/-- A flush that is followed by `relay_update`, as both relay handlers have it. -/
theorem wp_relayFlushUpdate (toClient : Bool) (relaying : Relaying trusted view id c e sh) :
    wp (do if (← relayFlush toClient) = .error then pure .error else relayUpdate)
      (RelayReturned trusted view id fd) ⟨id, .live c, sh⟩ := by
  simp only [relayFlush, wp_bind, wp_getConn]
  refine wp_relayFlushLoop toClient relaying le_rfl ?_ ?_
  · intro c' sh' sound' fits' current' reachable'
    simp only [if_true, wp_pure]
    exact ⟨.inr (.inr rfl), returned_error sound' fits' current' reachable'⟩
  · intro c' sh' relaying'
    simp only [reduceCtorEq, if_false]
    exact wp_relayUpdate fd relaying'

/-- A client that is armed for reading has not closed, and there is room for its bytes. -/
theorem RelayArmed.client_read {a : End} (armed : RelayArmed c e) (client : e.client = some a)
    (wanted : a.interest.read = true) : c.clientClosed = false ∧ 0 < c.readBuffer.space := by
  have interest : a.interest = c.clientInterest := by simpa [client] using armed.client
  rw [interest, armed.clientWanted] at wanted
  simpa [relayClientInterest, Buffer.canWrite_iff] using wanted

theorem RelayArmed.origin_read {b : End} (armed : RelayArmed c e) (origin : e.origin = some b)
    (wanted : b.interest.read = true) : c.originClosed = false ∧ 0 < c.writeBuffer.space := by
  have interest : b.interest = c.originInterest := by simpa [origin] using armed.origin
  rw [interest, armed.originWanted] at wanted
  simpa [relayOriginInterest, Buffer.canWrite_iff] using wanted

theorem Relaying.stay {sh' : Shared} (relaying : Relaying trusted view id c e sh)
    (armed : RelayArmed c e) (sound : sh'.Sound (Function.update view id (some e)) none) :
    RelayReturned trusted view id fd .relay ⟨id, .live c, sh'⟩ := by
  refine ⟨.inl rfl, c, e, sh', rfl, sound, relaying.fits, relaying.current, ?_, ⟨relaying.idle, ?_⟩,
    by simp [isReadState], by simp [isReadState]⟩
  · simpa [Session.enter, Conn.session, relaying.current] using relaying.reachable
  · rwa [if_pos relaying.current]

theorem Relaying.fails {sh' : Shared} (relaying : Relaying trusted view id c e sh)
    (sound : sh'.Sound (Function.update view id (some e)) none) :
    RelayReturned trusted view id fd .error ⟨id, .live (c.observed .ioError), sh'⟩ := by
  refine ⟨.inr (.inr rfl), returned_error sound
    (relaying.fits.of_eq rfl rfl rfl rfl rfl rfl rfl rfl) relaying.current ?_⟩
  exact relaying.reachable.step (.ioError _ (by simp [Conn.session, relaying.current]))

theorem wp_relayRead_client {a : End} (relaying : Relaying trusted view id c e sh)
    (armed : RelayArmed c e) (client : e.client = some a) (wanted : a.interest.read = true) :
    wp (relayRead a.fd) (RelayReturned trusted view id fd) ⟨id, .live c, sh⟩ := by
  rcases armed.client_read client wanted with ⟨isOpen, room⟩
  have clientFd : c.clientFd = some a.fd := by
    rw [relaying.fits.clientFd, client, Option.map_some]
  simp only [relayRead, wp_bind, wp_getConn, clientFd, decide_true, if_true, Bool.not_true]
  refine wp_recv room relaying.sound ?_ ?_ ?_ ?_
  · intro errno sh' blocks sound'
    simpa [blocks] using relaying.stay armed sound'
  · intro errno sh' breaks sound'
    simpa [breaks] using relaying.fails sound'
  · intro sh' sound'
    simp only [wp_bind, wp_modifyConn, clientFd, if_true]
    refine wp_relayUpdate fd (relaying.change sound' ?_ rfl rfl rfl ?_)
    · exact relaying.fits.of_eq rfl rfl rfl rfl rfl rfl rfl rfl
    · exact relaying.reachable.step (.relayClientEof _ relaying.current isOpen)
  · intro bytes sh' some fit sound'
    simp only [clientFd, if_true]
    rw [wp_bind, wp_modifyConn, wp_bind, wp_modifyShared]
    refine wp_relayFlushUpdate false (relaying.change ?_ ?_ rfl rfl rfl ?_)
    · exact sound'.of_eq rfl rfl rfl rfl rfl rfl
    · exact relaying.fits.of_eq rfl rfl (by simp) rfl rfl rfl rfl rfl
    · have received := relaying.reachable.step (.relayReceive _ bytes relaying.current isOpen)
      simpa [Conn.session, Buffer.contents_store_of_le fit] using received

theorem wp_relayRead_origin {b : End} (relaying : Relaying trusted view id c e sh)
    (armed : RelayArmed c e) (origin : e.origin = some b) (wanted : b.interest.read = true) :
    wp (relayRead b.fd) (RelayReturned trusted view id fd) ⟨id, .live c, sh⟩ := by
  rcases armed.origin_read origin wanted with ⟨isOpen, room⟩
  have notClient : ¬c.clientFd = some b.fd := by
    have apart := relaying.clientFd_ne
    rwa [relaying.fits.originFd, origin, Option.map_some] at apart
  simp only [relayRead, wp_bind, wp_getConn, notClient, decide_false, Bool.false_eq_true, if_false,
    Bool.not_false]
  refine wp_recv room relaying.sound ?_ ?_ ?_ ?_
  · intro errno sh' blocks sound'
    simpa [blocks] using relaying.stay armed sound'
  · intro errno sh' breaks sound'
    simpa [breaks] using relaying.fails sound'
  · intro sh' sound'
    simp only [wp_bind, wp_modifyConn, notClient, if_false]
    refine wp_relayUpdate fd (relaying.change sound' ?_ rfl rfl rfl ?_)
    · exact relaying.fits.of_eq rfl rfl rfl rfl rfl rfl rfl rfl
    · exact relaying.reachable.step (.relayOriginEof _ relaying.current isOpen)
  · intro bytes sh' some fit sound'
    simp only [notClient, if_false]
    rw [wp_bind, wp_modifyConn, wp_bind, wp_modifyShared]
    refine wp_relayFlushUpdate true (relaying.change ?_ ?_ rfl rfl rfl ?_)
    · exact sound'.of_eq rfl rfl rfl rfl rfl rfl
    · exact relaying.fits.of_eq rfl rfl rfl (by simp) rfl rfl rfl rfl
    · have fetched := relaying.reachable.step (.relayFetch _ bytes relaying.current isOpen)
      simpa [Conn.session, Buffer.contents_store_of_le fit] using fetched

theorem wp_relayWrite {ready : Fd} (relaying : Relaying trusted view id c e sh) :
    wp (relayWrite ready) (RelayReturned trusted view id fd) ⟨id, .live c, sh⟩ := by
  unfold relayWrite
  rw [wp_bind, wp_getConn]
  exact wp_relayFlushUpdate _ relaying

end

end SocksProxy
