import SocksProxy.Guarantees.Process

/-!
# What a relay waits for

The selector is told of an interest only when it differs from the one that was
remembered, and what is remembered at first is not what is armed. The results
here say that this never goes wrong: a relay always waits for exactly what its
buffers and its open directions call for, and never for nothing.
-/

namespace SocksProxy

open History

/-- A peer has no more to send. -/
def Obs.isEof : Obs → Bool
  | .clientEof | .originEof => true
  | _ => false

namespace Session

variable {s s' : Session}

/-- Unless a session has ended, an end of input was seen exactly by the relay that remembers it. -/
def Remembers (s : Session) : Prop :=
  ¬s.Ended →
    (.clientEof ∈ s.hist → s.phase = some .relay ∧ s.clientClosed = true) ∧
      (.originEof ∈ s.hist → s.phase = some .relay ∧ s.originClosed = true)

theorem remembers_of_ended (ended : s.Ended) : s.Remembers := fun going => absurd ended going

/-- Steps that see no end of input, and neither leave a relay nor reopen it. -/
theorem Remembers.grow (remembers : s.Remembers)
    (grows : Grows (fun what => what.isEof = false) s.hist s'.hist) (going : ¬s.Ended)
    (relays : s.phase = some .relay → s'.phase = some .relay ∧
      s'.clientClosed = s.clientClosed ∧ s'.originClosed = s.originClosed) : s'.Remembers := by
  rcases grows with ⟨marks, grown, silent⟩
  rcases remembers going with ⟨client, origin⟩
  have older : ∀ what, what.isEof = true → what ∈ s'.hist → what ∈ s.hist := by
    intro what ends member
    rw [grown, List.mem_append] at member
    refine member.resolve_left fun new => ?_
    rw [silent what new] at ends
    cases ends
  refine fun _ => ⟨fun seen => ?_, fun seen => ?_⟩
  · rcases client (older _ rfl seen) with ⟨phase, closed⟩
    rcases relays phase with ⟨phase', same, -⟩
    exact ⟨phase', same.trans closed⟩
  · rcases origin (older _ rfl seen) with ⟨phase, closed⟩
    rcases relays phase with ⟨phase', -, same⟩
    exact ⟨phase', same.trans closed⟩

theorem Remembers.handshake (remembers : s.Remembers)
    (grows : Grows (fun what => what.isEof = false) s.hist s'.hist) (early : ¬s.Past) :
    s'.Remembers :=
  remembers.grow grows (fun ended => early (.inr ended)) fun phase => absurd (.inl phase) early

theorem Remembers.relay {what : Obs} (remembers : s.Remembers) (phase : s.phase = some .relay)
    (silent : what.isEof = false) (hist : s'.hist = what :: s.hist)
    (same : s'.phase = s.phase ∧ s'.clientClosed = s.clientClosed ∧
      s'.originClosed = s.originClosed) : s'.Remembers := by
  refine remembers.grow ⟨[what], hist, by simpa using silent⟩ (by simp [Ended, phase]) fun _ => ?_
  exact ⟨same.1.trans phase, same.2⟩

theorem answerable_silent : Answerable (fun what => what.isEof = false) :=
  ⟨rfl, fun _ _ => rfl, fun _ _ _ => rfl⟩

theorem grows_silent_enter {h : List Obs} {next : State}
    (grows : Grows (fun what => what.isEof = false) h s.hist) :
    Grows (fun what => what.isEof = false) h (s.enter next).hist :=
  Grows.enter grows rfl fun _ _ => rfl

theorem Step.remembers {trusted : Prop} (step : Step trusted s s') (remembers : s.Remembers) :
    s'.Remembers := by
  cases step with
  | start fresh => exact remembers.handshake (grows_silent_enter .refl) (by simp [Past, fresh])
  | receive bytes reading => exact remembers.handshake (Grows.refl.cons rfl) reading.not_past
  | parseNeg phase | parseAuth phase | parseRequest phase =>
      exact remembers.handshake .refl (by simp [Past, phase])
  | clientGone | ioError | badGreeting | badCredentials | stall | methodRefused | authRefused =>
      exact remembers_of_ended (.inr (phase_enter _ _))
  | refused | relayDone => exact remembers_of_ended (.inl (phase_enter _ _))
  | choose store phase | validate store status phase =>
      exact remembers.handshake (grows_silent_enter (Grows.refl.cons rfl)) (by simp [Past, phase])
  | send bytes rest answering pending =>
      rcases answering with answering | phase
      · exact remembers.handshake (Grows.refl.cons rfl) answering.not_past
      · exact remembers.relay phase rfl rfl ⟨rfl, rfl, rfl⟩
  | methodUserpass phase | methodNoauth phase | authAccepted phase | openRelay phase =>
      exact remembers.handshake (grows_silent_enter .refl) (by simp [Past, phase])
  | badRequest phase | unsupported phase =>
      exact remembers.handshake (Grows.fail .refl answerable_silent) (by simp [Past, phase])
  | exhausted connecting =>
      exact remembers.handshake (Grows.fail .refl answerable_silent) connecting.not_past
  | literal requested => exact remembers.handshake .refl requested.connecting.not_past
  | lookupRefused requested =>
      exact remembers.handshake (Grows.fail (Grows.refl.cons rfl) answerable_silent)
        requested.connecting.not_past
  | lookupQueued requested =>
      exact remembers.handshake (grows_silent_enter (Grows.refl.cons rfl))
        requested.connecting.not_past
  | resolvedNothing phase | expireConnecting phase | expireResolving phase =>
      exact remembers.handshake (Grows.fail (Grows.refl.cons rfl) answerable_silent)
        (by simp [Past, phase])
  | resolved addresses phase | completesFailing error phase =>
      exact remembers.handshake (Grows.refl.cons rfl) (by simp [Past, phase])
  | attemptFails target rest error connecting =>
      exact remembers.handshake (Grows.refl.cons rfl) connecting.not_past
  | attemptUnusable target rest connecting =>
      exact remembers.handshake (Grows.fail (Grows.refl.cons rfl) answerable_silent)
        connecting.not_past
  | attemptPends target rest connecting =>
      exact remembers.handshake (grows_silent_enter (Grows.refl.cons rfl)) connecting.not_past
  | attemptSucceeds target rest status name connecting =>
      exact remembers.handshake (Grows.succeed (Grows.refl.cons rfl) answerable_silent rfl rfl)
        connecting.not_past
  | completes status name phase =>
      exact remembers.handshake (Grows.succeed (Grows.refl.cons rfl) answerable_silent rfl rfl)
        (by simp [Past, phase])
  | expire =>
      intro going
      exact remembers.grow (Grows.refl.cons rfl) going (fun phase => ⟨phase, rfl, rfl⟩) going
  | relayReceive bytes phase | relayFetch bytes phase | relayForward bytes rest phase
  | relayStall phase | relayShutOrigin phase | relayShutClient phase =>
      exact remembers.relay phase rfl rfl ⟨rfl, rfl, rfl⟩
  | relayClientEof phase isOpen =>
      intro going
      refine ⟨fun _ => ⟨phase, rfl⟩, fun seen => ?_⟩
      exact (remembers (by simp [Ended, phase])).2 (by simpa using seen)
  | relayOriginEof phase isOpen =>
      intro going
      refine ⟨fun seen => ?_, fun _ => ⟨phase, rfl⟩⟩
      exact (remembers (by simp [Ended, phase])).1 (by simpa using seen)

theorem Reachable.remembers {trusted : Prop} (reachable : s.Reachable trusted) : s.Remembers := by
  induction reachable with
  | refl => exact fun _ => ⟨by simp [initial], by simp [initial]⟩
  | tail _ step ih => exact step.remembers ih

/-- A relay has marked a direction as closed exactly if its end of input was seen. -/
theorem Reachable.closed_iff {trusted : Prop} (reachable : s.Reachable trusted)
    (phase : s.phase = some .relay) :
    (s.clientClosed = true ↔ .clientEof ∈ s.hist) ∧
    (s.originClosed = true ↔ .originEof ∈ s.hist) := by
  have going : ¬s.Ended := by simp [Ended, phase]
  rcases reachable.remembers going with ⟨client, origin⟩
  rcases reachable.invariant.1.after phase with ⟨late, pipelined, early, split, relayed⟩
  have recent : late ⊆ s.hist := by
    rw [eq_append_of_relaySplit split]
    exact List.subset_append_left _ _
  exact ⟨⟨fun closed => recent (relayed.clientEnded closed), fun seen => (client seen).2⟩,
    fun closed => recent (relayed.originEnded closed), fun seen => (origin seen).2⟩

end Session

/-- What a relay waits for: the interests that are registered are the ones it remembers, and are
exactly what its buffers and the ends of input it has seen call for; one of them is not empty. -/
structure RelayInterests (sel : Selector) (c : Conn) : Prop where
  client : sel.armed c.clientFd = some c.clientInterest
  origin : sel.armed c.originFd = some c.originInterest
  clientRead : c.clientInterest.read = true ↔
    .clientEof ∉ c.hist ∧ c.readBuffer.contents.length < c.readBuffer.limit
  clientWrite : c.clientInterest.write = true ↔ c.writeBuffer.contents ≠ []
  originRead : c.originInterest.read = true ↔
    .originEof ∉ c.hist ∧ c.writeBuffer.contents.length < c.writeBuffer.limit
  originWrite : c.originInterest.write = true ↔ c.readBuffer.contents ≠ []
  busy : ¬(c.clientInterest = OP_NOOP ∧ c.originInterest = OP_NOOP)

/-- A buffer whose free space is in one piece can be written to unless it is full. -/
theorem Buffer.canWrite_of_packed {b : Buffer} (packed : b.read = 0) :
    b.canWrite = true ↔ b.contents.length < b.limit := by
  rw [Buffer.canWrite_iff, Buffer.length_contents, Buffer.pending, packed, Buffer.space]
  exact Nat.sub_pos_iff_lt

section

variable {trusted : Prop} {c : Conn} {e : Ends}

/-- A write side that was shut has nothing pending, so the flag takes nothing from the interest. -/
theorem relayInterests_write (reachable : c.session.Reachable trusted)
    (relays : c.current = some .relay) :
    ((relayClientInterest c).write = true ↔ c.writeBuffer.contents ≠ []) ∧
      ((relayOriginInterest c).write = true ↔ c.readBuffer.contents ≠ []) := by
  rcases reachable.invariant.1.after relays with ⟨late, pipelined, early, split, relayed⟩
  have clientShut : c.clientWrShut = true → c.writeBuffer.contents = [] := fun shut =>
    (relayed.clientShut shut).2.2
  have originShut : c.originWrShut = true → c.readBuffer.contents = [] := fun shut =>
    (relayed.originShut shut).2.2
  simp only [relayClientInterest, relayOriginInterest, Bool.and_eq_true, Buffer.canRead_iff,
    Bool.not_eq_true']
  constructor
  · refine ⟨fun wanted => wanted.1, fun pending => ⟨pending, ?_⟩⟩
    exact Bool.eq_false_iff.mpr fun shut => pending (clientShut shut)
  · refine ⟨fun wanted => wanted.1, fun pending => ⟨pending, ?_⟩⟩
    exact Bool.eq_false_iff.mpr fun shut => pending (originShut shut)

theorem relayInterests_read (reachable : c.session.Reachable trusted)
    (relays : c.current = some .relay) (packed : c.Packed) :
    ((relayClientInterest c).read = true ↔
        .clientEof ∉ c.hist ∧ c.readBuffer.contents.length < c.readBuffer.limit) ∧
      ((relayOriginInterest c).read = true ↔
        .originEof ∉ c.hist ∧ c.writeBuffer.contents.length < c.writeBuffer.limit) := by
  rcases reachable.closed_iff relays with ⟨client, origin⟩
  have clientEof : c.clientClosed = true ↔ .clientEof ∈ c.hist := client
  have originEof : c.originClosed = true ↔ .originEof ∈ c.hist := origin
  simp only [relayClientInterest, relayOriginInterest, Bool.and_eq_true, Bool.not_eq_true',
    Buffer.canWrite_of_packed packed.1, Buffer.canWrite_of_packed packed.2, ← clientEof,
      ← originEof,
    Bool.not_eq_true, and_self]

/-- A relay with nothing to wait for would have been over. -/
theorem RelayArmed.busy (armed : RelayArmed c e) (fits : Fits c e)
    (reachable : c.session.Reachable trusted) (relays : c.current = some .relay) :
    ¬(c.clientInterest = OP_NOOP ∧ c.originInterest = OP_NOOP) := by
  rintro ⟨client, origin⟩
  rw [armed.clientWanted] at client
  rw [armed.originWanted] at origin
  rcases relayInterests_write reachable relays with ⟨clientWrite, originWrite⟩
  have delivered : c.writeBuffer.contents = [] := by
    by_contra pending
    simpa [client, OP_NOOP] using clientWrite.mpr pending
  have forwarded : c.readBuffer.contents = [] := by
    by_contra pending
    simpa [origin, OP_NOOP] using originWrite.mpr pending
  have room : ∀ b : Buffer, b.read = 0 → b.contents = [] → 512 ≤ b.limit → b.canWrite = true := by
    intro b packed empty limit
    rw [Buffer.canWrite_of_packed packed, empty, List.length_nil]
    omega
  have clientClosed : c.clientClosed = true := by
    have wanted := congrArg Interest.read client
    simpa [relayClientInterest, room _ armed.packed.1 forwarded fits.readLimit, OP_NOOP] using
      wanted
  have originClosed : c.originClosed = true := by
    have wanted := congrArg Interest.read origin
    simpa [relayOriginInterest, room _ armed.packed.2 delivered fits.writeLimit, OP_NOOP] using
      wanted
  exact armed.goesOn
    ⟨armed.originPassed originClosed delivered, armed.clientPassed clientClosed forwarded⟩

end

namespace World

/-- From the moment it begins, a relay waits for exactly what it can go on with: after every event,
whatever the sockets answered, the interests of both of its descriptors are the remembered ones, a
peer is read from exactly if it has not closed and there is room for its bytes, pending bytes always
have a write armed, and the two interests are never both empty. -/
theorem relay_waits_exactly {w : World} {k : ConnId} {c : Conn} (reachable : w.Reachable)
    (active : w.mode = .running ∨ w.mode = .joining) (found : w.heap k = some (.live c))
    (relays : c.current = some .relay) : RelayInterests w.sh.sel c := by
  rcases reachable.ok with ⟨view, inv⟩
  rcases inv.resting found with ⟨e, mine, resting⟩
  have rest : AtRest False c e := by
    rcases active with mode | mode <;> simpa only [mode, Resting] using resting
  have armed : RelayArmed c e := by
    have waits := rest.armed
    rw [show stmState c = .relay by simp [stmState, relays]] at waits
    simpa [Armed, relays] using waits.2
  rcases relayInterests_write rest.reachable relays with ⟨clientWrite, originWrite⟩
  rcases relayInterests_read rest.reachable relays armed.packed with ⟨clientRead, originRead⟩
  refine ⟨?_, ?_, ?_, ?_, ?_, ?_, armed.busy rest.fits rest.reachable relays⟩
  · rw [rest.fits.clientFd]
    exact (armed_eq inv mine .client).trans armed.client
  · rw [rest.fits.originFd]
    exact (armed_eq inv mine .origin).trans armed.origin
  · rw [armed.clientWanted]
    exact clientRead
  · rw [armed.clientWanted]
    exact clientWrite
  · rw [armed.originWanted]
    exact originRead
  · rw [armed.originWanted]
    exact originWrite

/-- The relay of the conversation, entered with two bytes the client had sent ahead. -/
theorem relay_waits_exactly_for_pipelined :
    ∃ (w : World) (c : Conn), w.Reachable ∧ w.heap 0 = some (.live c) ∧
      c.current = some .relay ∧ c.readBuffer.contents = [104, 105] ∧ RelayInterests w.sh.sel c := by
  have live : endsWith (arrival ++ request ++ [.write 4 { quiet with sends := [.taken 99] }])
      (fun w => w.mode = .running &&
        liveTest 0 (fun c => c.current = some .relay && c.readBuffer.contents = [104, 105]) w) =
        true := by
    decide +kernel
  rcases exists_of_endsWith live with ⟨w, reachable, passed⟩
  rcases Bool.and_eq_true _ _ |>.mp passed with ⟨running, tested⟩
  rcases exists_of_liveTest tested with ⟨c, found, state⟩
  rcases Bool.and_eq_true _ _ |>.mp state with ⟨relays, ahead⟩
  have phase : c.current = some .relay := of_decide_eq_true relays
  exact ⟨w, c, reachable, found, phase, of_decide_eq_true ahead,
    relay_waits_exactly reachable (.inl (of_decide_eq_true running)) found phase⟩

end World

end SocksProxy
