import SocksProxy.Session.History

/-!
# Byte streams of a session

Until relaying begins the client is sent the queued replies and nothing else;
from then on each peer is sent what the other one sent, in order. The invariant
`Flow` says so in every state of a session, including what is still buffered and
what the half-closes imply.
-/

namespace SocksProxy

namespace Obs

/-- Observations that only relaying makes. -/
def isRelaying : Obs → Bool
  | .fetched _ | .forwarded _ | .originEof | .shutClient | .shutOrigin => true
  | _ => false

/-- Observations of the handshake that carry no bytes in either direction to the client and do not
begin the relay. -/
def isNeutral : Obs → Bool
  | .sent _ | .chose _ _ | .validated _ _ | .replied _ _ | .leftover _ => false
  | what => !what.isRelaying

/-- Observations that say nothing about the relayed streams or their ends. -/
def isIdle : Obs → Bool
  | .ioError | .stalled | .timedOut | .entered _ => true
  | _ => false

theorem neutral_of_idle {what : Obs} (idle : what.isIdle = true) : what.isNeutral = true := by
  cases what <;> first | rfl | nomatch idle

theorem of_neutral {what : Obs} (neutral : what.isNeutral = true) :
    what.isRelaying = false ∧ what.sentBytes = [] ∧ what.replyBytes = [] ∧
      ∀ bytes, what ≠ .leftover bytes := by
  cases what <;> first | (simp [isRelaying]; done) | nomatch neutral

theorem of_idle {what : Obs} (idle : what.isIdle = true) :
    what.receivedBytes = [] ∧ what.sentBytes = [] ∧ what.fetchedBytes = [] ∧
      what.forwardedBytes = [] ∧ what.isDecision = false ∧ .shutOrigin ≠ what ∧
      .shutClient ≠ what := by
  cases what <;> first | (simp; done) | nomatch idle

theorem of_decision {what : Obs} (decision : what.isDecision = true) :
    what.isRelaying = false ∧ what.sentBytes = [] ∧ ∀ bytes, what ≠ .leftover bytes := by
  cases what <;> first | (simp [isRelaying]; done) | nomatch decision

end Obs

theorem History.relaySplit_cons {what : Obs} (h : List Obs)
    (inside : ∀ bytes, what ≠ .leftover bytes) : relaySplit (what :: h) =
      (relaySplit h).map fun (late, bytes, early) => (what :: late, bytes, early) := by
  cases what <;> first | rfl | exact absurd rfl (inside _)

theorem History.exchanged_eq_nil {h : List Obs} (calm : ∀ what ∈ h, what.isRelaying = false) :
    forwarded h = [] ∧ fetched h = [] := by
  constructor
  · refine collect_eq_nil fun what member => ?_
    have silent := calm what member
    cases what <;> first | rfl | nomatch silent
  · refine collect_eq_nil fun what member => ?_
    have silent := calm what member
    cases what <;> first | rfl | nomatch silent

namespace Session

open History

/-- The history of the handshake: what happened before relaying began. -/
def handshake (h : List Obs) : List Obs :=
  match relaySplit h with
  | some (_, _, early) => early
  | none => h

@[simp]
theorem phase_enter (s : Session) (next : State) : (s.enter next).phase = some next := by
  unfold enter
  split
  · assumption
  · cases next <;> rfl

@[simp]
theorem phase_fail (s : Session) (rep : UInt8) : (s.fail rep).phase = some .reqWrite :=
  phase_enter _ _

@[simp]
theorem phase_succeed (s : Session) (status : SocketStatus) (name : Option Sockaddr) :
    (s.succeed status name).phase = some .reqWrite := by
  unfold succeed
  split <;> simp

theorem enter_of_ne {s : Session} {next : State} (moves : s.phase ≠ some next) :
    s.enter next =
      ({ s with phase := some next, hist := .entered next :: s.hist } : Session).arrive next :=
  if_neg moves

/-- Before relaying: nothing was relayed, and the client was sent the queued replies up to those
still in the buffer. -/
structure Early (s : Session) : Prop where
  unsplit : relaySplit s.hist = none
  quiet : ∀ what ∈ s.hist, what.isRelaying = false
  balance : sent s.hist ++ s.out = queued s.hist

namespace Early

variable {s s' : Session}

theorem of_eq (early : s.Early) (hist : s'.hist = s.hist) (out : s'.out = s.out) : s'.Early := by
  refine ⟨?_, ?_, ?_⟩
  · rw [hist]
    exact early.unsplit
  · rw [hist]
    exact early.quiet
  · rw [hist, out]
    exact early.balance

theorem fetched (early : s.Early) : fetched s.hist = [] := (exchanged_eq_nil early.quiet).2

theorem forwarded (early : s.Early) : forwarded s.hist = [] := (exchanged_eq_nil early.quiet).1

theorem cons (early : s.Early) {what : Obs} (neutral : what.isNeutral = true)
    (hist : s'.hist = what :: s.hist) (out : s'.out = s.out) : s'.Early := by
  rcases early with ⟨unsplit, quiet, balance⟩
  rcases Obs.of_neutral neutral with ⟨calm, unsent, unqueued, inside⟩
  refine ⟨?_, ?_, ?_⟩
  · rw [hist, relaySplit_cons _ inside, unsplit, Option.map_none]
  · rw [hist]
    simpa only [List.forall_mem_cons, calm, true_and] using quiet
  · rw [hist, out, sent_cons, queued_cons, unsent, unqueued, List.append_nil, List.append_nil,
      balance]

theorem note (early : s.Early) {what : Obs} (neutral : what.isNeutral = true) :
    (s.note what).Early :=
  early.cons neutral rfl rfl

theorem reply (early : s.Early) {what : Obs} (decision : what.isDecision = true)
    (hist : s'.hist = what :: s.hist) (out : s'.out = s.out ++ what.replyBytes) : s'.Early := by
  rcases early with ⟨unsplit, quiet, balance⟩
  rcases Obs.of_decision decision with ⟨calm, unsent, inside⟩
  refine ⟨?_, ?_, ?_⟩
  · rw [hist, relaySplit_cons _ inside, unsplit, Option.map_none]
  · rw [hist]
    simpa only [List.forall_mem_cons, calm, true_and] using quiet
  · rw [hist, out, sent_cons, queued_cons, unsent, List.append_nil, ← List.append_assoc, balance]

theorem send (early : s.Early) {bytes rest : List UInt8} (pending : s.out = bytes ++ rest)
    (hist : s'.hist = .sent bytes :: s.hist) (out : s'.out = rest) : s'.Early := by
  rcases early with ⟨unsplit, quiet, balance⟩
  refine ⟨?_, ?_, ?_⟩
  · rw [hist]
    simp [relaySplit, unsplit]
  · rw [hist]
    simpa [Obs.isRelaying] using quiet
  · rw [hist, out]
    simpa [pending] using balance

theorem enter (early : s.Early) {next : State} (handshake : next ≠ .relay) :
    (s.enter next).Early := by
  unfold Session.enter
  split
  · exact early
  · cases next with
    | relay => exact absurd rfl handshake
    | _ => exact early.cons (show Obs.isNeutral (.entered _) = true from rfl) rfl rfl

theorem recordFailure (early : s.Early) (rep : UInt8) : (s.recordFailure rep).Early := by
  unfold Session.recordFailure failureRecord
  split
  · exact early.note rfl
  · exact early

theorem answer (early : s.Early) (rep : UInt8) (reply : List UInt8) (connected : Bool) :
    (s.answer rep reply connected).Early :=
  early.reply (show Obs.isDecision (.replied rep reply) = true from rfl) rfl rfl

theorem fail (early : s.Early) (rep : UInt8) : (s.fail rep).Early :=
  Early.enter ((early.recordFailure rep).answer rep _ false) (by decide)

theorem succeed (early : s.Early) (status : SocketStatus) (name : Option Sockaddr) :
    (s.succeed status name).Early := by
  have asked : ((s.note (.established status)).note (.named name)).Early :=
    (early.note rfl).note rfl
  unfold Session.succeed
  split
  · exact asked.fail _
  · next reply _ => exact Early.enter ((asked.answer _ reply true).note rfl) (by decide)

end Early

/-- Since relaying began with the bytes `pipelined` unread: both streams, the ends of input that
were seen, and the write sides that were shut. -/
structure Relayed (s : Session) (late : List Obs) (pipelined : List UInt8) (early : List Obs) :
    Prop where
  answered : sent early = queued early
  undecided : ∀ what ∈ late, what.isDecision = false
  calm : ∀ what ∈ early, what.isRelaying = false
  upstream : forwarded late ++ s.unread = pipelined ++ received late
  downstream : sent late ++ s.out = fetched late
  clientEnded : s.clientClosed = true → .clientEof ∈ late
  originEnded : s.originClosed = true → .originEof ∈ late
  originOpen : s.originWrShut = false → .shutOrigin ∉ late
  clientOpen : s.clientWrShut = false → .shutClient ∉ late
  originShut : s.originWrShut = true → .shutOrigin ∈ late ∧ s.clientClosed = true ∧ s.unread = []
  clientShut : s.clientWrShut = true → .shutClient ∈ late ∧ s.originClosed = true ∧ s.out = []

theorem Relayed.idle {s s' : Session} {late early : List Obs} {pipelined : List UInt8}
    (relayed : s.Relayed late pipelined early) {what : Obs} (quiet : what.isIdle = true)
    (unread : s'.unread = s.unread) (out : s'.out = s.out)
    (clientClosed : s'.clientClosed = s.clientClosed)
    (originClosed : s'.originClosed = s.originClosed)
    (clientWrShut : s'.clientWrShut = s.clientWrShut)
    (originWrShut : s'.originWrShut = s.originWrShut) :
    s'.Relayed (what :: late) pipelined early := by
  rcases relayed with ⟨answered, undecided, calm, upstream, downstream, clientEnded, originEnded,
    originOpen, clientOpen, originShut, clientShut⟩
  rcases Obs.of_idle quiet with ⟨noReceived, noSent, noFetched, noForwarded, plain, notOrigin,
    notClient⟩
  refine ⟨answered, ?_, calm, ?_, ?_, ?_, ?_, ?_, ?_, ?_, ?_⟩
  · simpa only [List.forall_mem_cons, plain, true_and] using undecided
  · simpa only [forwarded_cons, received_cons, noReceived, noForwarded, unread, List.append_nil]
  · simpa only [sent_cons, fetched_cons, noSent, noFetched, out, List.append_nil]
  · exact fun closed => List.mem_cons_of_mem _ (clientEnded (clientClosed ▸ closed))
  · exact fun closed => List.mem_cons_of_mem _ (originEnded (originClosed ▸ closed))
  · simpa only [List.mem_cons, notOrigin, false_or, originWrShut] using originOpen
  · simpa only [List.mem_cons, notClient, false_or, clientWrShut] using clientOpen
  · simpa only [List.mem_cons, notOrigin, false_or, originWrShut, clientClosed, unread]
      using originShut
  · simpa only [List.mem_cons, notClient, false_or, clientWrShut, originClosed, out]
      using clientShut

theorem Relayed.totals {s : Session} {late early : List Obs} {pipelined : List UInt8}
    (relayed : s.Relayed late pipelined early)
    (split : relaySplit s.hist = some (late, pipelined, early)) :
    forwarded s.hist = forwarded late ∧ fetched s.hist = fetched late := by
  rcases exchanged_eq_nil relayed.calm with ⟨unsent, unfetched⟩
  rw [eq_append_of_relaySplit split]
  constructor
  · rw [forwarded, collect_append, ← forwarded, ← forwarded, forwarded_cons, unsent]
    simp
  · rw [fetched, collect_append, ← fetched, ← fetched, fetched_cons, unfetched]
    simp

/-- The phases after the handshake. -/
def Past (s : Session) : Prop :=
  s.phase = some .relay ∨ s.phase = some .done ∨ s.phase = some .error

/-- Both streams are kept, before relaying and after. -/
structure Flow (s : Session) : Prop where
  early : relaySplit s.hist = none → s.Early ∧ s.phase ≠ some .relay
  late : ∀ {late pipelined early}, relaySplit s.hist = some (late, pipelined, early) →
    s.Past ∧ s.Relayed late pipelined early

namespace Flow

variable {s s' : Session}

theorem of_early (early : s.Early) (handshake : s.phase ≠ some .relay) : s.Flow := by
  refine ⟨fun _ => ⟨early, handshake⟩, fun split => ?_⟩
  simp [early.unsplit] at split

theorem of_late {late early : List Obs} {pipelined : List UInt8}
    (split : relaySplit s.hist = some (late, pipelined, early)) (past : s.Past)
    (relayed : s.Relayed late pipelined early) : s.Flow := by
  refine ⟨fun unsplit => ?_, fun {late' pipelined' early'} found => ?_⟩
  · simp [split] at unsplit
  · rw [split] at found
    simp only [Option.some.injEq, Prod.mk.injEq] at found
    rcases found with ⟨rfl, rfl, rfl⟩
    exact ⟨past, relayed⟩

theorem before (flow : s.Flow) (handshake : ¬s.Past) : s.Early := by
  cases split : relaySplit s.hist with
  | none => exact (flow.early split).1
  | some found =>
      rcases found with ⟨late, pipelined, early⟩
      exact absurd (flow.late split).1 handshake

theorem after (flow : s.Flow) (phase : s.phase = some .relay) :
    ∃ late pipelined early, relaySplit s.hist = some (late, pipelined, early) ∧
      s.Relayed late pipelined early := by
  cases split : relaySplit s.hist with
  | none => exact absurd phase (flow.early split).2
  | some found =>
      rcases found with ⟨late, pipelined, early⟩
      exact ⟨late, pipelined, early, rfl, (flow.late split).2⟩

theorem idle (flow : s.Flow) {what : Obs} (quiet : what.isIdle = true)
    (hist : s'.hist = what :: s.hist) (phase : s'.phase = s.phase ∨ s'.phase = some .error ∨
      s'.phase = some .done)
    (same : s'.unread = s.unread ∧ s'.out = s.out ∧ s'.clientClosed = s.clientClosed ∧
      s'.originClosed = s.originClosed ∧ s'.clientWrShut = s.clientWrShut ∧
      s'.originWrShut = s.originWrShut) : s'.Flow := by
  rcases same with ⟨unread, out, clientClosed, originClosed, clientWrShut, originWrShut⟩
  have neutral := Obs.neutral_of_idle quiet
  cases split : relaySplit s.hist with
  | none =>
      rcases flow.early split with ⟨early, handshake⟩
      refine of_early (early.cons neutral hist out) ?_
      rcases phase with same | ended | ended
      · rwa [same]
      · simp [ended]
      · simp [ended]
  | some found =>
      rcases found with ⟨late, pipelined, early⟩
      rcases flow.late split with ⟨past, relayed⟩
      have longer : relaySplit s'.hist = some (what :: late, pipelined, early) := by
        rw [hist, relaySplit_cons _ (Obs.of_neutral neutral).2.2.2, split, Option.map_some]
      refine of_late longer ?_ ?_
      · rcases phase with same | ended | ended
        · simpa [Past, same] using past
        · exact .inr (.inr ended)
        · exact .inr (.inl ended)
      · exact relayed.idle quiet unread out clientClosed originClosed clientWrShut originWrShut

theorem enter_of_before (flow : s.Flow) (handshake : ¬s.Past) {next : State}
    (target : next ≠ .relay) : (s.enter next).Flow :=
  of_early ((flow.before handshake).enter target) (by simpa using target)

theorem end_session (flow : s.Flow) {next : State} (final : next = .done ∨ next = .error) :
    (s.enter next).Flow := by
  unfold Session.enter
  split
  · exact flow
  · rcases final with rfl | rfl
    · exact flow.idle (show Obs.isIdle (.entered .done) = true from rfl) rfl (.inr (.inr rfl))
        ⟨rfl, rfl, rfl, rfl, rfl, rfl⟩
    · exact flow.idle (show Obs.isIdle (.entered .error) = true from rfl) rfl (.inr (.inl rfl))
        ⟨rfl, rfl, rfl, rfl, rfl, rfl⟩

theorem openRelay (flow : s.Flow) (phase : s.phase = some .reqWrite) (flushed : s.out = []) :
    (s.enter .relay).Flow := by
  have early := flow.before (by simp [Past, phase])
  rw [enter_of_ne (by simp [phase])]
  have split : relaySplit (.leftover s.unread :: .entered .relay :: s.hist) =
      some ([], s.unread, .entered .relay :: s.hist) := rfl
  refine of_late split (.inl rfl) ?_
  refine ⟨?_, by simp, ?_, by simp [arrive], by simpa [arrive] using flushed, ?_, ?_, ?_, ?_, ?_,
    ?_⟩
  · simpa [flushed] using early.balance
  · simpa [Obs.isRelaying] using early.quiet
  all_goals simp [arrive]

theorem relay (flow : s.Flow) (phase : s.phase = some .relay) {what : Obs}
    (inside : ∀ bytes, what ≠ .leftover bytes) (hist : s'.hist = what :: s.hist)
    (stays : s'.phase = some .relay)
    (kept : ∀ {late pipelined early}, s.Relayed late pipelined early →
      s'.Relayed (what :: late) pipelined early) : s'.Flow := by
  rcases flow.after phase with ⟨late, pipelined, early, split, relayed⟩
  refine of_late ?_ (.inl stays) (kept relayed)
  rw [hist, relaySplit_cons _ inside, split, Option.map_some]

end Flow

namespace Relayed

variable {s : Session} {late early : List Obs} {pipelined : List UInt8}

theorem receive (relayed : s.Relayed late pipelined early) (isOpen : s.clientClosed = false)
    (bytes : List UInt8) :
    ({ s with unread := s.unread ++ bytes, hist := .received bytes :: s.hist } : Session).Relayed
      (.received bytes :: late) pipelined early := by
  rcases relayed with ⟨answered, undecided, calm, upstream, downstream, clientEnded, originEnded,
    originOpen, clientOpen, originShut, clientShut⟩
  refine ⟨answered, by simpa using undecided, calm, ?_, by simpa using downstream, ?_, ?_, ?_, ?_,
    ?_, ?_⟩
  · simp only [forwarded_cons, received_cons, Obs.forwardedBytes, Obs.receivedBytes,
      List.append_nil, ← List.append_assoc, upstream]
  · simp [isOpen]
  · simpa using originEnded
  · simpa using originOpen
  · simpa using clientOpen
  · intro shut
    simp [isOpen] at originShut
    simp [originShut] at shut
  · simpa using clientShut

theorem fetch (relayed : s.Relayed late pipelined early) (isOpen : s.originClosed = false)
    (bytes : List UInt8) :
    ({ s with out := s.out ++ bytes, hist := .fetched bytes :: s.hist } : Session).Relayed
      (.fetched bytes :: late) pipelined early := by
  rcases relayed with ⟨answered, undecided, calm, upstream, downstream, clientEnded, originEnded,
    originOpen, clientOpen, originShut, clientShut⟩
  refine ⟨answered, by simpa using undecided, calm, by simpa using upstream, ?_, ?_, ?_, ?_, ?_, ?_,
    ?_⟩
  · simp only [sent_cons, fetched_cons, Obs.sentBytes, Obs.fetchedBytes, List.append_nil,
      ← List.append_assoc, downstream]
  · simpa using clientEnded
  · simp [isOpen]
  · simpa using originOpen
  · simpa using clientOpen
  · simpa using originShut
  · intro shut
    simp [isOpen] at clientShut
    simp [clientShut] at shut

theorem forward (relayed : s.Relayed late pipelined early) {bytes rest : List UInt8}
    (pending : s.unread = bytes ++ rest) :
    ({ s with unread := rest, hist := .forwarded bytes :: s.hist } : Session).Relayed
      (.forwarded bytes :: late) pipelined early := by
  rcases relayed with ⟨answered, undecided, calm, upstream, downstream, clientEnded, originEnded,
    originOpen, clientOpen, originShut, clientShut⟩
  refine ⟨answered, by simpa using undecided, calm, ?_, by simpa using downstream, ?_, ?_, ?_, ?_,
    ?_, ?_⟩
  · simpa [pending] using upstream
  · simpa using clientEnded
  · simpa using originEnded
  · simpa using originOpen
  · simpa using clientOpen
  · intro shut
    rcases originShut shut with ⟨member, closed, drained⟩
    rw [pending, List.append_eq_nil_iff] at drained
    exact ⟨by simp [member], closed, drained.2⟩
  · simpa using clientShut

theorem send (relayed : s.Relayed late pipelined early) {bytes rest : List UInt8}
    (pending : s.out = bytes ++ rest) :
    ({ s with out := rest, hist := .sent bytes :: s.hist } : Session).Relayed
      (.sent bytes :: late) pipelined early := by
  rcases relayed with ⟨answered, undecided, calm, upstream, downstream, clientEnded, originEnded,
    originOpen, clientOpen, originShut, clientShut⟩
  refine ⟨answered, by simpa using undecided, calm, by simpa using upstream, ?_, ?_, ?_, ?_, ?_, ?_,
    ?_⟩
  · simpa [pending] using downstream
  · simpa using clientEnded
  · simpa using originEnded
  · simpa using originOpen
  · simpa using clientOpen
  · simpa using originShut
  · intro shut
    rcases clientShut shut with ⟨member, closed, drained⟩
    rw [pending, List.append_eq_nil_iff] at drained
    exact ⟨by simp [member], closed, drained.2⟩

theorem clientEof (relayed : s.Relayed late pipelined early) :
    ({ s.note .clientEof with clientClosed := true } : Session).Relayed
      (.clientEof :: late) pipelined early := by
  rcases relayed with ⟨answered, undecided, calm, upstream, downstream, clientEnded, originEnded,
    originOpen, clientOpen, originShut, clientShut⟩
  refine ⟨answered, by simpa using undecided, calm, by simpa using upstream, by simpa using
    downstream,
    by simp, by simpa using originEnded, by simpa using originOpen, by simpa using clientOpen, ?_,
    by simpa using clientShut⟩
  intro shut
  rcases originShut shut with ⟨member, -, drained⟩
  exact ⟨by simp [member], rfl, drained⟩

theorem originEof (relayed : s.Relayed late pipelined early) :
    ({ s.note .originEof with originClosed := true } : Session).Relayed
      (.originEof :: late) pipelined early := by
  rcases relayed with ⟨answered, undecided, calm, upstream, downstream, clientEnded, originEnded,
    originOpen, clientOpen, originShut, clientShut⟩
  refine ⟨answered, by simpa using undecided, calm, by simpa using upstream, by simpa using
    downstream,
    by simpa using clientEnded, by simp, by simpa using originOpen, by simpa using clientOpen,
    by simpa using originShut, ?_⟩
  intro shut
  rcases clientShut shut with ⟨member, -, drained⟩
  exact ⟨by simp [member], rfl, drained⟩

theorem shutOrigin (relayed : s.Relayed late pipelined early) (closed : s.clientClosed = true)
    (delivered : s.unread = []) :
    ({ s.note .shutOrigin with originWrShut := true } : Session).Relayed
      (.shutOrigin :: late) pipelined early := by
  rcases relayed with ⟨answered, undecided, calm, upstream, downstream, clientEnded, originEnded,
    originOpen, clientOpen, originShut, clientShut⟩
  exact ⟨answered, by simpa using undecided, calm, by simpa using upstream, by simpa using
    downstream,
    by simpa using clientEnded, by simpa using originEnded, by simp, by simpa using clientOpen,
    fun _ => ⟨by simp, closed, delivered⟩, by simpa using clientShut⟩

theorem shutClient (relayed : s.Relayed late pipelined early) (closed : s.originClosed = true)
    (delivered : s.out = []) :
    ({ s.note .shutClient with clientWrShut := true } : Session).Relayed
      (.shutClient :: late) pipelined early := by
  rcases relayed with ⟨answered, undecided, calm, upstream, downstream, clientEnded, originEnded,
    originOpen, clientOpen, originShut, clientShut⟩
  exact ⟨answered, by simpa using undecided, calm, by simpa using upstream, by simpa using
    downstream,
    by simpa using clientEnded, by simpa using originEnded, by simpa using originOpen, by simp,
    by simpa using originShut, fun _ => ⟨by simp, closed, delivered⟩⟩

end Relayed

theorem Reading.not_past {s : Session} (reading : s.Reading) : ¬s.Past := by
  rcases reading with ⟨state, phase, reads⟩
  cases state <;> simp_all [Past, isReadState]

theorem Answering.not_past {s : Session} (answering : s.Answering) : ¬s.Past := by
  rcases answering with phase | phase | phase <;> simp [Past, phase]

theorem Hungry.not_past {s : Session} (hungry : s.Hungry) : ¬s.Past := by
  rcases hungry with ⟨phase, -⟩ | ⟨phase, -⟩ | ⟨phase, -⟩ <;> simp [Past, phase]

theorem Connecting.not_past {s : Session} (connecting : s.Connecting) : ¬s.Past := by
  rcases connecting with ⟨phase, -⟩ | phase | phase <;> simp [Past, phase]

theorem Requested.connecting {s : Session} (requested : s.Requested) :
    s.Connecting := .inl requested

theorem not_relay_of_not_past {s : Session} (handshake : ¬s.Past) : s.phase ≠ some .relay :=
  fun phase => handshake (.inl phase)

theorem Flow.initial : Session.initial.Flow :=
  .of_early ⟨rfl, by simp [Session.initial], rfl⟩ (by simp [Session.initial])

/-- Every step keeps both streams. -/
theorem Flow.step {trusted : Prop} {s s' : Session} (step : Step trusted s s') (flow : s.Flow) :
    s'.Flow := by
  cases step with
  | start fresh => exact flow.enter_of_before (by simp [Past, fresh]) (by decide)
  | receive bytes reading =>
      have handshake := reading.not_past
      exact .of_early ((flow.before handshake).cons
        (show Obs.isNeutral (.received bytes) = true from rfl) rfl rfl)
        (not_relay_of_not_past handshake)
  | parseNeg phase | parseAuth phase | parseRequest phase =>
      exact .of_early ((flow.before (by simp [Past, phase])).of_eq rfl rfl) (by simp [phase])
  | clientGone hungry =>
      have early := (flow.before hungry.not_past).note
        (show Obs.isNeutral .clientEof = true from rfl)
      exact .of_early (early.enter (by decide)) (by simp)
  | ioError begun =>
      refine Flow.end_session ?_ (.inr rfl)
      exact flow.idle (show Obs.isIdle .ioError = true from rfl) rfl (.inl rfl)
        ⟨rfl, rfl, rfl, rfl, rfl, rfl⟩
  | badGreeting | badCredentials | methodRefused | authRefused =>
      exact flow.end_session (.inr rfl)
  | choose store phase complete =>
      have early := flow.before (by simp [Past, phase])
      refine .of_early (Early.enter ?_ (by decide)) (by simp)
      exact early.reply (show Obs.isDecision (.chose _ store) = true from rfl) rfl rfl
  | validate store status phase complete judged =>
      have early := flow.before (by simp [Past, phase])
      refine .of_early (Early.enter ?_ (by decide)) (by simp)
      exact early.reply (show Obs.isDecision (.validated status store) = true from rfl) rfl rfl
  -- The write buffer holds a reply of the handshake or, once relaying, the origin's bytes.
  | send bytes rest answering pending =>
      rcases answering with answering | phase
      · have handshake := answering.not_past
        exact .of_early ((flow.before handshake).send pending rfl rfl)
          (not_relay_of_not_past handshake)
      · exact flow.relay phase (by simp) rfl phase fun relayed => relayed.send pending
  | stall answering =>
      refine Flow.end_session ?_ (.inr rfl)
      exact flow.idle (show Obs.isIdle .stalled = true from rfl) rfl (.inl rfl)
        ⟨rfl, rfl, rfl, rfl, rfl, rfl⟩
  | methodUserpass phase | methodNoauth phase | authAccepted phase =>
      exact flow.enter_of_before (by simp [Past, phase]) (by decide)
  | badRequest phase | unsupported phase =>
      exact .of_early ((flow.before (by simp [Past, phase])).fail _) (by simp)
  | literal requested address =>
      have handshake := requested.connecting.not_past
      exact .of_early ((flow.before handshake).of_eq rfl rfl) (not_relay_of_not_past handshake)
  | lookupRefused requested name =>
      have early := flow.before requested.connecting.not_past
      exact .of_early (Early.fail (early.note rfl) _) (by simp)
  | lookupQueued requested name =>
      have early := flow.before requested.connecting.not_past
      exact .of_early (Early.enter (early.note rfl) (by decide)) (by simp)
  | resolvedNothing phase =>
      have early := flow.before (by simp [Past, phase])
      exact .of_early (Early.fail (early.note rfl) _) (by simp)
  | resolved addresses phase some =>
      have early := flow.before (by simp [Past, phase])
      exact .of_early ((early.note rfl).of_eq rfl rfl) (by simp [phase])
  | attemptFails target rest error connecting targets =>
      have handshake := connecting.not_past
      refine .of_early ?_ (not_relay_of_not_past handshake)
      exact (flow.before handshake).cons
        (show Obs.isNeutral (.attempt target _) = true from rfl) rfl rfl
  | attemptUnusable target rest connecting targets =>
      have early := flow.before connecting.not_past
      refine .of_early (Early.fail ?_ _) (by simp)
      exact early.cons (show Obs.isNeutral (.attempt target _) = true from rfl) rfl rfl
  | attemptPends target rest connecting targets =>
      have early := flow.before connecting.not_past
      refine .of_early (Early.enter ?_ (by decide)) (by simp)
      exact early.cons (show Obs.isNeutral (.attempt target _) = true from rfl) rfl rfl
  | attemptSucceeds target rest status name connecting targets sound =>
      have early := flow.before connecting.not_past
      refine .of_early (Early.succeed ?_ _ _) (by simp)
      exact early.cons (show Obs.isNeutral (.attempt target _) = true from rfl) rfl rfl
  | exhausted connecting targets =>
      exact .of_early ((flow.before connecting.not_past).fail _) (by simp)
  | completes status name phase sound =>
      have early := flow.before (by simp [Past, phase])
      exact .of_early (Early.succeed (early.note rfl) _ _) (by simp)
  | completesFailing error phase =>
      have early := flow.before (by simp [Past, phase])
      exact .of_early ((early.note rfl).of_eq rfl rfl) (by simp [phase])
  | expire =>
      exact flow.idle (show Obs.isIdle .timedOut = true from rfl) rfl (.inl rfl)
        ⟨rfl, rfl, rfl, rfl, rfl, rfl⟩
  | expireConnecting phase | expireResolving phase =>
      have early := flow.before (by simp [Past, phase])
      exact .of_early (Early.fail (early.note rfl) _) (by simp)
  | openRelay phase flushed connected => exact flow.openRelay phase flushed
  | refused | relayDone => exact flow.end_session (.inl rfl)
  | relayReceive bytes phase isOpen =>
      exact flow.relay phase (by simp) rfl phase fun relayed => relayed.receive isOpen bytes
  | relayFetch bytes phase isOpen =>
      exact flow.relay phase (by simp) rfl phase fun relayed => relayed.fetch isOpen bytes
  | relayForward bytes rest phase pending =>
      exact flow.relay phase (by simp) rfl phase fun relayed => relayed.forward pending
  | relayStall phase =>
      exact flow.idle (show Obs.isIdle .stalled = true from rfl) rfl (.inl rfl)
        ⟨rfl, rfl, rfl, rfl, rfl, rfl⟩
  | relayClientEof phase isOpen =>
      exact flow.relay phase (by simp) rfl phase Relayed.clientEof
  | relayOriginEof phase isOpen =>
      exact flow.relay phase (by simp) rfl phase Relayed.originEof
  | relayShutOrigin phase closed delivered once =>
      exact flow.relay phase (by simp) rfl phase fun relayed => relayed.shutOrigin closed delivered
  | relayShutClient phase closed delivered once =>
      exact flow.relay phase (by simp) rfl phase fun relayed => relayed.shutClient closed delivered

end Session

end SocksProxy
