import SocksProxy.Library.Deterministic
import SocksProxy.Server.UserStore
import SocksProxy.Session.Guarantees
import SocksProxy.Session.Network

/-!
# The course of a handshake

How the client's bytes are cut into pieces and how its replies get out makes no
difference to a handshake. `Course` is a machine to compare with: it has the
whole byte stream at hand, its replies leave at once, and the answers of the
network come from a list. Being a partial function it has one course only. A
session follows that course, stuttering while it waits for bytes or for room to
send, so whatever two sessions have come to under the same circumstances lies on
the same course.
-/

namespace SocksProxy

/-- What the network reports to a session. -/
inductive Answer where
  | lookup (queued : Bool)
  | resolved (addresses : List Sockaddr)
  | attempt (result : AttemptResult)
  | completed (error : Option Errno)
  | named (name : Option Sockaddr)
  deriving DecidableEq

namespace Obs

/-- The answer of the network that is observed. -/
def answer : Obs → Option Answer
  | .lookup queued => some (.lookup queued)
  | .resolved addresses => some (.resolved addresses)
  | .attempt _ result => some (.attempt result)
  | .completed error => some (.completed error)
  | .named name => some (.named name)
  | _ => none

/-- What an observation says apart from how bytes travelled. The state machine starts in `NEG_READ`
whether or not it has been entered; neither what the kernel knows of a socket nor how the user store
lies in memory is the session's. -/
def essence : Obs → Option Obs
  | .received _ | .sent _ | .leftover _ | .entered .negRead => none
  | .chose method _ => some (.chose method usersInit)
  | .validated status _ => some (.validated status usersInit)
  | .established _ => some (.established .connected)
  | what => some what

end Obs

namespace History

/-- The answers of the network, oldest first. -/
def answers (h : List Obs) : List Answer := (h.filterMap Obs.answer).reverse

/-- A history without how bytes travelled, latest first. -/
def essence (h : List Obs) : List Obs := h.filterMap Obs.essence

@[simp]
theorem answers_cons (what : Obs) (h : List Obs) :
    answers (what :: h) = answers h ++ what.answer.toList := by
  cases found : what.answer <;> simp [answers, found]

@[simp]
theorem essence_cons (what : Obs) (h : List Obs) :
    essence (what :: h) = what.essence.toList ++ essence h := by
  cases found : what.essence <;> simp [essence, found]

end History

/-- What is fixed about a connection: the accounts of the user store, what the client sends, whether
it then closes its side, and what the network answers. -/
structure Circumstances where
  accounts : List (List UInt8 × List UInt8)
  stream : List UInt8
  ends : Bool
  answers : List Answer

namespace Circumstances

open History Session

/-- Whether the accounts ask for authentication. -/
def guarded (fixed : Circumstances) : Bool := !fixed.accounts.isEmpty

/-- Whether the accounts have the name under the password. -/
def vouches (fixed : Circumstances) (user password : List UInt8) : Bool :=
  user ≠ [] ∧ password ≠ [] ∧
    (fixed.accounts.find? fun account => account.1 = user).map Prod.snd = some password

/-- What may be observed under the circumstances: neither a timeout nor an I/O error, and the end of
the stream only after all of it. -/
def Admits (fixed : Circumstances) (what : Obs) (early : List Obs) : Prop :=
  match what with
  | .chose _ store | .validated _ store => store.accounts = fixed.accounts
  | .clientEof => fixed.ends = true ∧ received early = fixed.stream
  | .ioError | .stalled | .timedOut => False
  | _ => True

instance (fixed : Circumstances) (what : Obs) (early : List Obs) :
    Decidable (fixed.Admits what early) := by
  cases what <;> dsimp only [Admits] <;> infer_instance

theorem guarded_eq {fixed : Circumstances} {store : Users}
    (same : store.accounts = fixed.accounts) : authRequired store = fixed.guarded := by
  rw [guarded, ← same, Bool.eq_iff_iff, authRequired, usersCount, decide_eq_true_iff,
    ← store.length_accounts]
  simp [List.length_pos_iff]

theorem vouches_eq {fixed : Circumstances} {store : Users}
    (same : store.accounts = fixed.accounts) (user password : List UInt8) :
    usersValidate store user password = fixed.vouches user password := by
  rw [vouches, ← same, Bool.eq_iff_iff, Users.usersValidate_iff, decide_eq_true_iff]

/-- The handshake of a history went on under the circumstances. -/
structure Governs (fixed : Circumstances) (h : List Obs) : Prop where
  stream : received h <+: fixed.stream
  answers : History.answers (handshake h) <+: fixed.answers
  ordinary : Always fixed.Admits (handshake h)

instance (fixed : Circumstances) (h : List Obs) : Decidable (fixed.Governs h) :=
  decidable_of_iff
    (received h <+: fixed.stream ∧ History.answers (handshake h) <+: fixed.answers ∧
      Always fixed.Admits (handshake h))
    ⟨fun all => ⟨all.1, all.2.1, all.2.2⟩, fun governs =>
      ⟨governs.stream, governs.answers, governs.ordinary⟩⟩

end Circumstances

namespace Session

open History

/-- Use up what the parser of the phase can use, and send what is to be sent. -/
def settle (s : Session) : Session :=
  match s.phase with
  | some .negRead =>
      { s with
        neg := (NegotiationParser.consumer.consume s.neg s.unread).1
        unread := (NegotiationParser.consumer.consume s.neg s.unread).2
        out := [] }
  | some .authRead =>
      { s with
        auth := (Socks5Auth.consumer.consume s.auth s.unread).1
        unread := (Socks5Auth.consumer.consume s.auth s.unread).2
        out := [] }
  | some .reqRead =>
      { s with
        request := (Socks5Request.consumer.consume s.request s.unread).1
        unread := (Socks5Request.consumer.consume s.request s.unread).2
        out := [] }
  | _ => { s with out := [] }

/-- Choose the authentication method. -/
def choose (s : Session) (store : Users) (guarded : Bool) : Session :=
  ({ s with
      method := negotiationMethod s.neg guarded
      out := s.out ++ [SOCKS5_VERSION, negotiationMethod s.neg guarded]
      hist := .chose (negotiationMethod s.neg guarded) store :: s.hist } : Session).enter .negWrite

/-- Judge the credentials. -/
def judge (s : Session) (store : Users) (status : UInt8) : Session :=
  ({ s with
      authStatus := status
      out := s.out ++ [SOCKS5_AUTH_VERSION, status]
      hist := .validated status store :: s.hist } : Session).enter .authWrite

/-- An attempt to connect was answered. -/
def attempted (s : Session) (target : Sockaddr) (result : AttemptResult) (rest : List Sockaddr) :
    Session :=
  { s.note (.attempt target result) with targets := rest }

end Session

/-- A session that has all of its input, and the answers of the network it has not had yet. -/
structure Course where
  session : Session
  answers : List Answer

namespace Course

/-- Go on with a session in which everything that can be used has been used. -/
def go (s : Session) (answers : List Answer) : Option Course := some ⟨s.settle, answers⟩

/-- Try the next candidate, or give up. -/
def tryNext (s : Session) (answers : List Answer) : Option Course :=
  match s.targets, answers with
  | [], _ => go (s.fail (repFromErrno s.lastErrno)) answers
  | target :: rest, .attempt (.failed error) :: later =>
      go { s.attempted target (.failed error) rest with lastErrno := some error } later
  | target :: rest, .attempt .unregistrable :: later =>
      go ((s.attempted target .unregistrable rest).fail SOCKS5_REP_GENERAL_FAILURE) later
  | target :: rest, .attempt .pending :: later =>
      go ((s.attempted target .pending rest).enter .reqConnecting) later
  | target :: rest, .attempt .established :: .named name :: later =>
      go ((s.attempted target .established rest).succeed .connected name) later
  | _ :: _, _ => none

/-- Put a request to the network that has been asked for nothing yet. -/
def ask (s : Session) (answers : List Answer) : Option Course :=
  if s.request.atyp = SOCKS5_ATYP_IPV4 ∨ s.request.atyp = SOCKS5_ATYP_IPV6 then
    tryNext { s with targets := [literalAddr s.request] } answers
  else
    match answers with
    | .lookup true :: later => go ((s.note (.lookup true)).enter .reqResolve) later
    | .lookup false :: later =>
        go ((s.note (.lookup false)).fail SOCKS5_REP_GENERAL_FAILURE) later
    | _ => none

/-- Wait for the lookup, or go on after it. -/
def awaitLookup (s : Session) (answers : List Answer) : Option Course :=
  match s.latest, answers with
  | some (.lookup true), .resolved [] :: later =>
      go ((s.note (.resolved [])).fail SOCKS5_REP_GENERAL_FAILURE) later
  | some (.lookup true), .resolved addresses :: later =>
      go { s.note (.resolved addresses) with targets := addresses } later
  | some (.lookup true), _ => none
  | _, _ => tryNext s answers

/-- Wait for the pending attempt, or go on after it. -/
def awaitAttempt (s : Session) (answers : List Answer) : Option Course :=
  match s.latest, answers with
  | some (.attempt _ .pending), .completed none :: .named name :: later =>
      go ((s.note (.completed none)).succeed .connected name) later
  | some (.attempt _ .pending), .completed (some error) :: later =>
      go { s.note (.completed (some error)) with lastErrno := some error } later
  | some (.attempt _ .pending), _ => none
  | _, _ => tryNext s answers

/-- The parser needs more than the client sends. -/
def starve (fixed : Circumstances) (s : Session) (answers : List Answer) : Option Course :=
  if fixed.ends then go ((s.note .clientEof).enter .error) answers else none

/-- What happens next to a client under the circumstances. -/
def next (fixed : Circumstances) (course : Course) : Option Course :=
  let s := course.session
  let answers := course.answers
  match s.phase with
  | some .negRead =>
      match s.neg.state with
      | .invalid => go (s.enter .error) answers
      | .done => go (s.choose usersInit fixed.guarded) answers
      | _ => starve fixed s answers
  | some .negWrite =>
      if s.method = SOCKS5_METHOD_NONE then go (s.enter .error) answers
      else if s.method = SOCKS5_METHOD_USERPASS then go (s.enter .authRead) answers
      else go (s.enter .reqRead) answers
  | some .authRead =>
      match s.auth.state with
      | .error => go (s.enter .error) answers
      | .done =>
          go (s.judge usersInit
            (if fixed.vouches s.auth.user s.auth.password then SOCKS5_AUTH_OK
            else SOCKS5_AUTH_FAIL)) answers
      | _ => starve fixed s answers
  | some .authWrite =>
      if s.authStatus = SOCKS5_AUTH_OK then go (s.enter .reqRead) answers
      else go (s.enter .error) answers
  | some .reqRead =>
      match s.request.state with
      | .error => go (s.fail SOCKS5_REP_GENERAL_FAILURE) answers
      | .done =>
          if s.request.cmd ≠ SOCKS5_CMD_CONNECT then
            go (s.fail SOCKS5_REP_CMD_NOT_SUPPORTED) answers
          else if s.latest.isNone then ask s answers
          else tryNext s answers
      | _ => starve fixed s answers
  | some .reqResolve => awaitLookup s answers
  | some .reqConnecting => awaitAttempt s answers
  | some .reqWrite =>
      if s.connected then
        some ⟨{ s with phase := some .relay, hist := .entered .relay :: s.hist }, answers⟩
      else go (s.enter .done) answers
  | _ => none

/-- Where every course begins. -/
def start (fixed : Circumstances) : Course :=
  ⟨({ Session.initial with
      phase := some .negRead
      neg := negotiationParserInit
      unread := fixed.stream } : Session).settle, fixed.answers⟩

end Course

namespace Session

open History Course

variable {fixed : Circumstances} {s s' : Session}

/-- A session in its handshake, with what the client has yet to send and without what depends on the
time at which bytes travelled. -/
def outline (fixed : Circumstances) (s : Session) : Session :=
  { s with
    phase := some (s.phase.getD .negRead)
    neg := if s.phase.isNone then negotiationParserInit else s.neg
    unread := s.unread ++ fixed.stream.drop (received s.hist).length
    out := []
    targets := if s.latest.isNone then [] else s.targets
    hist := essence s.hist }

/-- Where on its course a session is. -/
def course (fixed : Circumstances) (s : Session) : Course :=
  ⟨(s.outline fixed).settle, fixed.answers.drop (History.answers s.hist).length⟩

/-! ## Settling -/

theorem settle_of_stopped (flushed : s.out = [])
    (neg : s.phase = some .negRead → s.neg.stopped = true)
    (auth : s.phase = some .authRead → s.auth.stopped = true)
    (request : s.phase = some .reqRead → s.request.stopped = true) : s.settle = s := by
  rcases s with ⟨phase⟩
  simp only at flushed neg auth request
  subst flushed
  unfold settle
  split
  · next current =>
      rw [NegotiationParser.consumer.consume_final (neg current)]
  · next current =>
      rw [Socks5Auth.consumer.consume_final (auth current)]
  · next current =>
      rw [Socks5Request.consumer.consume_final (request current)]
  · rfl

theorem settle_of_used (flushed : s.out = []) (used : s.unread = []) : s.settle = s := by
  rcases s with ⟨phase⟩
  simp only at flushed used
  subst flushed used
  unfold settle
  split <;> rfl

/-! ## Outlines -/

theorem latest_outline (fixed : Circumstances) (s : Session) :
    (s.outline fixed).latest = s.latest := by
  simp only [latest, outline]
  induction s.hist with
  | nil => rfl
  | cons what h ih =>
      cases what with
      | entered state => cases state <;> exact ih
      | lookup | resolved | attempt | completed => rfl
      | _ => exact ih

theorem outline_enter (fixed : Circumstances) {phase next : State} (current : s.phase = some phase)
    (moves : phase ≠ next) (onward : next ≠ .relay) (later : next ≠ .negRead) :
    (s.enter next).outline fixed = (s.outline fixed).enter next := by
  cases next <;>
    simp_all [outline, enter, arrive, latest, Obs.essence, Obs.isNetwork]

theorem outline_fail (fixed : Circumstances) {phase : State} (rep : UInt8)
    (current : s.phase = some phase) (moves : phase ≠ .reqWrite) :
    ((s.fail rep).outline fixed).settle = ((s.outline fixed).fail rep).settle := by
  have outlined : ((s.recordFailure rep).answer rep (nullReply rep SOCKS5_ATYP_IPV4) false).outline
      fixed = { ((s.outline fixed).recordFailure rep).answer rep
        (nullReply rep SOCKS5_ATYP_IPV4) false with out := [] } := by
    unfold recordFailure failureRecord
    split <;> simp_all [outline, answer, latest, Obs.essence, Obs.isNetwork]
  rw [fail, outline_enter fixed (s := (s.recordFailure rep).answer rep _ false) current moves
    (by simp) (by simp), outlined]
  simp [enter, fail, answer, recordFailure, outline, current, moves, arrive, settle]

theorem outline_succeed (fixed : Circumstances) {phase : State} (status : SocketStatus)
    (name : Option Sockaddr) (current : s.phase = some phase) (moves : phase ≠ .reqWrite) :
    ((s.succeed status name).outline fixed).settle =
      ((s.outline fixed).succeed .connected name).settle := by
  have asked : ((s.note (.established status)).note (.named name)).outline fixed =
      ((s.outline fixed).note (.established .connected)).note (.named name) := by
    simp [outline, note, latest, Obs.essence, Obs.isNetwork]
  unfold succeed
  cases name.bind (addrReply SOCKS5_REP_SUCCESS) with
  | none =>
      simp only
      rw [outline_fail fixed (s := (s.note (.established status)).note (.named name)) _ current
        moves, asked]
  | some reply =>
      simp only
      rw [outline_enter fixed (s := (((s.note (.established status)).note (.named name)).answer
        SOCKS5_REP_SUCCESS reply true).record (ascii "OK")) current moves (by simp) (by simp)]
      simp [enter, answer, record, outline, current, moves, arrive, settle, latest,
        Obs.essence, Obs.isNetwork]

/-- An answer of the network with what it makes of the candidates. -/
theorem outline_attempted (target : Sockaddr) (result : AttemptResult) (rest : List Sockaddr) :
    (s.attempted target result rest).outline fixed =
      (s.outline fixed).attempted target result rest := by
  simp [attempted, outline, note, latest, Obs.essence, Obs.isNetwork]

theorem outline_choose (fixed : Circumstances) (store : Users) (guarded : Bool)
    (current : s.phase = some .negRead) :
    ((s.choose store guarded).outline fixed).settle =
      ((s.outline fixed).choose usersInit guarded).settle := by
  simp [choose, outline, enter, current, arrive, settle, latest, Obs.essence, Obs.isNetwork]

theorem outline_judge (fixed : Circumstances) (store : Users) (status : UInt8)
    (current : s.phase = some .authRead) :
    ((s.judge store status).outline fixed).settle =
      ((s.outline fixed).judge usersInit status).settle := by
  simp [judge, outline, enter, current, arrive, settle, latest, Obs.essence, Obs.isNetwork]

theorem outline_resolved (fixed : Circumstances) (addresses : List Sockaddr) :
    ({ s.note (.resolved addresses) with targets := addresses } : Session).outline fixed =
      { (s.outline fixed).note (.resolved addresses) with targets := addresses } := by
  simp [outline, note, latest, Obs.essence, Obs.isNetwork]

theorem outline_resolvedNothing (fixed : Circumstances) (asked : s.latest ≠ none) :
    (s.note (.resolved [])).outline fixed = (s.outline fixed).note (.resolved []) := by
  have kept : (s.outline fixed).targets = s.targets := by simp [outline, asked]
  rw [note, note, kept]
  simp [outline, latest, Obs.essence, Obs.isNetwork]

theorem outline_pending (fixed : Circumstances) {phase : State} (target : Sockaddr)
    (rest : List Sockaddr) (current : s.phase = some phase) :
    ((s.attempted target .pending rest).enter .reqConnecting).outline fixed =
      ((s.attempted target .pending rest).outline fixed).enter .reqConnecting := by
  by_cases stays : phase = .reqConnecting
  · subst stays
    simp [enter, attempted, outline, current]
  · exact outline_enter fixed (s := s.attempted target .pending rest) current stays (by simp)
      (by simp)

theorem Connecting.phase (connecting : s.Connecting) :
    ∃ phase, s.phase = some phase ∧ phase ≠ .reqWrite := by
  rcases connecting with ⟨phase, -⟩ | phase | phase
  · exact ⟨_, phase, by simp⟩
  · exact ⟨_, phase, by simp⟩
  · exact ⟨_, phase, by simp⟩

theorem Asking.unaimed (asking : s.Asking) (requested : s.Requested) (name : ¬s.Literal)
    (untried : s.latest = none) : s.targets = [] := by
  simp only [Asking, requested.1] at asking
  rcases asking.2 untried with none | ⟨-, literal, -⟩
  · exact none
  · exact absurd literal name

theorem outline_lookup (fixed : Circumstances) (queued : Bool) (unaimed : s.targets = []) :
    (s.note (.lookup queued)).outline fixed = (s.outline fixed).note (.lookup queued) := by
  simp [outline, note, latest, Obs.essence, Obs.isNetwork, unaimed]

theorem outline_completed (fixed : Circumstances) (error : Option Errno) (asked : s.latest ≠ none) :
    (s.note (.completed error)).outline fixed = (s.outline fixed).note (.completed error) := by
  have kept : (s.outline fixed).targets = s.targets := by simp [outline, asked]
  rw [note, note, kept]
  simp [outline, latest, Obs.essence, Obs.isNetwork]

/-! ## Following the course -/

theorem answers_drop {taken more all : List Answer} (begins : taken ++ more <+: all) :
    all.drop taken.length = more ++ all.drop (taken ++ more).length := by
  rcases begins with ⟨rest, rfl⟩
  simp

theorem phase_outline (fixed : Circumstances) {phase : State} (current : s.phase = some phase) :
    (s.outline fixed).phase = some phase := by
  simp [outline, current]

theorem neg_outline (fixed : Circumstances) {phase : State} (current : s.phase = some phase) :
    (s.outline fixed).neg = s.neg := by
  simp [outline, current]

/-- The session's own parser has stopped, or its phase does not parse. -/
structure Poised (s : Session) (phase : State) : Prop where
  current : s.phase = some phase
  neg : phase = .negRead → s.neg.stopped = true
  auth : phase = .authRead → s.auth.stopped = true
  request : phase = .reqRead → s.request.stopped = true

theorem Poised.course_eq {phase : State} (poised : s.Poised phase) (fixed : Circumstances) :
    s.course fixed =
      ⟨s.outline fixed, fixed.answers.drop (History.answers s.hist).length⟩ := by
  have shown := phase_outline fixed poised.current
  rw [course, settle_of_stopped rfl]
  · intro reading
    rw [neg_outline fixed poised.current]
    exact poised.neg (Option.some.inj (shown.symm.trans reading))
  · exact fun reading => poised.auth (Option.some.inj (shown.symm.trans reading))
  · exact fun reading => poised.request (Option.some.inj (shown.symm.trans reading))

@[simp]
theorem answers_enter (s : Session) (next : State) :
    History.answers (s.enter next).hist = History.answers s.hist := by
  unfold enter
  split
  · rfl
  · cases next <;> simp [arrive, Obs.answer]

@[simp]
theorem answers_fail (s : Session) (rep : UInt8) :
    History.answers (s.fail rep).hist = History.answers s.hist := by
  unfold fail recordFailure failureRecord
  split <;> simp [answer, Obs.answer]

@[simp]
theorem answers_succeed (s : Session) (status : SocketStatus) (name : Option Sockaddr) :
    History.answers (s.succeed status name).hist = History.answers s.hist ++ [.named name] := by
  unfold succeed
  split <;> simp [answer, record, Obs.answer]

/-- What a session has not been answered yet. -/
def unanswered (fixed : Circumstances) (s : Session) : List Answer :=
  fixed.answers.drop (History.answers s.hist).length

theorem go_eq {t : Session} {left : List Answer}
    (settled : (s'.outline fixed).settle = t.settle) (rest : left = s'.unanswered fixed) :
    go t left = some (s'.course fixed) := by
  rw [go, course, settled, rest, unanswered]

theorem go_enter {phase next : State} (current : s.phase = some phase) (moves : phase ≠ next)
    (onward : next ≠ .relay) (later : next ≠ .negRead) :
    go ((s.outline fixed).enter next) (s.unanswered fixed) =
      some ((s.enter next).course fixed) :=
  go_eq (by rw [outline_enter fixed current moves onward later]) (by simp [unanswered])

theorem go_fail {phase : State} (rep : UInt8) (current : s.phase = some phase)
    (moves : phase ≠ .reqWrite) :
    go ((s.outline fixed).fail rep) (s.unanswered fixed) = some ((s.fail rep).course fixed) :=
  go_eq (outline_fail fixed rep current moves) (by simp [unanswered])

theorem outline_receive {bytes : List UInt8}
    (begins : received s.hist ++ bytes <+: fixed.stream) :
    ({ s with unread := s.unread ++ bytes, hist := .received bytes :: s.hist } : Session).outline
      fixed = s.outline fixed := by
  rcases begins with ⟨rest, stream⟩
  simp [outline, latest, ← stream, Obs.essence, Obs.isNetwork]

theorem next_request {t : Session} {left : List Answer} (phase : t.phase = some .reqRead)
    (complete : t.request.state = .done) (connect : t.request.cmd = SOCKS5_CMD_CONNECT) :
    Course.next fixed ⟨t, left⟩ = if t.latest.isNone then ask t left else tryNext t left := by
  simp [next, phase, complete, connect]

theorem next_resolve {t : Session} {left : List Answer} (phase : t.phase = some .reqResolve) :
    Course.next fixed ⟨t, left⟩ = awaitLookup t left := by
  simp [next, phase]

theorem next_connecting {t : Session} {left : List Answer} (phase : t.phase = some .reqConnecting) :
    Course.next fixed ⟨t, left⟩ = awaitAttempt t left := by
  simp [next, phase]

theorem tryNext_exhausted {t : Session} {left : List Answer} (targets : t.targets = []) :
    tryNext t left = go (t.fail (repFromErrno t.lastErrno)) left := by
  simp [tryNext, targets]

section

variable {t : Session} {target : Sockaddr} {rest : List Sockaddr} {later : List Answer}

theorem tryNext_failed {error : Errno} (targets : t.targets = target :: rest) :
    tryNext t (.attempt (.failed error) :: later) =
      go { t.attempted target (.failed error) rest with lastErrno := some error } later := by
  simp [tryNext, targets]

theorem tryNext_unregistrable (targets : t.targets = target :: rest) :
    tryNext t (.attempt .unregistrable :: later) =
      go ((t.attempted target .unregistrable rest).fail SOCKS5_REP_GENERAL_FAILURE) later := by
  simp [tryNext, targets]

theorem tryNext_pending (targets : t.targets = target :: rest) :
    tryNext t (.attempt .pending :: later) =
      go ((t.attempted target .pending rest).enter .reqConnecting) later := by
  simp [tryNext, targets]

theorem tryNext_established {name : Option Sockaddr} (targets : t.targets = target :: rest) :
    tryNext t (.attempt .established :: .named name :: later) =
      go ((t.attempted target .established rest).succeed .connected name) later := by
  simp [tryNext, targets]

end

theorem awaitLookup_nothing {t : Session} {later : List Answer}
    (asked : t.latest = some (.lookup true)) :
    awaitLookup t (.resolved [] :: later) =
      go ((t.note (.resolved [])).fail SOCKS5_REP_GENERAL_FAILURE) later := by
  simp [awaitLookup, asked]

theorem awaitLookup_found {t : Session} {addresses : List Sockaddr} {later : List Answer}
    (asked : t.latest = some (.lookup true)) (found : addresses ≠ []) :
    awaitLookup t (.resolved addresses :: later) =
      go { t.note (.resolved addresses) with targets := addresses } later := by
  cases addresses with
  | nil => exact absurd rfl found
  | cons address others => simp [awaitLookup, asked]

theorem awaitAttempt_connected {t : Session} {target : Sockaddr} {name : Option Sockaddr}
    {later : List Answer} (pending : t.latest = some (.attempt target .pending)) :
    awaitAttempt t (.completed none :: .named name :: later) =
      go ((t.note (.completed none)).succeed .connected name) later := by
  simp [awaitAttempt, pending]

theorem awaitAttempt_failed {t : Session} {target : Sockaddr} {error : Errno}
    {later : List Answer} (pending : t.latest = some (.attempt target .pending)) :
    awaitAttempt t (.completed (some error) :: later) =
      go { t.note (.completed (some error)) with lastErrno := some error } later := by
  simp [awaitAttempt, pending]

theorem awaitLookup_of_ne {t : Session} {left : List Answer}
    (other : t.latest ≠ some (.lookup true)) : awaitLookup t left = tryNext t left := by
  unfold awaitLookup
  split <;> first | rfl | exact absurd ‹_› other

theorem awaitAttempt_of_ne {t : Session} {left : List Answer}
    (other : ∀ target, t.latest ≠ some (.attempt target .pending)) :
    awaitAttempt t left = tryNext t left := by
  unfold awaitAttempt
  split <;> first | rfl | exact absurd ‹_› (other _)

/-- The outline of a session that knows its candidates. -/
def aimed (fixed : Circumstances) (s : Session) : Session :=
  { s.outline fixed with targets := s.targets }

theorem aimed_of_asked (fixed : Circumstances) (asked : s.latest ≠ none) :
    s.aimed fixed = s.outline fixed := by
  simp [aimed, outline, asked]

theorem aimed_attempted (fixed : Circumstances) (target : Sockaddr) (result : AttemptResult)
    (rest : List Sockaddr) :
    (s.aimed fixed).attempted target result rest =
      (s.attempted target result rest).outline fixed :=
  (outline_attempted target result rest).symm

/-- A session that is to try its next candidate does so on its course as well. -/
theorem next_of_ready (fixed : Circumstances) (asking : s.Asking) (connecting : s.Connecting)
    (ready : s.Ready) :
    (s.course fixed).next fixed = tryNext (s.aimed fixed) (s.unanswered fixed) := by
  have idle : s.latest ≠ some (.lookup true) ∧
      ∀ target, s.latest ≠ some (.attempt target .pending) := by
    rcases ready with (⟨target, error, failed⟩ | ⟨error, failed⟩) | ⟨-, unasked, unpending⟩
    · simp [failed]
    · simp [failed]
    · exact ⟨unasked, fun target pending => unpending ⟨target, pending⟩⟩
  rcases connecting with ⟨phase, complete, connect⟩ | phase | phase
  · have poised : s.Poised .reqRead :=
      ⟨phase, by simp, by simp, by simp [Socks5Request.stopped, complete]⟩
    simp only [Asking, phase] at asking
    rw [poised.course_eq, next_request (phase_outline fixed phase) complete connect, latest_outline]
    cases latest : s.latest with
    | none =>
        rcases asking.2 latest with none | ⟨-, literal, targets⟩
        · rcases ready with (⟨target, error, failed⟩ | ⟨error, failed⟩) | ⟨some, -⟩
          · simp [latest] at failed
          · simp [latest] at failed
          · exact absurd none some
        · rw [aimed, targets]
          exact if_pos literal
    | some what =>
        rw [aimed_of_asked fixed (by simp [latest])]
        rfl
  · have poised : s.Poised .reqResolve := ⟨phase, by simp, by simp, by simp⟩
    simp only [Asking, phase] at asking
    rw [poised.course_eq, aimed_of_asked fixed asking, next_resolve (phase_outline fixed phase),
      awaitLookup_of_ne]
    · rfl
    · rw [latest_outline]
      exact idle.1
  · have poised : s.Poised .reqConnecting := ⟨phase, by simp, by simp, by simp⟩
    simp only [Asking, phase] at asking
    rw [poised.course_eq, aimed_of_asked fixed asking, next_connecting (phase_outline fixed phase),
      awaitAttempt_of_ne]
    · rfl
    · rw [latest_outline]
      exact idle.2

/-- Answers that came since are those the session was waiting for. -/
theorem unanswered_eq (s : Session) (more : List Answer) (governed : fixed.Governs s'.hist)
    (early : handshake s'.hist = s'.hist)
    (added : History.answers s'.hist = History.answers s.hist ++ more) :
    s.unanswered fixed = more ++ s'.unanswered fixed := by
  have begins := governed.answers
  rw [early, added] at begins
  rw [unanswered, unanswered, added]
  exact answers_drop begins

theorem suffix_enter (s : Session) (next : State) : s.hist <:+ (s.enter next).hist := by
  unfold enter
  split
  · exact List.suffix_rfl
  · cases next <;> simp [arrive, List.suffix_cons_iff]

theorem suffix_fail (s : Session) (rep : UInt8) : s.hist <:+ (s.fail rep).hist := by
  refine List.IsSuffix.trans ?_ (suffix_enter _ _)
  unfold recordFailure failureRecord
  split <;> simp [answer, List.suffix_cons_iff]

theorem next_of_hungry (hungry : s.Hungry) (used : (s.outline fixed).unread = []) :
    (s.course fixed).next fixed = starve fixed (s.outline fixed) (s.unanswered fixed) := by
  rw [course, settle_of_used rfl used, ← unanswered]
  rcases hungry with ⟨phase, running⟩ | ⟨phase, running⟩ | ⟨phase, running⟩
  · simp only [next, phase_outline fixed phase, neg_outline fixed phase]
    cases state : s.neg.state <;> first | rfl | simp [NegotiationParser.stopped, state] at running
  · simp only [next, phase_outline fixed phase, show (s.outline fixed).auth = s.auth from rfl]
    cases state : s.auth.state <;> first | rfl | simp [Socks5Auth.stopped, state] at running
  · simp only [next, phase_outline fixed phase, show (s.outline fixed).request = s.request from rfl]
    cases state : s.request.state <;> first | rfl | simp [Socks5Request.stopped, state] at running

theorem next_of_gone (hungry : s.Hungry) (drained : s.unread = [])
    (complete : received s.hist = fixed.stream) (ended : fixed.ends = true) :
    (s.course fixed).next fixed = some (((s.note .clientEof).enter .error).course fixed) := by
  have used : (s.outline fixed).unread = [] := by simp [outline, drained, complete]
  obtain ⟨phase, current, moves⟩ : ∃ phase, s.phase = some phase ∧ phase ≠ .error := by
    rcases hungry with ⟨phase, -⟩ | ⟨phase, -⟩ | ⟨phase, -⟩ <;> exact ⟨_, phase, by simp⟩
  rw [next_of_hungry hungry used, starve, if_pos ended]
  refine go_eq ?_ (by simp [unanswered, Obs.answer])
  rw [outline_enter fixed (s := s.note .clientEof) current moves (by simp) (by simp)]
  simp [outline, note, latest, Obs.essence, Obs.isNetwork]

/-- A step of the handshake either changes nothing about where on its course the session is, or is
the next step of the course. -/
theorem Step.follows {trusted : Prop} (step : Step trusted s s') (asking : s.Asking)
    (outside : s.phase ≠ some .relay) (early : handshake s'.hist = s'.hist)
    (moves : s'.phase ≠ some .relay) (governed : fixed.Governs s'.hist) :
    s'.course fixed = s.course fixed ∨ (s.course fixed).next fixed = some (s'.course fixed) := by
  have ordinary := governed.ordinary
  rw [early] at ordinary
  cases step with
  | start fresh =>
      left
      simp [course, outline, enter, fresh, arrive, latest, Obs.essence, Obs.isNetwork, Obs.answer]
  | receive bytes reading | relayReceive bytes phase isOpen =>
      left
      have begins : received s.hist ++ bytes <+: fixed.stream := governed.stream
      rw [course, outline_receive begins]
      simp [course, Obs.answer]
  | parseNeg phase | parseAuth phase | parseRequest phase =>
      left
      simp [course, settle, outline, phase, latest, Consumer.consume_ahead]
  | clientGone hungry drained =>
      right
      rcases ordinary .clientEof s.hist (suffix_enter (s.note .clientEof) .error) with
        ⟨ended, complete⟩
      exact next_of_gone hungry drained complete ended
  -- The environment's failures are not ordinary, so no governed history has them.
  | ioError begun => exact (ordinary .ioError s.hist (suffix_enter (s.note .ioError) .error)).elim
  | stall answering => exact (ordinary .stalled s.hist (suffix_enter (s.note .stalled) .error)).elim
  | badGreeting phase invalid =>
      right
      have poised : s.Poised .negRead :=
        ⟨phase, by simp [NegotiationParser.stopped, invalid], by simp, by simp⟩
      rw [poised.course_eq]
      simp only [next, phase_outline fixed phase, neg_outline fixed phase, invalid]
      exact go_enter phase (by simp) (by simp) (by simp)
  | badCredentials phase invalid =>
      right
      have poised : s.Poised .authRead :=
        ⟨phase, by simp, by simp [Socks5Auth.stopped, invalid], by simp⟩
      rw [poised.course_eq]
      simp only [next, phase_outline fixed phase, show (s.outline fixed).auth = s.auth from rfl,
        invalid]
      exact go_enter phase (by simp) (by simp) (by simp)
  | choose store phase complete =>
      right
      have accounts : store.accounts = fixed.accounts :=
        ordinary.mono (suffix_enter _ _) (.chose _ store) s.hist List.suffix_rfl
      have poised : s.Poised .negRead :=
        ⟨phase, by simp [NegotiationParser.stopped, complete], by simp, by simp⟩
      rw [poised.course_eq]
      simp only [next, phase_outline fixed phase, neg_outline fixed phase, complete,
        ← Circumstances.guarded_eq accounts]
      exact go_eq (outline_choose fixed store _ phase) (by simp [unanswered, Obs.answer])
  | validate store status phase complete judged =>
      right
      have accounts : store.accounts = fixed.accounts :=
        ordinary.mono (suffix_enter _ _) (.validated status store) s.hist List.suffix_rfl
      have poised : s.Poised .authRead :=
        ⟨phase, by simp, by simp [Socks5Auth.stopped, complete], by simp⟩
      rw [poised.course_eq]
      simp only [next, phase_outline fixed phase, show (s.outline fixed).auth = s.auth from rfl,
        complete, ← Circumstances.vouches_eq accounts, ← judged]
      exact go_eq (outline_judge fixed store status phase) (by simp [unanswered, Obs.answer])
  | send bytes rest answering pending =>
      left
      simp [course, outline, latest, Obs.essence, Obs.isNetwork, Obs.answer]
  | methodRefused phase flushed method =>
      right
      have poised : s.Poised .negWrite := ⟨phase, by simp, by simp, by simp⟩
      rw [poised.course_eq]
      simp only [next, phase_outline fixed phase, show (s.outline fixed).method = s.method from rfl,
        method, if_true]
      exact go_enter phase (by simp) (by simp) (by simp)
  | methodUserpass phase flushed method =>
      right
      have poised : s.Poised .negWrite := ⟨phase, by simp, by simp, by simp⟩
      rw [poised.course_eq]
      simp only [next, phase_outline fixed phase, show (s.outline fixed).method = s.method from rfl,
        method, if_true]
      exact go_enter phase (by simp) (by simp) (by simp)
  | methodNoauth phase flushed accepted method =>
      right
      have poised : s.Poised .negWrite := ⟨phase, by simp, by simp, by simp⟩
      rw [poised.course_eq]
      simp only [next, phase_outline fixed phase, show (s.outline fixed).method = s.method from rfl,
        if_neg accepted, if_neg method]
      exact go_enter phase (by simp) (by simp) (by simp)
  | authRefused phase flushed status =>
      right
      have poised : s.Poised .authWrite := ⟨phase, by simp, by simp, by simp⟩
      rw [poised.course_eq]
      simp only [next, phase_outline fixed phase,
        show (s.outline fixed).authStatus = s.authStatus from rfl, if_neg status]
      exact go_enter phase (by simp) (by simp) (by simp)
  | authAccepted phase flushed status =>
      right
      have poised : s.Poised .authWrite := ⟨phase, by simp, by simp, by simp⟩
      rw [poised.course_eq]
      simp only [next, phase_outline fixed phase,
        show (s.outline fixed).authStatus = s.authStatus from rfl, if_pos status]
      exact go_enter phase (by simp) (by simp) (by simp)
  | badRequest phase invalid =>
      right
      have poised : s.Poised .reqRead :=
        ⟨phase, by simp, by simp, by simp [Socks5Request.stopped, invalid]⟩
      rw [poised.course_eq]
      simp only [next, phase_outline fixed phase,
        show (s.outline fixed).request = s.request from rfl, invalid]
      exact go_fail _ phase (by simp)
  | unsupported phase complete cmd =>
      right
      have poised : s.Poised .reqRead :=
        ⟨phase, by simp, by simp, by simp [Socks5Request.stopped, complete]⟩
      rw [poised.course_eq]
      simp only [next, phase_outline fixed phase,
        show (s.outline fixed).request = s.request from rfl, complete, if_pos cmd]
      exact go_fail _ phase (by simp)
  | literal requested address untried =>
      left
      simp [course, outline, untried, show ({ s with targets := [literalAddr s.request] } :
        Session).latest = none from untried]
  | lookupRefused requested name untried =>
      right
      have waited := unanswered_eq s [.lookup false] governed early (by simp [Obs.answer])
      have unaimed := asking.unaimed requested name untried
      rcases requested with ⟨phase, complete, connect⟩
      have poised : s.Poised .reqRead :=
        ⟨phase, by simp, by simp, by simp [Socks5Request.stopped, complete]⟩
      rw [poised.course_eq, next_request (phase_outline fixed phase) complete connect,
        latest_outline, untried, ← unanswered, waited]
      refine (if_neg name).trans (go_eq ?_ rfl)
      rw [outline_fail fixed (s := s.note (.lookup false)) _ phase (by simp),
        outline_lookup fixed false unaimed]
  | lookupQueued requested name untried =>
      right
      have waited := unanswered_eq s [.lookup true] governed early (by simp [Obs.answer])
      have unaimed := asking.unaimed requested name untried
      rcases requested with ⟨phase, complete, connect⟩
      have poised : s.Poised .reqRead :=
        ⟨phase, by simp, by simp, by simp [Socks5Request.stopped, complete]⟩
      rw [poised.course_eq, next_request (phase_outline fixed phase) complete connect,
        latest_outline, untried, ← unanswered, waited]
      refine (if_neg name).trans (go_eq ?_ rfl)
      rw [outline_enter fixed (s := s.note (.lookup true)) phase (by simp) (by simp) (by simp),
        outline_lookup fixed true unaimed]
  | resolvedNothing phase asked =>
      right
      have waited := unanswered_eq s [.resolved []] governed early (by simp [Obs.answer])
      have poised : s.Poised .reqResolve := ⟨phase, by simp, by simp, by simp⟩
      rw [poised.course_eq, next_resolve (phase_outline fixed phase), ← unanswered, waited]
      refine (awaitLookup_nothing ((latest_outline fixed s).trans asked)).trans (go_eq ?_ rfl)
      rw [outline_fail fixed (s := s.note (.resolved [])) _ phase (by simp),
        outline_resolvedNothing fixed (by simp [asked])]
  | resolved addresses phase some asked =>
      right
      have waited := unanswered_eq s [.resolved addresses] governed early (by simp [Obs.answer])
      have poised : s.Poised .reqResolve := ⟨phase, by simp, by simp, by simp⟩
      rw [poised.course_eq, next_resolve (phase_outline fixed phase), ← unanswered, waited]
      exact (awaitLookup_found ((latest_outline fixed s).trans asked) some).trans
        (go_eq (congrArg settle (outline_resolved fixed addresses)) rfl)
  | attemptFails target rest error connecting targets ready =>
      right
      have waited := unanswered_eq s [.attempt (.failed error)] governed early
        (by simp [Obs.answer])
      rw [next_of_ready fixed asking connecting ready, waited]
      refine (tryNext_failed (show (s.aimed fixed).targets = _ from targets)).trans (go_eq ?_ rfl)
      rw [aimed_attempted]
      rfl
  | attemptUnusable target rest connecting targets ready =>
      right
      have waited := unanswered_eq s [.attempt .unregistrable] governed early (by simp [Obs.answer])
      rcases connecting.phase with ⟨phase, current, moves⟩
      rw [next_of_ready fixed asking connecting ready, waited]
      refine (tryNext_unregistrable (show (s.aimed fixed).targets = _ from targets)).trans
        (go_eq ?_ rfl)
      rw [aimed_attempted]
      exact outline_fail fixed (s := s.attempted target .unregistrable rest) _ current moves
  | attemptPends target rest connecting targets ready =>
      right
      have waited := unanswered_eq s [.attempt .pending] governed early (by simp [Obs.answer])
      rcases connecting.phase with ⟨phase, current, -⟩
      rw [next_of_ready fixed asking connecting ready, waited]
      refine (tryNext_pending (show (s.aimed fixed).targets = _ from targets)).trans (go_eq ?_ rfl)
      rw [aimed_attempted]
      exact congrArg settle (outline_pending fixed target rest current)
  | attemptSucceeds target rest status name connecting targets sound ready =>
      right
      have waited := unanswered_eq s [.attempt .established, .named name] governed early
        (by simp [Obs.answer])
      rcases connecting.phase with ⟨phase, current, moves⟩
      rw [next_of_ready fixed asking connecting ready, waited]
      refine (tryNext_established (show (s.aimed fixed).targets = _ from targets)).trans
        (go_eq ?_ rfl)
      rw [aimed_attempted]
      exact outline_succeed fixed (s := s.attempted target .established rest) _ _ current moves
  | exhausted connecting targets failed =>
      right
      rcases connecting.phase with ⟨phase, current, moves⟩
      have asked : s.latest ≠ none := by
        rcases failed with ⟨target, error, failed⟩ | ⟨error, failed⟩ <;> simp [failed]
      rw [next_of_ready fixed asking connecting (.inl failed),
        tryNext_exhausted (show (s.aimed fixed).targets = _ from targets),
        aimed_of_asked fixed asked]
      exact go_fail _ current moves
  | completes status name phase sound pending =>
      right
      rcases pending with ⟨target, pending⟩
      have waited := unanswered_eq s [.completed none, .named name] governed early
        (by simp [Obs.answer])
      have poised : s.Poised .reqConnecting := ⟨phase, by simp, by simp, by simp⟩
      rw [poised.course_eq, next_connecting (phase_outline fixed phase), ← unanswered, waited]
      refine (awaitAttempt_connected ((latest_outline fixed s).trans pending)).trans (go_eq ?_ rfl)
      rw [outline_succeed fixed (s := s.note (.completed none)) _ _ phase (by simp),
        outline_completed fixed none (by simp [pending])]
  | completesFailing error phase pending =>
      right
      rcases pending with ⟨target, pending⟩
      have waited := unanswered_eq s [.completed (some error)] governed early (by simp [Obs.answer])
      have poised : s.Poised .reqConnecting := ⟨phase, by simp, by simp, by simp⟩
      rw [poised.course_eq, next_connecting (phase_outline fixed phase), ← unanswered, waited]
      refine (awaitAttempt_failed ((latest_outline fixed s).trans pending)).trans (go_eq ?_ rfl)
      exact congrArg settle (congrArg (fun t : Session => { t with lastErrno := some error })
        (outline_completed fixed (s := s) (some error) (by simp [pending])))
  | expire => exact (ordinary .timedOut s.hist List.suffix_rfl).elim
  | expireConnecting phase | expireResolving phase =>
      exact (ordinary .timedOut s.hist (suffix_fail (s.note .timedOut) _)).elim
  | openRelay => exact absurd (phase_enter s .relay) moves
  | refused phase flushed connected =>
      right
      have poised : s.Poised .reqWrite := ⟨phase, by simp, by simp, by simp⟩
      rw [poised.course_eq]
      simp only [next, phase_outline fixed phase,
        show (s.outline fixed).connected = s.connected from rfl, connected, Bool.false_eq_true,
        if_false]
      exact go_enter phase (by simp) (by simp) (by simp)
  | relayFetch _ phase | relayForward _ _ phase | relayStall phase | relayClientEof phase
  | relayOriginEof phase | relayShutOrigin phase | relayShutClient phase | relayDone phase =>
      exact absurd phase outside

end Session

end SocksProxy
