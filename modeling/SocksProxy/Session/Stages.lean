import SocksProxy.Session.Flow

/-!
# Stages of a session

What every phase of a session implies about the client's byte stream, the state
of the parsers and the decisions taken so far. The invariant is preserved by
every step, and with it everything the proxy says before it relays is known.
-/

namespace SocksProxy

namespace Session

variable {s : Session}

open History

/-- Parsing the whole stream received so far is parsing `tail` from where the greeting parser is. -/
def Greeted (s : Session) (tail : List UInt8) : Prop :=
  NegotiationParser.consumer.consume negotiationParserInit (received s.hist) =
    NegotiationParser.consumer.consume s.neg tail

/-- The same for the credentials, which are parsed from `input`. -/
def Identified (s : Session) (input tail : List UInt8) : Prop :=
  Socks5Auth.consumer.consume (authParserInit Socks5Auth.zero) input =
    Socks5Auth.consumer.consume s.auth tail

/-- The same for the request. -/
def Asked (s : Session) (input tail : List UInt8) : Prop :=
  Socks5Request.consumer.consume (requestParserInit Socks5Request.zero) input =
    Socks5Request.consumer.consume s.request tail

/-- The client may make a request, by the given decisions; the request is parsed from `input`. -/
inductive Admitted (s : Session) : List Obs → List UInt8 → Prop where
  | noauth (store : Users) (input : List UInt8) (greeted : s.Greeted input)
      (complete : s.neg.state = .done) (offered : s.neg.hasNoauth = true)
      (unprotected : authRequired store = false) (method : s.method = SOCKS5_METHOD_NOAUTH) :
      Admitted s [.chose SOCKS5_METHOD_NOAUTH store] input
  | userpass (before store : Users) (middle input : List UInt8) (greeted : s.Greeted middle)
      (complete : s.neg.state = .done) (offered : s.neg.hasUserpass = true)
      (method : s.method = SOCKS5_METHOD_USERPASS) (identified : s.Identified middle input)
      (received : s.auth.state = .done)
      (valid : usersValidate store s.auth.user s.auth.password = true)
      (status : s.authStatus = SOCKS5_AUTH_OK) :
      Admitted s [.validated SOCKS5_AUTH_OK store, .chose SOCKS5_METHOD_USERPASS before] input

/-- A reply is complete, and reports success only with the address of the origin socket. -/
def ReplyOk (h : List Obs) (rep : UInt8) (reply : List UInt8) : Prop :=
  IsReply rep reply ∧
    (rep = SOCKS5_REP_SUCCESS →
      ∃ sa, .named (some sa) ∈ h ∧ reply.drop 4 = sockaddrBytes sa)

/-- What holds in each phase. -/
def Stage (s : Session) : Prop :=
  match s.phase with
  | none =>
      decisions s.hist = [] ∧ received s.hist = [] ∧ s.unread = [] ∧ s.out = [] ∧
        s.auth = Socks5Auth.zero ∧ s.request = Socks5Request.zero
  | some .negRead =>
      decisions s.hist = [] ∧ s.out = [] ∧ s.Greeted s.unread ∧
        s.auth = Socks5Auth.zero ∧ s.request = Socks5Request.zero
  | some .negWrite =>
      s.Greeted s.unread ∧ s.neg.state = .done ∧
        s.auth = Socks5Auth.zero ∧ s.request = Socks5Request.zero ∧
        ∃ store, decisions s.hist = [.chose s.method store] ∧
          s.method = negotiationMethod s.neg (authRequired store)
  | some .authRead =>
      s.out = [] ∧ s.neg.state = .done ∧ s.neg.hasUserpass = true ∧
        s.method = SOCKS5_METHOD_USERPASS ∧ s.request = Socks5Request.zero ∧
        (∃ middle, s.Greeted middle ∧ s.Identified middle s.unread) ∧
        ∃ store, decisions s.hist = [.chose SOCKS5_METHOD_USERPASS store]
  | some .authWrite =>
      s.neg.state = .done ∧ s.neg.hasUserpass = true ∧ s.method = SOCKS5_METHOD_USERPASS ∧
        s.request = Socks5Request.zero ∧ s.auth.state = .done ∧
        (∃ middle, s.Greeted middle ∧ s.Identified middle s.unread) ∧
        ∃ before store,
          decisions s.hist =
            [.validated s.authStatus store, .chose SOCKS5_METHOD_USERPASS before] ∧
          s.authStatus =
            if usersValidate store s.auth.user s.auth.password then SOCKS5_AUTH_OK
            else SOCKS5_AUTH_FAIL
  | some .reqRead =>
      s.out = [] ∧ ∃ input, s.Admitted (decisions s.hist) input ∧ s.Asked input s.unread
  | some .reqResolve | some .reqConnecting =>
      s.out = [] ∧ s.request.state = .done ∧ s.request.cmd = SOCKS5_CMD_CONNECT ∧
        ∃ input, s.Admitted (decisions s.hist) input ∧ s.Asked input s.unread
  | some .reqWrite =>
      s.request.stopped = true ∧
        ∃ ds input rep reply, s.Admitted ds input ∧ s.Asked input s.unread ∧
          decisions s.hist = .replied rep reply :: ds ∧ ReplyOk s.hist rep reply ∧
          (s.connected = true ↔ rep = SOCKS5_REP_SUCCESS)
  | some .relay =>
      s.request.stopped = true ∧
        ∃ ds input reply, s.Admitted ds input ∧ s.Asked input (forwarded s.hist ++ s.unread) ∧
          decisions s.hist = .replied SOCKS5_REP_SUCCESS reply :: ds ∧
          ReplyOk s.hist SOCKS5_REP_SUCCESS reply
  | some .done | some .error => True

theorem Greeted.receive {s s' : Session} {tail bytes : List UInt8} (greeted : s.Greeted tail)
    (hist : received s'.hist = received s.hist ++ bytes) (neg : s'.neg = s.neg) :
    s'.Greeted (tail ++ bytes) := by
  unfold Greeted
  rw [hist, neg]
  exact NegotiationParser.consumer.consume_append_congr greeted bytes

theorem Identified.receive {s s' : Session} {input tail bytes : List UInt8}
    (identified : s.Identified input tail) (auth : s'.auth = s.auth) :
    s'.Identified (input ++ bytes) (tail ++ bytes) := by
  unfold Identified
  rw [auth]
  exact Socks5Auth.consumer.consume_append_congr identified bytes

theorem Asked.receive {s s' : Session} {input tail bytes : List UInt8}
    (asked : s.Asked input tail) (request : s'.request = s.request) :
    s'.Asked (input ++ bytes) (tail ++ bytes) := by
  unfold Asked
  rw [request]
  exact Socks5Request.consumer.consume_append_congr asked bytes

theorem Admitted.receive {s s' : Session} {ds : List Obs} {input bytes : List UInt8}
    (admitted : s.Admitted ds input) (hist : received s'.hist = received s.hist ++ bytes)
    (neg : s'.neg = s.neg) (auth : s'.auth = s.auth) (method : s'.method = s.method)
    (status : s'.authStatus = s.authStatus) : s'.Admitted ds (input ++ bytes) := by
  cases admitted with
  | noauth store input greeted complete offered unprotected chosen =>
      refine .noauth store _ (greeted.receive hist neg) ?_ ?_ unprotected ?_
      · rwa [neg]
      · rwa [neg]
      · rwa [method]
  | userpass before store middle input greeted complete offered chosen identified finished valid
    ok =>
      refine .userpass before store _ _ (greeted.receive hist neg) ?_ ?_ ?_
        (identified.receive auth) ?_ ?_ ?_
      · rwa [neg]
      · rwa [neg]
      · rwa [method]
      · rwa [auth]
      · rwa [auth]
      · rwa [status]

/-- Steps that leave stream, parsers and status alone keep the client admitted. -/
theorem Admitted.keep {s s' : Session} {ds : List Obs} {input : List UInt8}
    (admitted : s.Admitted ds input) (hist : received s'.hist = received s.hist)
    (neg : s'.neg = s.neg) (auth : s'.auth = s.auth) (method : s'.method = s.method)
    (status : s'.authStatus = s.authStatus) : s'.Admitted ds input := by
  have extended : s'.Admitted ds (input ++ []) :=
    admitted.receive (by simpa using hist) neg auth method status
  simpa using extended

/-- A request has been received, or is invalid, and no reply to it is queued. -/
structure Unanswered (s : Session) : Prop where
  empty : s.out = []
  stopped : s.request.stopped = true
  ready : s.phase ≠ some .reqWrite
  admitted : ∃ input, s.Admitted (decisions s.hist) input ∧ s.Asked input s.unread

theorem Unanswered.note (unanswered : s.Unanswered) (what : Obs) (silent : what.receivedBytes = [])
    (plain : what.isDecision = false) : (s.note what).Unanswered := by
  rcases unanswered with ⟨empty, stopped, ready, input, admitted, asked⟩
  refine ⟨empty, stopped, ready, input, ?_, asked⟩
  rw [show decisions (s.note what).hist = decisions s.hist by
    simp only [Session.note, decisions_cons, plain, Bool.false_eq_true, if_false]]
  exact admitted.keep (by simp only [Session.note, received_cons, silent, List.append_nil])
    rfl rfl rfl rfl

theorem Unanswered.retarget (unanswered : s.Unanswered) (targets : List Sockaddr) :
    ({ s with targets := targets } : Session).Unanswered := by
  rcases unanswered with ⟨empty, stopped, ready, input, admitted, asked⟩
  exact ⟨empty, stopped, ready, input, admitted.keep rfl rfl rfl rfl rfl, asked⟩

theorem Unanswered.recordFailure (unanswered : s.Unanswered) (rep : UInt8) :
    (s.recordFailure rep).Unanswered := by
  unfold Session.recordFailure failureRecord
  split
  · exact unanswered.note _ rfl rfl
  · exact unanswered

theorem Unanswered.reply (unanswered : s.Unanswered) {rep : UInt8} {reply : List UInt8}
    (connected : Bool) (shape : IsReply rep reply)
    (granted : connected = true ↔ rep = SOCKS5_REP_SUCCESS)
    (carried : rep = SOCKS5_REP_SUCCESS →
      ∃ sa, .named (some sa) ∈ s.hist ∧ reply.drop 4 = sockaddrBytes sa) :
    ((s.answer rep reply connected).enter .reqWrite).Stage ∧
      ∀ result, (((s.answer rep reply connected).record result).enter .reqWrite).Stage := by
  rcases unanswered with ⟨-, stopped, ready, input, admitted, asked⟩
  have carried' : ∀ h, s.hist ⊆ h → rep = SOCKS5_REP_SUCCESS →
      ∃ sa, .named (some sa) ∈ h ∧ reply.drop 4 = sockaddrBytes sa := by
    intro h included success
    rcases carried success with ⟨sa, named, bytes⟩
    exact ⟨sa, included named, bytes⟩
  refine ⟨?_, fun result => ?_⟩
  · simp only [enter, answer, ready, if_false, arrive, Stage]
    exact ⟨stopped, decisions s.hist, input, rep, reply, admitted.keep (by simp) rfl rfl rfl rfl,
      asked, by simp, ⟨shape, carried' _ fun _ old => by simp [old]⟩, granted⟩
  · simp only [enter, record, Session.note, answer, ready, if_false, arrive, Stage]
    exact ⟨stopped, decisions s.hist, input, rep, reply, admitted.keep (by simp) rfl rfl rfl rfl,
      asked, by simp, ⟨shape, carried' _ fun _ old => by simp [old]⟩, granted⟩

theorem Unanswered.fail (unanswered : s.Unanswered) {rep : UInt8}
    (failure : rep ≠ SOCKS5_REP_SUCCESS) : (s.fail rep).Stage :=
  ((unanswered.recordFailure rep).reply false (isReply_nullReply rep) (by simp [failure])
    fun success => absurd success failure).1

theorem Unanswered.succeed (unanswered : s.Unanswered) (status : SocketStatus)
    (name : Option Sockaddr) : (s.succeed status name).Stage := by
  have asked := (unanswered.note (.established status) rfl rfl).note (.named name) rfl rfl
  unfold Session.succeed
  cases found : name.bind (addrReply SOCKS5_REP_SUCCESS) with
  | none => exact asked.fail (by decide)
  | some reply =>
      rcases Option.bind_eq_some_iff.mp found with ⟨sa, rfl, built⟩
      refine (asked.reply true (isReply_of_addrReply built).1 (by simp)
        fun _ => ⟨sa, ?_, ?_⟩).2 (ascii "OK")
      · simp [Session.note]
      · exact (isReply_of_addrReply built).2

theorem Stage.unanswered (stage : s.Stage) (connecting : s.Connecting) : s.Unanswered := by
  rcases connecting with ⟨phase, complete, -⟩ | phase | phase
  · simp only [Stage, phase] at stage
    exact ⟨stage.1, by simp [Socks5Request.stopped, complete], by simp [phase], stage.2⟩
  · simp only [Stage, phase] at stage
    exact ⟨stage.1, by simp [Socks5Request.stopped, stage.2.1], by simp [phase], stage.2.2.2⟩
  · simp only [Stage, phase] at stage
    exact ⟨stage.1, by simp [Socks5Request.stopped, stage.2.1], by simp [phase], stage.2.2.2⟩

theorem repFromErrno_ne_success (error : Option Errno) :
    repFromErrno error ≠ SOCKS5_REP_SUCCESS := by
  cases error with
  | none => decide
  | some error => cases error <;> decide

theorem stage_enter_error (s : Session) : (s.enter .error).Stage := by
  unfold enter
  split
  · simp [Stage, *]
  · simp [Stage, arrive]

theorem stage_enter_done (s : Session) : (s.enter .done).Stage := by
  unfold enter
  split
  · simp [Stage, *]
  · simp [Stage, arrive]

theorem Stage.of_eq {s s' : Session} (stage : s.Stage) (phase : s'.phase = s.phase)
    (neg : s'.neg = s.neg) (auth : s'.auth = s.auth) (request : s'.request = s.request)
    (method : s'.method = s.method) (status : s'.authStatus = s.authStatus)
    (unread : s'.unread = s.unread) (out : s.out = [] → s'.out = [])
    (connected : s'.connected = s.connected) (decided : decisions s'.hist = decisions s.hist)
    (stream : received s'.hist = received s.hist) (passed : forwarded s'.hist = forwarded s.hist)
    (named : ∀ what ∈ s.hist, what ∈ s'.hist) : s'.Stage := by
  have reply : ∀ {rep reply}, ReplyOk s.hist rep reply → ReplyOk s'.hist rep reply := by
    rintro rep reply ⟨shape, carried⟩
    refine ⟨shape, fun success => ?_⟩
    rcases carried success with ⟨sa, member, bytes⟩
    exact ⟨sa, named _ member, bytes⟩
  have admitted : ∀ {ds input}, s.Admitted ds input → s'.Admitted ds input :=
    fun admitted => admitted.keep stream neg auth method status
  have greeted : ∀ {tail}, s.Greeted tail → s'.Greeted tail := by
    simp only [Greeted, stream, neg, imp_self, implies_true]
  have identified : ∀ {input tail}, s.Identified input tail → s'.Identified input tail := by
    simp only [Identified, auth, imp_self, implies_true]
  have asked : ∀ {input tail}, s.Asked input tail → s'.Asked input tail := by
    simp only [Asked, request, imp_self, implies_true]
  unfold Stage at stage ⊢
  simp only [phase, neg, auth, request, method, status, unread, connected, decided, stream, passed]
  split at stage
  · exact ⟨stage.1, stage.2.1, stage.2.2.1, out stage.2.2.2.1, stage.2.2.2.2⟩
  · exact ⟨stage.1, out stage.2.1, greeted stage.2.2.1, stage.2.2.2⟩
  · exact ⟨greeted stage.1, stage.2⟩
  · rcases stage with ⟨empty, complete, offered, chosen, blank, ⟨middle, first, second⟩, store⟩
    exact ⟨out empty, complete, offered, chosen, blank, ⟨middle, greeted first, identified second⟩,
      store⟩
  · rcases stage with ⟨complete, offered, chosen, blank, finished, ⟨middle, first, second⟩, store⟩
    exact ⟨complete, offered, chosen, blank, finished,
      ⟨middle, greeted first, identified second⟩, store⟩
  · rcases stage with ⟨empty, input, first, second⟩
    exact ⟨out empty, input, admitted first, asked second⟩
  · rcases stage with ⟨empty, complete, cmd, input, first, second⟩
    exact ⟨out empty, complete, cmd, input, admitted first, asked second⟩
  · rcases stage with ⟨empty, complete, cmd, input, first, second⟩
    exact ⟨out empty, complete, cmd, input, admitted first, asked second⟩
  · rcases stage with ⟨stopped, ds, input, rep, bytes, first, second, decided, ok, granted⟩
    exact ⟨stopped, ds, input, rep, bytes, admitted first, asked second, decided, reply ok, granted⟩
  · rcases stage with ⟨stopped, ds, input, bytes, first, second, decided, ok⟩
    exact ⟨stopped, ds, input, bytes, admitted first, asked second, decided, reply ok⟩
  · trivial
  · trivial

theorem ReplyOk.cons {h : List Obs} {rep : UInt8} {reply : List UInt8} (ok : ReplyOk h rep reply)
    (what : Obs) : ReplyOk (what :: h) rep reply := by
  refine ⟨ok.1, fun success => ?_⟩
  rcases ok.2 success with ⟨sa, named, bytes⟩
  exact ⟨sa, List.mem_cons_of_mem _ named, bytes⟩

/-- Bytes from the client extend the stream and what is unread alike. -/
theorem Stage.receive (stage : s.Stage) (bytes : List UInt8)
    (listening : s.Reading ∨ s.phase = some .relay) :
    ({ s with
      unread := s.unread ++ bytes, hist := .received bytes :: s.hist } : Session).Stage := by
  have phases : s.phase = some .negRead ∨ s.phase = some .authRead ∨ s.phase = some .reqRead ∨
      s.phase = some .relay := by
    rcases listening with ⟨state, phase, reading⟩ | phase
    · cases state <;> simp_all [isReadState]
    · exact .inr (.inr (.inr phase))
  have stream : received (.received bytes :: s.hist) = received s.hist ++ bytes := rfl
  rcases phases with phase | phase | phase | phase
  · simp only [Stage, phase] at stage ⊢
    rcases stage with ⟨decided, empty, greeted, blank⟩
    exact ⟨by simpa using decided, empty, greeted.receive stream rfl, blank⟩
  · simp only [Stage, phase] at stage ⊢
    rcases stage with ⟨empty, complete, offered, method, blank, ⟨middle, greeted, identified⟩,
      store, decided⟩
    exact ⟨empty, complete, offered, method, blank,
      ⟨middle ++ bytes, greeted.receive stream rfl, identified.receive rfl⟩, store,
      by simpa using decided⟩
  · simp only [Stage, phase] at stage ⊢
    rcases stage with ⟨empty, input, admitted, asked⟩
    exact ⟨empty, input ++ bytes, admitted.receive stream rfl rfl rfl rfl, asked.receive rfl⟩
  · simp only [Stage, phase] at stage ⊢
    rcases stage with ⟨stopped, ds, input, reply, admitted, asked, decided, ok⟩
    refine ⟨stopped, ds, input ++ bytes, reply, admitted.receive stream rfl rfl rfl rfl, ?_,
      by simpa using decided, ok.cons _⟩
    have extended : s.Asked (input ++ bytes) (forwarded s.hist ++ s.unread ++ bytes) :=
      asked.receive rfl
    simpa [Asked] using extended

theorem Stage.initial : Session.initial.Stage := by
  simp [Stage, Session.initial]

theorem Stage.parseNeg (stage : s.Stage) (phase : s.phase = some .negRead) :
    ({ s with
        neg := (NegotiationParser.consumer.consume s.neg s.unread).1
        unread := (NegotiationParser.consumer.consume s.neg s.unread).2 } : Session).Stage := by
  simp only [Stage, phase, Greeted] at stage ⊢
  rcases stage with ⟨decided, empty, greeted, blank⟩
  refine ⟨decided, empty, ?_, blank⟩
  rw [greeted, NegotiationParser.consumer.consume_resume]

theorem Stage.parseAuth (stage : s.Stage) (phase : s.phase = some .authRead) :
    ({ s with
        auth := (Socks5Auth.consumer.consume s.auth s.unread).1
        unread := (Socks5Auth.consumer.consume s.auth s.unread).2 } : Session).Stage := by
  simp only [Stage, phase, Identified] at stage ⊢
  rcases stage with ⟨empty, complete, offered, method, blank, ⟨middle, greeted, identified⟩, store⟩
  refine ⟨empty, complete, offered, method, blank, ⟨middle, greeted, ?_⟩, store⟩
  rw [identified, Socks5Auth.consumer.consume_resume]

theorem Stage.parseRequest (stage : s.Stage) (phase : s.phase = some .reqRead) :
    ({ s with
        request := (Socks5Request.consumer.consume s.request s.unread).1
        unread := (Socks5Request.consumer.consume s.request s.unread).2 } : Session).Stage := by
  simp only [Stage, phase, Asked] at stage ⊢
  rcases stage with ⟨empty, input, admitted, asked⟩
  refine ⟨empty, input, admitted.keep rfl rfl rfl rfl rfl, ?_⟩
  rw [asked, Socks5Request.consumer.consume_resume]

/-- The method is chosen from the greeting and the users of that moment. -/
theorem Stage.choose (stage : s.Stage) (store : Users) (phase : s.phase = some .negRead)
    (complete : s.neg.state = .done) :
    (({ s with
        method := negotiationMethod s.neg (authRequired store)
        out := s.out ++ [SOCKS5_VERSION, negotiationMethod s.neg (authRequired store)]
        hist := .chose (negotiationMethod s.neg (authRequired store)) store ::
          s.hist } : Session).enter .negWrite).Stage := by
  simp only [Stage, phase] at stage
  rcases stage with ⟨decided, empty, greeted, blank⟩
  rw [enter_of_ne (by simp [phase])]
  simp only [arrive, Stage]
  exact ⟨by simpa [Greeted] using greeted, complete, blank.1, blank.2, store,
    by simp [decided], rfl⟩

theorem Stage.validate (stage : s.Stage) (store : Users) (status : UInt8)
    (phase : s.phase = some .authRead) (complete : s.auth.state = .done)
    (judged : status =
      if usersValidate store s.auth.user s.auth.password then SOCKS5_AUTH_OK
      else SOCKS5_AUTH_FAIL) :
    (({ s with
        authStatus := status
        out := s.out ++ [SOCKS5_AUTH_VERSION, status]
        hist := .validated status store :: s.hist } : Session).enter .authWrite).Stage := by
  simp only [Stage, phase] at stage
  rcases stage with ⟨empty, negotiated, offered, method, blank, ⟨middle, greeted, identified⟩,
    before, decided⟩
  rw [enter_of_ne (by simp [phase])]
  simp only [arrive, Stage]
  exact ⟨negotiated, offered, method, blank, complete,
    ⟨middle, by simpa [Greeted] using greeted, identified⟩, before, store, by simp [decided],
      judged⟩

/-- The client offered, and was asked for, a name and a password. -/
theorem Stage.methodUserpass (stage : s.Stage) (phase : s.phase = some .negWrite)
    (flushed : s.out = []) (method : s.method = SOCKS5_METHOD_USERPASS) :
    (s.enter .authRead).Stage := by
  simp only [Stage, phase] at stage
  rcases stage with ⟨greeted, complete, blank, unrequested, store, decided, chosen⟩
  have offered : s.neg.hasUserpass = true := by
    rw [method] at chosen
    revert chosen
    unfold negotiationMethod
    cases s.neg.hasUserpass <;> cases s.neg.hasNoauth <;> cases authRequired store <;> decide
  rw [enter_of_ne (by simp [phase])]
  simp only [arrive, Stage, blank]
  exact ⟨flushed, complete, offered, method, unrequested,
    ⟨s.unread, by simpa [Greeted] using greeted, rfl⟩, store, by simp [decided, method]⟩

/-- Without users, a client that offered no authentication goes straight to its request. -/
theorem Stage.methodNoauth (stage : s.Stage) (phase : s.phase = some .negWrite)
    (flushed : s.out = []) (accepted : s.method ≠ SOCKS5_METHOD_NONE)
    (method : s.method ≠ SOCKS5_METHOD_USERPASS) : (s.enter .reqRead).Stage := by
  simp only [Stage, phase] at stage
  rcases stage with ⟨greeted, complete, blank, unrequested, store, decided, chosen⟩
  have open_ : s.neg.hasNoauth = true ∧ authRequired store = false ∧
      s.method = SOCKS5_METHOD_NOAUTH := by
    rw [chosen] at accepted method ⊢
    revert accepted method
    unfold negotiationMethod
    cases s.neg.hasUserpass <;> cases s.neg.hasNoauth <;> cases authRequired store <;> decide
  rcases open_ with ⟨offered, unprotected, noauth⟩
  rw [enter_of_ne (by simp [phase])]
  simp only [arrive, Stage, unrequested]
  refine ⟨flushed, s.unread, ?_, rfl⟩
  rw [show decisions (.entered .reqRead :: s.hist) = [.chose SOCKS5_METHOD_NOAUTH store] by
    simp [decided, noauth]]
  exact .noauth store _ (by simpa [Greeted] using greeted) complete offered unprotected noauth

theorem Stage.authAccepted (stage : s.Stage) (phase : s.phase = some .authWrite)
    (flushed : s.out = []) (status : s.authStatus = SOCKS5_AUTH_OK) : (s.enter .reqRead).Stage := by
  simp only [Stage, phase] at stage
  rcases stage with ⟨complete, offered, method, unrequested, finished,
    ⟨middle, greeted, identified⟩, before, store, decided, judged⟩
  have valid : usersValidate store s.auth.user s.auth.password = true := by
    rw [status] at judged
    by_contra invalid
    simp [invalid, SOCKS5_AUTH_OK, SOCKS5_AUTH_FAIL] at judged
  rw [enter_of_ne (by simp [phase])]
  simp only [arrive, Stage, unrequested]
  refine ⟨flushed, s.unread, ?_, rfl⟩
  rw [show decisions (.entered .reqRead :: s.hist) =
      [.validated SOCKS5_AUTH_OK store, .chose SOCKS5_METHOD_USERPASS before] by
    simp [decided, status]]
  exact .userpass before store middle _ (by simpa [Greeted] using greeted) complete offered method
    identified finished valid status

/-- In the phases that connect, the request at hand is a complete CONNECT. -/
theorem Stage.requested (stage : s.Stage) (connecting : s.Connecting) :
    s.request.state = .done ∧ s.request.cmd = SOCKS5_CMD_CONNECT := by
  rcases connecting with ⟨-, complete, cmd⟩ | phase | phase
  · exact ⟨complete, cmd⟩
  · simp only [Stage, phase] at stage
    exact ⟨stage.2.1, stage.2.2.1⟩
  · simp only [Stage, phase] at stage
    exact ⟨stage.2.1, stage.2.2.1⟩

theorem Unanswered.wait (unanswered : s.Unanswered) (complete : s.request.state = .done)
    (cmd : s.request.cmd = SOCKS5_CMD_CONNECT) {next : State}
    (waiting : next = .reqResolve ∨ next = .reqConnecting) : (s.enter next).Stage := by
  rcases unanswered with ⟨empty, -, -, input, admitted, asked⟩
  unfold enter
  split
  · next phase =>
      rcases waiting with rfl | rfl <;>
        simpa only [Stage, phase] using ⟨empty, complete, cmd, input, admitted, asked⟩
  · have kept : ∀ {s' : Session}, s'.hist = .entered next :: s.hist → s'.neg = s.neg →
        s'.auth = s.auth → s'.method = s.method → s'.authStatus = s.authStatus →
        s'.Admitted (decisions s'.hist) input := by
      intro s' hist neg auth method status
      rw [hist, show decisions (.entered next :: s.hist) = decisions s.hist by simp]
      exact admitted.keep (by simp [hist]) neg auth method status
    rcases waiting with rfl | rfl <;>
      exact ⟨empty, complete, cmd, input, kept rfl rfl rfl rfl rfl, asked⟩

theorem Stage.openRelay (stage : s.Stage) (flow : s.Flow) (phase : s.phase = some .reqWrite)
    (connected : s.connected = true) : (s.enter .relay).Stage := by
  have early := flow.before (by simp [Past, phase])
  simp only [Stage, phase] at stage
  rcases stage with ⟨stopped, ds, input, rep, reply, admitted, asked, decided, ok, granted⟩
  obtain rfl := granted.mp connected
  rw [enter_of_ne (by simp [phase])]
  simp only [arrive, Stage]
  refine ⟨stopped, ds, input, reply, admitted.keep (by simp) rfl rfl rfl rfl, ?_, by simp [decided],
    (ok.cons _).cons _⟩
  simpa [Asked, early.forwarded] using asked

/-- Every step leads from stage to stage. -/
theorem Stage.step {trusted : Prop} {s s' : Session} (step : Step trusted s s') (flow : s.Flow)
    (stage : s.Stage) : s'.Stage := by
  cases step with
  | start fresh =>
      simp only [Stage, fresh] at stage
      rcases stage with ⟨decided, stream, unread, out, auth, request⟩
      rw [enter_of_ne (by simp [fresh])]
      simp [arrive, Stage, Greeted, decided, stream, unread, out, auth, request]
  | receive bytes reading => exact stage.receive bytes (.inl reading)
  | parseNeg phase => exact stage.parseNeg phase
  | parseAuth phase => exact stage.parseAuth phase
  | parseRequest phase => exact stage.parseRequest phase
  | clientGone | ioError | badGreeting | badCredentials | stall | methodRefused | authRefused =>
      exact stage_enter_error _
  | choose store phase complete => exact stage.choose store phase complete
  | validate store status phase complete judged =>
      exact stage.validate store status phase complete judged
  | send bytes rest answering pending =>
      refine stage.of_eq rfl rfl rfl rfl rfl rfl rfl ?_ rfl (by simp) (by simp) (by simp)
        (by simp +contextual)
      intro empty
      rw [empty] at pending
      exact (List.append_eq_nil_iff.mp pending.symm).2
  | methodUserpass phase flushed method => exact stage.methodUserpass phase flushed method
  | methodNoauth phase flushed accepted method =>
      exact stage.methodNoauth phase flushed accepted method
  | authAccepted phase flushed status => exact stage.authAccepted phase flushed status
  | badRequest phase invalid =>
      simp only [Stage, phase] at stage
      refine Unanswered.fail ?_ (by decide)
      exact ⟨stage.1, by simp [Socks5Request.stopped, invalid], by simp [phase], stage.2⟩
  | unsupported phase complete cmd =>
      simp only [Stage, phase] at stage
      refine Unanswered.fail ?_ (by decide)
      exact ⟨stage.1, by simp [Socks5Request.stopped, complete], by simp [phase], stage.2⟩
  | literal requested address =>
      exact stage.of_eq rfl rfl rfl rfl rfl rfl rfl id rfl rfl rfl rfl (by simp)
  | lookupRefused requested name =>
      exact ((stage.unanswered requested.connecting).note (.lookup false) rfl rfl).fail (by decide)
  | lookupQueued requested name =>
      have unanswered := (stage.unanswered requested.connecting).note (.lookup true) rfl rfl
      exact unanswered.wait requested.2.1 requested.2.2 (.inl rfl)
  | resolvedNothing phase =>
      exact ((stage.unanswered (.inr (.inl phase))).note (.resolved []) rfl rfl).fail (by decide)
  | resolved addresses phase some =>
      exact stage.of_eq rfl rfl rfl rfl rfl rfl rfl id rfl (by simp) (by simp) (by simp)
        (by simp +contextual)
  | attemptFails target rest error connecting targets =>
      exact stage.of_eq rfl rfl rfl rfl rfl rfl rfl id rfl (by simp) (by simp) (by simp)
        (by simp +contextual)
  | attemptUnusable target rest connecting targets =>
      have unanswered := (stage.unanswered connecting).note (.attempt target .unregistrable) rfl rfl
      exact (unanswered.retarget rest).fail (by decide)
  | attemptPends target rest connecting targets =>
      have unanswered := (stage.unanswered connecting).note (.attempt target .pending) rfl rfl
      rcases stage.requested connecting with ⟨complete, cmd⟩
      exact (unanswered.retarget rest).wait complete cmd (.inr rfl)
  | attemptSucceeds target rest status name connecting targets sound =>
      have unanswered := (stage.unanswered connecting).note (.attempt target .established) rfl rfl
      exact (unanswered.retarget rest).succeed status name
  | exhausted connecting targets =>
      exact (stage.unanswered connecting).fail (repFromErrno_ne_success _)
  | completes status name phase sound =>
      have unanswered := (stage.unanswered (.inr (.inr phase))).note (.completed none) rfl rfl
      exact unanswered.succeed status name
  | completesFailing error phase =>
      exact stage.of_eq rfl rfl rfl rfl rfl rfl rfl id rfl (by simp) (by simp) (by simp)
        (by simp +contextual)
  | expire | relayStall | relayClientEof | relayOriginEof | relayShutOrigin | relayShutClient =>
      exact stage.of_eq rfl rfl rfl rfl rfl rfl rfl id rfl (by simp) (by simp) (by simp)
        (by simp +contextual)
  | expireConnecting phase =>
      exact ((stage.unanswered (.inr (.inr phase))).note .timedOut rfl rfl).fail (by decide)
  | expireResolving phase =>
      exact ((stage.unanswered (.inr (.inl phase))).note .timedOut rfl rfl).fail (by decide)
  | openRelay phase flushed connected => exact stage.openRelay flow phase connected
  | refused | relayDone => exact stage_enter_done _
  | relayReceive bytes phase isOpen => exact stage.receive bytes (.inr phase)
  | relayFetch bytes phase isOpen =>
      simp only [Stage, phase] at stage ⊢
      rcases stage with ⟨stopped, ds, input, reply, admitted, asked, decided, ok⟩
      exact ⟨stopped, ds, input, reply, admitted.keep (by simp) rfl rfl rfl rfl,
        by simpa [Asked] using asked, by simp [decided], ok.cons _⟩
  | relayForward bytes rest phase pending =>
      simp only [Stage, phase] at stage ⊢
      rcases stage with ⟨stopped, ds, input, reply, admitted, asked, decided, ok⟩
      exact ⟨stopped, ds, input, reply, admitted.keep (by simp) rfl rfl rfl rfl,
        by simpa [Asked, pending] using asked, by simp [decided], ok.cons _⟩

end Session

end SocksProxy
