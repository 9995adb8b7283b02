import SocksProxy.Session.Stages

/-!
# What every session guarantees

Read off the history of a session, in whatever state it is: a request is served
only for a client that was entitled to make it, what the client is told follows
one of four scripts, each relayed direction is shut only when it is complete,
and success is reported only for a connection that exists.
-/

namespace SocksProxy

namespace Obs

/-- What only happens to a client that may make requests. -/
def isAdmission : Obs → Bool
  | .entered .reqRead | .entered .reqResolve | .entered .reqConnecting | .entered .reqWrite
  | .entered .relay | .leftover _ | .lookup _ | .resolved _ | .attempt _ _ | .completed _
  | .established _ => true
  | _ => false

end Obs

namespace History

/-- A history that grew by observations of a kind. -/
def Grows (kind : Obs → Prop) (h h' : List Obs) : Prop :=
  ∃ marks, h' = marks ++ h ∧ ∀ what ∈ marks, kind what

namespace Grows

variable {kind : Obs → Prop} {h h' : List Obs}

theorem refl : Grows kind h h := ⟨[], rfl, by simp⟩

theorem cons {what : Obs} (grows : Grows kind h h') (fits : kind what) :
    Grows kind h (what :: h') := by
  rcases grows with ⟨marks, rfl, kinds⟩
  exact ⟨what :: marks, rfl, by simpa using ⟨fits, kinds⟩⟩

theorem suffix (grows : Grows kind h h') : h <:+ h' := by
  rcases grows with ⟨marks, rfl, -⟩
  exact List.suffix_append marks h

end Grows

/-- Everything in a history fits what came before it. -/
def Always (kind : Obs → List Obs → Prop) (h : List Obs) : Prop :=
  ∀ what early, what :: early <:+ h → kind what early

theorem always_nil {kind : Obs → List Obs → Prop} : Always kind [] := by
  intro what early suffix
  simp at suffix

theorem always_cons {kind : Obs → List Obs → Prop} {what : Obs} {h : List Obs}
    (always : Always kind h) (fits : kind what h) : Always kind (what :: h) := by
  intro other early suffix
  rw [List.suffix_cons_iff] at suffix
  rcases suffix with same | earlier
  · rw [List.cons.injEq] at same
    rcases same with ⟨rfl, rfl⟩
    exact fits
  · exact always other early earlier

theorem Always.mono {kind : Obs → List Obs → Prop} {h h' : List Obs} (always : Always kind h')
    (suffix : h <:+ h') : Always kind h :=
  fun what early earlier => always what early (earlier.trans suffix)

theorem always_cons_iff {kind : Obs → List Obs → Prop} {what : Obs} {h : List Obs} :
    Always kind (what :: h) ↔ kind what h ∧ Always kind h :=
  ⟨fun always => ⟨always what h (List.suffix_refl _), always.mono (List.suffix_cons what h)⟩,
    fun both => always_cons both.2 both.1⟩

instance decidableAlways {kind : Obs → List Obs → Prop}
    [∀ what early, Decidable (kind what early)] : (h : List Obs) → Decidable (Always kind h)
  | [] => isTrue always_nil
  | what :: h =>
      have : Decidable (Always kind h) := decidableAlways h
      decidable_of_iff (kind what h ∧ Always kind h) always_cons_iff.symm

theorem Always.grow {kind : Obs → List Obs → Prop} {h h' : List Obs} (always : Always kind h)
    (grows : Grows (fun what => ∀ early, kind what early) h h') : Always kind h' := by
  rcases grows with ⟨marks, rfl, kinds⟩
  induction marks with
  | nil => exact always
  | cons what marks ih =>
      simp only [List.forall_mem_cons] at kinds
      exact always_cons (ih kinds.2) (kinds.1 _)

end History

namespace Session

variable {trusted : Prop} {s : Session}

open History

theorem Grows.enter {kind : Obs → Prop} {h : List Obs} {next : State} (grows : Grows kind h s.hist)
    (entered : kind (.entered next)) (leftover : next = .relay → ∀ bytes, kind (.leftover bytes)) :
    Grows kind h (s.enter next).hist := by
  unfold Session.enter
  split
  · exact grows
  · have moved := grows.cons entered
    cases next with
    | relay => exact moved.cons (leftover rfl _)
    | _ => exact moved

/-- What answering a request adds to the history. -/
structure Answerable (kind : Obs → Prop) : Prop where
  entered : kind (.entered .reqWrite)
  replied : ∀ rep reply, kind (.replied rep reply)
  logged : ∀ user dest result, kind (.logged user dest result)

theorem Grows.recordFailure {kind : Obs → Prop} {h : List Obs} {rep : UInt8}
    (grows : Grows kind h s.hist) (answerable : Answerable kind) :
    Grows kind h (s.recordFailure rep).hist := by
  unfold Session.recordFailure failureRecord
  split
  · exact grows.cons (answerable.logged _ _ _)
  · exact grows

theorem Grows.fail {kind : Obs → Prop} {h : List Obs} {rep : UInt8} (grows : Grows kind h s.hist)
    (answerable : Answerable kind) : Grows kind h (s.fail rep).hist :=
  Grows.enter ((Grows.recordFailure grows answerable).cons (answerable.replied _ _))
    answerable.entered (by simp)

theorem Grows.succeed {kind : Obs → Prop} {h : List Obs} {status : SocketStatus}
    {name : Option Sockaddr} (grows : Grows kind h s.hist) (answerable : Answerable kind)
    (established : kind (.established status)) (named : kind (.named name)) :
    Grows kind h (s.succeed status name).hist := by
  have asked : Grows kind h ((s.note (.established status)).note (.named name)).hist :=
    (grows.cons established).cons named
  unfold Session.succeed
  split
  · exact Grows.fail asked answerable
  · exact Grows.enter ((asked.cons (answerable.replied _ _)).cons (answerable.logged _ _ _))
      answerable.entered (by simp)

/-- The phases of a client that may make requests. -/
def Served (s : Session) : Prop :=
  s.phase = some .reqRead ∨ s.phase = some .reqResolve ∨ s.phase = some .reqConnecting ∨
    s.phase = some .reqWrite ∨ s.phase = some .relay

/-- The phases of a session that is over. -/
def Ended (s : Session) : Prop := s.phase = some .done ∨ s.phase = some .error

/-- What a step may add to the history, given where it leads. -/
structure Allowed (trusted : Prop) (s' : Session) (what : Obs) : Prop where
  admission : what.isAdmission = true → s'.Served
  decision : what.isDecision = true → ¬s'.Ended
  sound : ∀ status, what = .established status → trusted → status = .connected

namespace Allowed

variable {s' : Session} {what : Obs}

theorem of_plain (admission : what.isAdmission = false) (decision : what.isDecision = false) :
    Allowed trusted s' what := by
  refine ⟨by simp [admission], fun decided => ?_, ?_⟩
  · simp only [decision, Bool.false_eq_true] at decided
  · rintro status rfl
    simp [Obs.isAdmission] at admission

theorem of_served (served : s'.Served)
    (sound : ∀ status, what = .established status → trusted → status = .connected) :
    Allowed trusted s' what := by
  refine ⟨fun _ => served, fun _ ended => ?_, sound⟩
  rcases served with phase | phase | phase | phase | phase <;> simp [Ended, phase] at ended

theorem of_busy (admission : what.isAdmission = false) (busy : ¬s'.Ended) :
    Allowed trusted s' what := by
  refine ⟨by simp [admission], fun _ => busy, ?_⟩
  rintro status rfl
  simp [Obs.isAdmission] at admission

end Allowed

theorem Connecting.served (connecting : s.Connecting) : s.Served := by
  rcases connecting with ⟨phase, -⟩ | phase | phase <;> simp [Served, phase]

theorem grows_end {s₀ s : Session} {next : State} (final : next = .done ∨ next = .error)
    (grows : Grows (Allowed trusted (s.enter next)) s₀.hist s.hist) :
    Grows (Allowed trusted (s.enter next)) s₀.hist (s.enter next).hist := by
  refine Grows.enter grows (.of_plain ?_ rfl) ?_
  · rcases final with rfl | rfl <;> rfl
  · rcases final with rfl | rfl <;> simp

theorem Served.answerable {s' : Session} (served : s'.Served) : Answerable (Allowed trusted s') :=
  ⟨.of_served served (by simp), fun _ _ => .of_served served (by simp),
    fun _ _ _ => .of_served served (by simp)⟩

theorem grows_fail {s₀ s : Session} {rep : UInt8}
    (grows : Grows (Allowed trusted (s.fail rep)) s₀.hist s.hist) :
    Grows (Allowed trusted (s.fail rep)) s₀.hist (s.fail rep).hist := by
  have served : (s.fail rep).Served := by simp [Served]
  exact Grows.fail grows served.answerable

theorem grows_succeed {s₀ s : Session} {status : SocketStatus} {name : Option Sockaddr}
    (sound : trusted → status = .connected)
    (grows : Grows (Allowed trusted (s.succeed status name)) s₀.hist s.hist) :
    Grows (Allowed trusted (s.succeed status name)) s₀.hist (s.succeed status name).hist := by
  have served : (s.succeed status name).Served := by simp [Served]
  refine Grows.succeed grows served.answerable (.of_served served ?_) (.of_served served (by simp))
  rintro _ ⟨⟩
  exact sound

theorem grows_serve {s₀ s : Session} {next : State}
    (grows : Grows (Allowed trusted (s.enter next)) s₀.hist s.hist)
    (served : (s.enter next).Served) :
    Grows (Allowed trusted (s.enter next)) s₀.hist (s.enter next).hist :=
  Grows.enter grows (.of_served served (by simp)) fun _ _ => .of_served served (by simp)

/-- Every step extends the history by what is allowed where it leads. -/
theorem Step.grows {s s' : Session} (step : Step trusted s s') :
    Grows (Allowed trusted s') s.hist s'.hist := by
  cases step with
  | start => exact Grows.enter .refl (.of_plain rfl rfl) (by simp)
  | receive | send | expire | relayReceive | relayFetch | relayForward | relayStall
  | relayClientEof | relayOriginEof | relayShutOrigin | relayShutClient =>
      exact Grows.refl.cons (.of_plain rfl rfl)
  | parseNeg | parseAuth | parseRequest | literal => exact .refl
  | clientGone | ioError | stall => exact grows_end (.inr rfl) (Grows.refl.cons (.of_plain rfl rfl))
  | badGreeting | badCredentials | methodRefused | authRefused => exact grows_end (.inr rfl) .refl
  | choose | validate =>
      refine Grows.enter (Grows.refl.cons (.of_busy rfl ?_)) (.of_plain rfl rfl) (by simp)
      simp [Ended]
  | methodUserpass => exact Grows.enter .refl (.of_plain rfl rfl) (by simp)
  | methodNoauth | authAccepted | openRelay => exact grows_serve .refl (by simp [Served])
  | badRequest | unsupported | exhausted => exact grows_fail .refl
  | lookupRefused | resolvedNothing | expireConnecting | expireResolving =>
      exact grows_fail (Grows.refl.cons (.of_served (by simp [Served]) (by simp)))
  | lookupQueued =>
      exact grows_serve (Grows.refl.cons (.of_served (by simp [Served]) (by simp)))
        (by simp [Served])
  | resolved addresses phase some =>
      exact Grows.refl.cons (.of_served (by simp [Served, phase]) (by simp))
  | attemptFails target rest error connecting targets =>
      exact Grows.refl.cons (.of_served connecting.served (by simp))
  | attemptUnusable =>
      exact grows_fail (Grows.refl.cons (.of_served (by simp [Served]) (by simp)))
  | attemptPends =>
      exact grows_serve (Grows.refl.cons (.of_served (by simp [Served]) (by simp)))
        (by simp [Served])
  | attemptSucceeds target rest status name connecting targets sound =>
      exact grows_succeed sound (Grows.refl.cons (.of_served (by simp [Served]) (by simp)))
  | completes status name phase sound =>
      exact grows_succeed sound (Grows.refl.cons (.of_served (by simp [Served]) (by simp)))
  | completesFailing error phase =>
      exact Grows.refl.cons (.of_served (by simp [Served, phase]) (by simp))
  | refused | relayDone => exact grows_end (.inl rfl) .refl

theorem Reachable.invariant (reachable : s.Reachable trusted) : s.Flow ∧ s.Stage := by
  induction reachable with
  | refl => exact ⟨Flow.initial, Stage.initial⟩
  | tail _ step ih => exact ⟨ih.1.step step, ih.2.step step ih.1⟩

/-- A successful connection is reported only where one was established. -/
theorem Reachable.established (reachable : s.Reachable True) {status : SocketStatus}
    (reported : .established status ∈ s.hist) : status = .connected := by
  induction reachable with
  | refl => simp [Session.initial] at reported
  | tail _ step ih =>
      rcases step.grows with ⟨marks, grown, allowed⟩
      rw [grown, List.mem_append] at reported
      rcases reported with fresh | old
      · exact (allowed _ fresh).sound status rfl trivial
      · exact ih old

/-- Why the client may make requests, read off the history: it offered no authentication while there
were no users, or it offered a name and a password and sent those of a user. -/
inductive Warranted (h : List Obs) : List Obs → Prop where
  | noauth (store : Users) (greeting rest methods : List UInt8)
      (stream : received h = greeting ++ rest) (greeted : IsGreeting greeting methods)
      (offered : SOCKS5_METHOD_NOAUTH ∈ methods) (empty : store.accounts = []) :
      Warranted h [.chose SOCKS5_METHOD_NOAUTH store]
  | userpass (before store : Users) (greeting message rest methods user password : List UInt8)
      (stream : received h = greeting ++ message ++ rest) (greeted : IsGreeting greeting methods)
      (offered : SOCKS5_METHOD_USERPASS ∈ methods)
      (credentials : IsCredentials message user password)
      (account : (user, password) ∈ store.accounts) :
      Warranted h [.validated SOCKS5_AUTH_OK store, .chose SOCKS5_METHOD_USERPASS before]

theorem Warranted.extend {h h' ds : List Obs} (warranted : Warranted h ds) (suffix : h <:+ h') :
    Warranted h' ds := by
  rcases suffix with ⟨marks, rfl⟩
  cases warranted with
  | noauth store greeting rest methods stream greeted offered empty =>
      refine .noauth store greeting (rest ++ received marks) methods ?_ greeted offered empty
      rw [received, collect_append, ← received, stream, List.append_assoc, received]
  | userpass before store greeting message rest methods user password stream greeted offered
      credentials account =>
      refine .userpass before store greeting message (rest ++ received marks) methods user password
        ?_ greeted offered credentials account
      rw [received, collect_append, ← received, stream, List.append_assoc, received]

theorem accounts_eq_nil {store : Users} (unprotected : authRequired store = false) :
    store.accounts = [] := by
  apply List.length_eq_zero_iff.mp
  rw [Users.length_accounts]
  have none : ¬0 < store.count := of_decide_eq_false unprotected
  omega

theorem Greeted.split {tail : List UInt8} (greeted : s.Greeted tail)
    (complete : s.neg.state = .done) :
    ∃ greeting methods, received s.hist = greeting ++ tail ∧ IsGreeting greeting methods ∧
      (s.neg.hasNoauth = true ↔ SOCKS5_METHOD_NOAUTH ∈ methods) ∧
      (s.neg.hasUserpass = true ↔ SOCKS5_METHOD_USERPASS ∈ methods) := by
  have stopped : NegotiationParser.consumer.final s.neg = true := by
    simp [NegotiationParser.consumer, NegotiationParser.stopped, complete]
  have reached : NegotiationParser.consumer.consume negotiationParserInit (received s.hist) =
      (s.neg, tail) :=
    Eq.trans greeted (NegotiationParser.consumer.consume_final stopped tail)
  rcases NegotiationParser.consumer.exists_consumed negotiationParserInit (received s.hist)
    with ⟨greeting, stream, consumed⟩
  rw [reached] at stream consumed
  rcases NegotiationParser.greeting_of_done consumed complete with ⟨methods, shape, offers⟩
  exact ⟨greeting, methods, stream, shape, offers⟩

/-- Parsed credentials stand first in what they were parsed from. -/
theorem Identified.split {input tail : List UInt8} (identified : s.Identified input tail)
    (complete : s.auth.state = .done) :
    ∃ message, input = message ++ tail ∧ IsCredentials message s.auth.user s.auth.password := by
  have stopped : Socks5Auth.consumer.final s.auth = true := by
    simp [Socks5Auth.consumer, Socks5Auth.stopped, complete]
  have reached : Socks5Auth.consumer.consume (authParserInit Socks5Auth.zero) input =
      (s.auth, tail) :=
    Eq.trans identified (Socks5Auth.consumer.consume_final stopped tail)
  rcases Socks5Auth.consumer.exists_consumed (authParserInit Socks5Auth.zero) input
    with ⟨message, split, consumed⟩
  rw [reached] at split consumed
  exact ⟨message, split, Socks5Auth.credentials_of_done consumed complete⟩

theorem Admitted.warranted {ds : List Obs} {input : List UInt8} (admitted : s.Admitted ds input) :
    Warranted s.hist ds := by
  cases admitted with
  | noauth store input greeted complete offered unprotected method =>
      rcases greeted.split complete with ⟨greeting, methods, stream, shape, noauth, -⟩
      exact .noauth store greeting input methods stream shape (noauth.mp offered)
        (accounts_eq_nil unprotected)
  | userpass before store middle input greeted complete offered method identified finished valid
      status =>
      rcases greeted.split complete with ⟨greeting, methods, stream, shape, -, userpass⟩
      rcases identified.split finished with ⟨message, rfl, credentials⟩
      exact .userpass before store greeting message input methods s.auth.user s.auth.password
        (by rw [stream, List.append_assoc]) shape (userpass.mp offered) credentials
        (Users.mem_accounts_of_validate valid)

theorem Stage.warranted (stage : s.Stage) (served : s.Served) :
    ∃ ds, ds <:+ decisions s.hist ∧ Warranted s.hist ds := by
  rcases served with phase | phase | phase | phase | phase
  · simp only [Stage, phase] at stage
    rcases stage with ⟨-, input, admitted, -⟩
    exact ⟨_, List.suffix_refl _, admitted.warranted⟩
  · simp only [Stage, phase] at stage
    rcases stage with ⟨-, -, -, input, admitted, -⟩
    exact ⟨_, List.suffix_refl _, admitted.warranted⟩
  · simp only [Stage, phase] at stage
    rcases stage with ⟨-, -, -, input, admitted, -⟩
    exact ⟨_, List.suffix_refl _, admitted.warranted⟩
  · simp only [Stage, phase] at stage
    rcases stage with ⟨-, ds, input, rep, reply, admitted, -, decided, -⟩
    exact ⟨ds, decided ▸ List.suffix_cons _ _, admitted.warranted⟩
  · simp only [Stage, phase] at stage
    rcases stage with ⟨-, ds, input, reply, admitted, -, decided, -⟩
    exact ⟨ds, decided ▸ List.suffix_cons _ _, admitted.warranted⟩

theorem suffix_decisions {h h' : List Obs} (suffix : h <:+ h') :
    decisions h <:+ decisions h' := by
  rcases suffix with ⟨marks, rfl⟩
  simp [decisions]

/-- Nothing is done for a client that was not entitled to it. -/
theorem Reachable.warranted (reachable : s.Reachable trusted) {what : Obs}
    (happened : what ∈ s.hist) (admission : what.isAdmission = true) :
    ∃ ds, ds <:+ decisions s.hist ∧ Warranted s.hist ds := by
  induction reachable with
  | refl => simp [Session.initial] at happened
  | tail earlier step ih =>
      rcases step.grows with ⟨marks, grown, allowed⟩
      have suffix := step.grows.suffix
      rw [grown, List.mem_append] at happened
      rcases happened with fresh | old
      · exact (Reachable.invariant (earlier.tail step)).2.warranted
          ((allowed _ fresh).admission admission)
      · rcases ih old with ⟨ds, first, warranted⟩
        exact ⟨ds, first.trans (suffix_decisions suffix), warranted.extend suffix⟩

/-- The decisions of a session, latest first, form one of these scripts. -/
inductive Script (h : List Obs) : List Obs → Prop where
  | silent : Script h []
  | method (method : UInt8) (store : Users)
      (known : method = SOCKS5_METHOD_NONE ∨ method = SOCKS5_METHOD_NOAUTH ∨
        method = SOCKS5_METHOD_USERPASS) : Script h [.chose method store]
  | status (status : UInt8) (before store : Users) :
      Script h [.validated status store, .chose SOCKS5_METHOD_USERPASS before]
  | reply (rep : UInt8) (reply : List UInt8) (ds : List Obs) (warranted : Warranted h ds)
      (ok : ReplyOk h rep reply) : Script h (.replied rep reply :: ds)

theorem ReplyOk.extend {h h' : List Obs} {rep : UInt8} {reply : List UInt8}
    (ok : ReplyOk h rep reply) (suffix : h <:+ h') : ReplyOk h' rep reply := by
  refine ⟨ok.1, fun success => ?_⟩
  rcases ok.2 success with ⟨sa, named, bytes⟩
  exact ⟨sa, suffix.subset named, bytes⟩

theorem Script.extend {h h' ds : List Obs} (script : Script h ds) (suffix : h <:+ h') :
    Script h' ds := by
  cases script with
  | silent => exact .silent
  | method method store known => exact .method method store known
  | status status before store => exact .status status before store
  | reply rep reply ds warranted ok =>
      exact .reply rep reply ds (warranted.extend suffix) (ok.extend suffix)

theorem Warranted.script {h ds : List Obs} (warranted : Warranted h ds) : Script h ds := by
  cases warranted with
  | noauth store => exact .method _ store (.inr (.inl rfl))
  | userpass before store => exact .status _ before store

theorem negotiationMethod_known (p : NegotiationParser) (required : Bool) :
    negotiationMethod p required = SOCKS5_METHOD_NONE ∨
      negotiationMethod p required = SOCKS5_METHOD_NOAUTH ∨
      negotiationMethod p required = SOCKS5_METHOD_USERPASS := by
  unfold negotiationMethod
  cases p.hasUserpass <;> cases p.hasNoauth <;> cases required <;> decide

theorem Stage.script (stage : s.Stage) (going : ¬s.Ended) : Script s.hist (decisions s.hist) := by
  unfold Stage at stage
  split at stage
  · rw [stage.1]
    exact .silent
  · rw [stage.1]
    exact .silent
  · rcases stage with ⟨-, -, -, -, store, decided, chosen⟩
    rw [decided]
    exact .method _ store (chosen ▸ negotiationMethod_known s.neg (authRequired store))
  · rcases stage with ⟨-, -, -, -, -, -, store, decided⟩
    rw [decided]
    exact .method _ store (.inr (.inr rfl))
  · rcases stage with ⟨-, -, -, -, -, -, before, store, decided, -⟩
    rw [decided]
    exact .status _ before store
  · rcases stage with ⟨-, input, admitted, -⟩
    exact admitted.warranted.script
  · rcases stage with ⟨-, -, -, input, admitted, -⟩
    exact admitted.warranted.script
  · rcases stage with ⟨-, -, -, input, admitted, -⟩
    exact admitted.warranted.script
  · rcases stage with ⟨-, ds, input, rep, reply, admitted, -, decided, ok, -⟩
    rw [decided]
    exact .reply rep reply ds admitted.warranted ok
  · rcases stage with ⟨-, ds, input, reply, admitted, -, decided, ok⟩
    rw [decided]
    exact .reply _ reply ds admitted.warranted ok
  · next phase => exact absurd (.inl phase) going
  · next phase => exact absurd (.inr phase) going

theorem decisions_append_of_plain {marks h : List Obs}
    (plain : ∀ what ∈ marks, what.isDecision = false) :
    decisions (marks ++ h) = decisions h := by
  have none : marks.filter Obs.isDecision = [] := by
    rw [List.filter_eq_nil_iff]
    intro what member
    rw [plain what member]
    decide
  rw [decisions, List.filter_append, none, List.nil_append, decisions]

/-- Every session follows a script, and keeps to it when it is over. -/
theorem Reachable.script (reachable : s.Reachable trusted) : Script s.hist (decisions s.hist) := by
  induction reachable with
  | refl => exact .silent
  | @tail s s' earlier step ih =>
      by_cases ended : s'.Ended
      · rcases step.grows with ⟨marks, grown, allowed⟩
        have plain : ∀ what ∈ marks, what.isDecision = false := by
          intro what member
          rw [← Bool.not_eq_true]
          exact fun decided => (allowed what member).decision decided ended
        have same : decisions s'.hist = decisions s.hist := by
          rw [grown, decisions_append_of_plain plain]
        rw [same]
        exact ih.extend step.grows.suffix
      · exact (Reachable.invariant (earlier.tail step)).2.script ended

theorem isSome_relaySplit_append {marks h : List Obs}
    (inside : ∀ what ∈ marks, ∀ bytes, what ≠ .leftover bytes) :
    (relaySplit (marks ++ h)).isSome = (relaySplit h).isSome := by
  induction marks with
  | nil => rfl
  | cons what marks ih =>
      simp only [List.forall_mem_cons] at inside
      rw [List.cons_append, relaySplit_cons _ inside.1, Option.isSome_map, ih inside.2]

theorem Reachable.granted (reachable : s.Reachable trusted) (relayed : (relaySplit s.hist).isSome) :
    ∃ reply ds, decisions s.hist = .replied SOCKS5_REP_SUCCESS reply :: ds := by
  induction reachable with
  | refl => simp [Session.initial, relaySplit] at relayed
  | @tail s s' earlier step ih =>
      rcases Reachable.invariant (earlier.tail step) with ⟨flow, stage⟩
      rcases Option.isSome_iff_exists.mp relayed with ⟨⟨late, pipelined, early⟩, split⟩
      rcases (flow.late split).1 with phase | ended
      · simp only [Stage, phase] at stage
        rcases stage with ⟨-, ds, input, reply, -, -, decided, -⟩
        exact ⟨reply, ds, decided⟩
      · rcases step.grows with ⟨marks, grown, allowed⟩
        have plain : ∀ what ∈ marks, what.isDecision = false := by
          intro what member
          rw [← Bool.not_eq_true]
          exact fun decided => (allowed what member).decision decided ended
        have inside : ∀ what ∈ marks, ∀ bytes, what ≠ .leftover bytes := by
          rintro what member bytes rfl
          rcases (allowed _ member).admission rfl with phase | phase | phase | phase | phase <;>
            simp [phase] at ended
        rw [grown, isSome_relaySplit_append inside] at relayed
        rw [grown, decisions_append_of_plain plain]
        exact ih relayed

/-- Each write side is shut once, after the other peer's end of input and once everything from that
peer was delivered; nothing is read from that peer afterwards. A relay that is done has delivered
and shut both directions. -/
def Orderly (what : Obs) (h : List Obs) : Prop :=
  match what with
  | .shutOrigin =>
      .shutOrigin ∉ h ∧ ∃ late pipelined early, relaySplit h = some (late, pipelined, early) ∧
        .clientEof ∈ late ∧ forwarded late = pipelined ++ received late
  | .shutClient =>
      .shutClient ∉ h ∧ ∃ late pipelined early, relaySplit h = some (late, pipelined, early) ∧
        .originEof ∈ late ∧ sent late = fetched late
  | .received _ => .shutOrigin ∉ h
  | .fetched _ => .shutClient ∉ h
  | .entered .done =>
      ∀ late pipelined early, relaySplit h = some (late, pipelined, early) →
        .shutOrigin ∈ late ∧ .shutClient ∈ late ∧ forwarded late = pipelined ++ received late ∧
          sent late = fetched late
  | _ => True

theorem Early.shut (early : s.Early) : .shutOrigin ∉ s.hist ∧ .shutClient ∉ s.hist := by
  constructor <;> intro member <;> simpa [Obs.isRelaying] using early.quiet _ member

/-- In a relay, whether a side was shut can be read off its flag. -/
theorem Relayed.notMem_hist {late early : List Obs} {pipelined : List UInt8}
    (relayed : s.Relayed late pipelined early)
    (split : relaySplit s.hist = some (late, pipelined, early)) :
    (s.originWrShut = false → .shutOrigin ∉ s.hist) ∧
      (s.clientWrShut = false → .shutClient ∉ s.hist) := by
  have before : ∀ what ∈ early, what.isRelaying = false := relayed.calm
  rw [eq_append_of_relaySplit split]
  refine ⟨fun isOpen member => ?_, fun isOpen member => ?_⟩
  · simp only [List.mem_append, List.mem_cons, reduceCtorEq, false_or] at member
    rcases member with inside | outside
    · exact relayed.originOpen isOpen inside
    · simpa [Obs.isRelaying] using before _ outside
  · simp only [List.mem_append, List.mem_cons, reduceCtorEq, false_or] at member
    rcases member with inside | outside
    · exact relayed.clientOpen isOpen inside
    · simpa [Obs.isRelaying] using before _ outside

theorem answerable_orderly : Answerable (fun what => ∀ early, Orderly what early) :=
  ⟨fun _ => trivial, fun _ _ _ => trivial, fun _ _ _ _ => trivial⟩

theorem grows_orderly_fail {h : List Obs} {rep : UInt8}
    (grows : Grows (fun what => ∀ early, Orderly what early) h s.hist) :
    Grows (fun what => ∀ early, Orderly what early) h (s.fail rep).hist :=
  Grows.fail grows answerable_orderly

theorem grows_orderly_succeed {h : List Obs} {status : SocketStatus} {name : Option Sockaddr}
    (grows : Grows (fun what => ∀ early, Orderly what early) h s.hist) :
    Grows (fun what => ∀ early, Orderly what early) h (s.succeed status name).hist :=
  Grows.succeed grows answerable_orderly (fun _ => trivial) fun _ => trivial

theorem grows_orderly_enter {h : List Obs} {next : State}
    (grows : Grows (fun what => ∀ early, Orderly what early) h s.hist) (going : next ≠ .done) :
    Grows (fun what => ∀ early, Orderly what early) h (s.enter next).hist := by
  refine Grows.enter grows ?_ fun _ _ _ => trivial
  cases next <;> first | exact fun _ => trivial | exact absurd rfl going

/-- Every step shuts, reads and ends in order. -/
theorem Step.orderly {s s' : Session} (step : Step trusted s s') (flow : s.Flow)
    (always : Always Orderly s.hist) : Always Orderly s'.hist := by
  cases step with
  | receive bytes reading => exact always_cons always (flow.before reading.not_past).shut.1
  | relayReceive bytes phase isOpen =>
      rcases flow.after phase with ⟨late, pipelined, early, split, relayed⟩
      refine always_cons always ((relayed.notMem_hist split).1 ?_)
      rw [← Bool.not_eq_true]
      intro shut
      simp [(relayed.originShut shut).2.1] at isOpen
  | relayFetch bytes phase isOpen =>
      rcases flow.after phase with ⟨late, pipelined, early, split, relayed⟩
      refine always_cons always ((relayed.notMem_hist split).2 ?_)
      rw [← Bool.not_eq_true]
      intro shut
      simp [(relayed.clientShut shut).2.1] at isOpen
  | relayShutOrigin phase closed delivered once =>
      rcases flow.after phase with ⟨late, pipelined, early, split, relayed⟩
      refine always_cons always ⟨(relayed.notMem_hist split).1 once, late, pipelined, early, split,
        relayed.clientEnded closed, ?_⟩
      simpa [delivered] using relayed.upstream
  | relayShutClient phase closed delivered once =>
      rcases flow.after phase with ⟨late, pipelined, early, split, relayed⟩
      refine always_cons always ⟨(relayed.notMem_hist split).2 once, late, pipelined, early, split,
        relayed.originEnded closed, ?_⟩
      simpa [delivered] using relayed.downstream
  | relayDone phase client origin =>
      rcases flow.after phase with ⟨late, pipelined, early, split, relayed⟩
      rw [enter_of_ne (by simp [phase])]
      refine always_cons always ?_
      intro late' pipelined' early' split'
      rw [split] at split'
      simp only [Option.some.injEq, Prod.mk.injEq] at split'
      rcases split' with ⟨rfl, rfl, rfl⟩
      rcases relayed.originShut origin with ⟨originMark, -, drainedUp⟩
      rcases relayed.clientShut client with ⟨clientMark, -, drainedDown⟩
      exact ⟨originMark, clientMark, by simpa [drainedUp] using relayed.upstream,
        by simpa [drainedDown] using relayed.downstream⟩
  | refused phase flushed connected =>
      have early := flow.before (by simp [Past, phase])
      rw [enter_of_ne (by simp [phase])]
      refine always_cons always ?_
      intro late pipelined first split
      simp [early.unsplit] at split
  | start | methodUserpass | methodNoauth | authAccepted | openRelay | badGreeting | badCredentials
  | methodRefused | authRefused =>
      exact always.grow (grows_orderly_enter .refl (by decide))
  | parseNeg | parseAuth | parseRequest | literal => exact always
  | send | expire | relayForward | relayStall | relayClientEof | relayOriginEof | resolved
  | attemptFails | completesFailing =>
      exact always_cons always trivial
  | clientGone | ioError | stall | choose | validate | lookupQueued | attemptPends =>
      exact always.grow (grows_orderly_enter (Grows.refl.cons fun _ => trivial) (by decide))
  | badRequest | unsupported | exhausted => exact always.grow (grows_orderly_fail .refl)
  | lookupRefused | resolvedNothing | attemptUnusable | expireConnecting | expireResolving =>
      exact always.grow (grows_orderly_fail (Grows.refl.cons fun _ => trivial))
  | attemptSucceeds | completes =>
      exact always.grow (grows_orderly_succeed (Grows.refl.cons fun _ => trivial))

theorem Reachable.orderly (reachable : s.Reachable trusted) : Always Orderly s.hist := by
  induction reachable with
  | refl => exact always_nil
  | tail earlier step ih => exact step.orderly (Reachable.invariant earlier).1 ih

/-! ## The end of a relay -/

/-- A relay that is done has shut both directions. -/
def Shut (s : Session) : Prop :=
  s.phase = some .done → (relaySplit s.hist).isSome = true →
    s.clientWrShut = true ∧ s.originWrShut = true

theorem Shut.of_phase {phase : State} (current : s.phase = some phase) (going : phase ≠ .done) :
    s.Shut := by
  intro done
  exact absurd (Option.some.inj (current.symm.trans done)) going

theorem Step.shut {s s' : Session} (step : Step trusted s s') (flow : s.Flow) (shut : s.Shut) :
    s'.Shut := by
  cases step with
  | start | clientGone | ioError | badGreeting | badCredentials | choose | validate | stall |
      methodRefused | methodUserpass | methodNoauth | authRefused | authAccepted | lookupQueued |
      attemptPends | openRelay =>
      exact .of_phase (phase_enter _ _) (by decide)
  | badRequest | unsupported | lookupRefused | resolvedNothing | attemptUnusable | exhausted |
      expireConnecting | expireResolving =>
      exact .of_phase (phase_fail _ _) (by decide)
  | attemptSucceeds | completes => exact .of_phase (phase_succeed _ _ _) (by decide)
  | parseNeg | parseAuth | parseRequest | resolved | completesFailing | relayReceive | relayFetch |
      relayForward | relayStall | relayClientEof | relayOriginEof | relayShutOrigin |
      relayShutClient =>
      exact .of_phase ‹s.phase = some _› (by decide)
  | literal requested address => exact .of_phase requested.1 (by decide)
  | receive bytes reading =>
      rcases reading with ⟨state, phase, reads⟩
      refine .of_phase phase ?_
      rintro rfl
      cases reads
  | send bytes rest answering pending =>
      rcases answering with (phase | phase | phase) | phase <;> exact .of_phase phase (by decide)
  | attemptFails target rest error connecting targets =>
      rcases connecting with requested | phase | phase
      · exact .of_phase requested.1 (by decide)
      · exact .of_phase phase (by decide)
      · exact .of_phase phase (by decide)
  | expire =>
      intro done split
      exact shut done (by simpa [relaySplit] using split)
  | refused phase flushed connected =>
      have early := (flow.before (Answering.not_past (.inr (.inr phase)))).unsplit
      rw [enter_of_ne (by simp [phase])]
      intro _ split
      simp [arrive, relaySplit, early] at split
  | relayDone phase client origin =>
      rw [enter_of_ne (by simp [phase])]
      exact fun _ _ => ⟨client, origin⟩

theorem Reachable.delivered (reachable : s.Reachable trusted) (done : s.phase = some .done)
    (split : (relaySplit s.hist).isSome = true) : s.unread = [] ∧ s.out = [] := by
  have shut : s.Shut := by
    clear done split
    induction reachable with
    | refl => exact fun fresh => by cases fresh
    | tail earlier step ih => exact step.shut (Reachable.invariant earlier).1 ih
  rcases shut done split with ⟨client, origin⟩
  rcases Option.isSome_iff_exists.mp split with ⟨⟨late, pipelined, early⟩, found⟩
  have relayed := (reachable.invariant.1.late found).2
  exact ⟨(relayed.originShut origin).2.2, (relayed.clientShut client).2.2⟩

/-! ## What the fields remember -/

/-- The method of the latest choice, or what `calloc` left. -/
def chosenMethod : List Obs → UInt8
  | [] => 0
  | .chose method _ :: _ => method
  | _ :: earlier => chosenMethod earlier

/-- The status of the latest validation, or what `calloc` left. -/
def validatedStatus : List Obs → UInt8
  | [] => 0
  | .validated status _ :: _ => status
  | _ :: earlier => validatedStatus earlier

theorem chosenMethod_decisions (h : List Obs) : chosenMethod (decisions h) = chosenMethod h := by
  induction h with
  | nil => rfl
  | cons what rest ih => cases what <;> simp [chosenMethod, ih]

theorem validatedStatus_decisions (h : List Obs) :
    validatedStatus (decisions h) = validatedStatus h := by
  induction h with
  | nil => rfl
  | cons what rest ih => cases what <;> simp [validatedStatus, ih]

/-- The fields of the session agree with its history. -/
def Recorded (s : Session) : Prop :=
  s.method = chosenMethod s.hist ∧ s.authStatus = validatedStatus s.hist

theorem Recorded.enter (recorded : s.Recorded) (next : State) : (s.enter next).Recorded := by
  unfold Session.enter
  split
  · exact recorded
  · cases next <;> exact recorded

theorem Recorded.fail (recorded : s.Recorded) (rep : UInt8) : (s.fail rep).Recorded := by
  refine Recorded.enter ?_ _
  unfold Session.recordFailure failureRecord
  split <;> exact recorded

theorem Recorded.succeed (recorded : s.Recorded) (status : SocketStatus) (name : Option Sockaddr) :
    (s.succeed status name).Recorded := by
  unfold Session.succeed
  split
  · refine Recorded.fail ?_ _
    exact recorded
  · refine Recorded.enter ?_ _
    exact recorded

theorem Step.recorded {s s' : Session} (step : Step trusted s s') (recorded : s.Recorded) :
    s'.Recorded := by
  cases step with
  | choose =>
      refine Recorded.enter ?_ _
      exact ⟨rfl, recorded.2⟩
  | validate =>
      refine Recorded.enter ?_ _
      exact ⟨recorded.1, rfl⟩
  | start | methodUserpass | methodNoauth | authAccepted | openRelay | badGreeting | badCredentials
  | methodRefused | authRefused | refused | relayDone =>
      exact recorded.enter _
  | clientGone | ioError | stall | lookupQueued | attemptPends =>
      refine Recorded.enter ?_ _
      exact recorded
  | badRequest | unsupported | exhausted => exact recorded.fail _
  | lookupRefused | resolvedNothing | attemptUnusable | expireConnecting | expireResolving =>
      refine Recorded.fail ?_ _
      exact recorded
  | attemptSucceeds | completes =>
      refine Recorded.succeed ?_ _ _
      exact recorded
  | _ => exact recorded

theorem Reachable.recorded (reachable : s.Reachable trusted) : s.Recorded := by
  induction reachable with
  | refl => exact ⟨rfl, rfl⟩
  | tail earlier step ih => exact step.recorded ih

theorem Warranted.accepted {h ds : List Obs} (warranted : Warranted h ds) :
    chosenMethod ds ≠ SOCKS5_METHOD_NONE ∧ validatedStatus ds = SOCKS5_AUTH_OK := by
  cases warranted with
  | noauth => exact ⟨show SOCKS5_METHOD_NOAUTH ≠ SOCKS5_METHOD_NONE by decide, rfl⟩
  | userpass => exact ⟨show SOCKS5_METHOD_USERPASS ≠ SOCKS5_METHOD_NONE by decide, rfl⟩

/-- A script that begins with the decisions that admit a client has no others but the reply. -/
theorem Script.accepted {h ds first : List Obs} (script : Script h ds) (begins : first <:+ ds)
    (warranted : Warranted h first) :
    chosenMethod ds ≠ SOCKS5_METHOD_NONE ∧ validatedStatus ds = SOCKS5_AUTH_OK := by
  cases script with
  | silent =>
      rw [List.suffix_nil] at begins
      subst begins
      nomatch warranted
  | method method store known =>
      rw [List.suffix_cons_iff, List.suffix_nil] at begins
      rcases begins with rfl | rfl
      · exact warranted.accepted
      · nomatch warranted
  | status status before store =>
      rw [List.suffix_cons_iff, List.suffix_cons_iff, List.suffix_nil] at begins
      rcases begins with rfl | rfl | rfl
      · exact warranted.accepted
      · nomatch warranted
      · nomatch warranted
  | reply rep reply earlier admitted ok => exact admitted.accepted

/-- Once the client was served, the method and the status are the ones that admitted it. -/
theorem Reachable.accepted (reachable : s.Reachable trusted) {what : Obs} (happened : what ∈ s.hist)
    (admission : what.isAdmission = true) :
    s.method ≠ SOCKS5_METHOD_NONE ∧ s.authStatus = SOCKS5_AUTH_OK := by
  rcases reachable.warranted happened admission with ⟨ds, first, warranted⟩
  rcases reachable.recorded with ⟨method, status⟩
  rw [method, status, ← chosenMethod_decisions, ← validatedStatus_decisions]
  exact reachable.script.accepted first warranted

end Session

end SocksProxy
