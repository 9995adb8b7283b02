import SocksProxy.Session.Course

/-!
# Handshakes on one course

Every session stays on the course that its circumstances prescribe, from its
first event to the relay and beyond. What two sessions under the same
circumstances have come to is therefore comparable, and is the same once neither
has anything left to wait for; what is relayed is what follows the messages of
the handshake in the client's stream.
-/

namespace SocksProxy

namespace Session

open History Course Deterministic

variable {fixed : Circumstances} {s s' : Session} {trusted : Prop}

/-- What follows the handshake in a client's stream: the greeting, the credentials if the method
asks for them, and the request are taken as far as their parsers take them. -/
def payload (method : UInt8) (stream : List UInt8) : List UInt8 :=
  let greeted := (NegotiationParser.consumer.consume negotiationParserInit stream).2
  let identified :=
    if method = SOCKS5_METHOD_USERPASS then
      (Socks5Auth.consumer.consume (authParserInit Socks5Auth.zero) greeted).2
    else greeted
  (Socks5Request.consumer.consume (requestParserInit Socks5Request.zero) identified).2

theorem rest_of_longer {State : Type} {consumer : Consumer State UInt8} {start state : State}
    {input tail : List UInt8} (more : List UInt8)
    (parsed : consumer.consume start input = consumer.consume state tail)
    (stopped : consumer.final state = true) :
    (consumer.consume start (input ++ more)).2 = tail ++ more := by
  rw [consumer.consume_append_congr parsed more, consumer.consume_final stopped]

/-- A client that was admitted has sent its request after its greeting and its credentials. -/
theorem Admitted.payload_eq {ds : List Obs} {input : List UInt8} (admitted : s.Admitted ds input)
    (asked : s.Asked input s.unread) (stopped : s.request.stopped = true) (more : List UInt8) :
    payload s.method (received s.hist ++ more) = s.unread ++ more := by
  cases admitted with
  | noauth store input greeted complete offered unprotected method =>
      have first := rest_of_longer more greeted
        (show s.neg.stopped = true by simp [NegotiationParser.stopped, complete])
      rw [payload, method, if_neg (by decide), first]
      exact rest_of_longer more asked stopped
  | userpass before store middle input greeted complete offered method identified finished valid =>
      have first := rest_of_longer more greeted
        (show s.neg.stopped = true by simp [NegotiationParser.stopped, complete])
      have second := rest_of_longer more identified
        (show s.auth.stopped = true by simp [Socks5Auth.stopped, finished])
      rw [payload, method, if_pos rfl, first, second]
      exact rest_of_longer more asked stopped

/-! ## The relay -/

theorem Step.opens (step : Step trusted s s') (outside : s.phase ≠ some .relay)
    (relays : s'.phase = some .relay) :
    s.phase = some .reqWrite ∧ s.connected = true ∧ s' = s.enter .relay := by
  cases step with
  | openRelay phase flushed connected => exact ⟨phase, connected, rfl⟩
  | _ => first | exact absurd relays outside | exact absurd relays (by simp)

theorem Step.phase_of_split {parts : List Obs × List UInt8 × List Obs} (step : Step trusted s s')
    (unsplit : relaySplit s.hist = none) (split : relaySplit s'.hist = some parts)
    (flow : s'.Flow) : s'.phase = some .relay := by
  rcases parts with ⟨late, pipelined, early⟩
  rcases (flow.late split).1 with relays | ended
  · exact relays
  · rcases step.grows with ⟨marks, grown, allowed⟩
    have inside : ∀ what ∈ marks, ∀ bytes, what ≠ .leftover bytes := by
      rintro what member bytes rfl
      rcases (allowed _ member).admission rfl with phase | phase | phase | phase | phase <;>
        simp [phase] at ended
    have same := isSome_relaySplit_append (h := s.hist) inside
    rw [← grown, split, unsplit] at same
    cases same

/-- Once it relays, a session keeps what its handshake has come to. -/
theorem Step.relaying {late early : List Obs} {pipelined : List UInt8} (step : Step trusted s s')
    (flow : s.Flow) (split : relaySplit s.hist = some (late, pipelined, early)) :
    (∃ late', relaySplit s'.hist = some (late', pipelined, early)) ∧ s'.auth = s.auth ∧
      s'.request = s.request ∧ s'.method = s.method := by
  have past := (flow.late split).1
  have cons : ∀ {what : Obs}, (∀ bytes, what ≠ .leftover bytes) →
      ∃ late', relaySplit (what :: s.hist) = some (late', pipelined, early) := by
    intro what inside
    exact ⟨what :: late, by rw [relaySplit_cons _ inside, split, Option.map_some]⟩
  have ends : ∀ (t : Session) (final : State), final = .done ∨ final = .error →
      (∃ late', relaySplit t.hist = some (late', pipelined, early)) →
      ∃ late', relaySplit (t.enter final).hist = some (late', pipelined, early) := by
    rintro t final ending ⟨late', split'⟩
    unfold enter
    split
    · exact ⟨late', split'⟩
    · rcases ending with rfl | rfl
      · exact ⟨.entered .done :: late', by simp [arrive, relaySplit, split']⟩
      · exact ⟨.entered .error :: late', by simp [arrive, relaySplit, split']⟩
  have same : ∀ (t : Session) (final : State), final = .done ∨ final = .error →
      (t.enter final).auth = t.auth ∧ (t.enter final).request = t.request ∧
        (t.enter final).method = t.method := by
    intro t final ending
    unfold enter
    split
    · exact ⟨rfl, rfl, rfl⟩
    · rcases ending with rfl | rfl <;> exact ⟨rfl, rfl, rfl⟩
  cases step with
  | ioError => exact ⟨ends _ _ (.inr rfl) (cons (by simp)), same _ _ (.inr rfl)⟩
  | relayDone => exact ⟨ends _ _ (.inl rfl) ⟨late, split⟩, same _ _ (.inl rfl)⟩
  | send | expire | relayReceive | relayFetch | relayForward | relayStall | relayClientEof
  | relayOriginEof | relayShutOrigin | relayShutClient =>
      exact ⟨cons (by simp), rfl, rfl, rfl⟩
  | receive bytes reading => exact absurd past reading.not_past
  | clientGone hungry => exact absurd past hungry.not_past
  | stall answering => exact absurd past answering.not_past
  | literal requested | lookupRefused requested | lookupQueued requested =>
      exact absurd past requested.connecting.not_past
  | attemptFails _ _ _ connecting | attemptUnusable _ _ connecting | attemptPends _ _ connecting
  | attemptSucceeds _ _ _ _ connecting | exhausted connecting =>
      exact absurd past connecting.not_past
  | start fresh => simp [Past, fresh] at past
  | parseNeg phase | parseAuth phase | parseRequest phase | badGreeting phase
  | badCredentials phase | choose _ phase | validate _ _ phase | methodRefused phase
  | methodUserpass phase | methodNoauth phase | authRefused phase | authAccepted phase
  | badRequest phase | unsupported phase | resolvedNothing phase | resolved _ phase
  | completes _ _ phase | completesFailing _ phase | expireConnecting phase
  | expireResolving phase | openRelay phase | refused phase => simp [Past, phase] at past

/-! ## Staying on the course -/

/-- Where a session stands on the course of its circumstances. -/
def OnCourse (fixed : Circumstances) (s : Session) (course : Course) : Prop :=
  match relaySplit s.hist with
  | none => course = s.course fixed
  | some (_, pipelined, early) =>
      course.session.phase = some .relay ∧ course.session.hist = essence early ∧
        course.session.auth = s.auth ∧ course.session.request = s.request ∧
        pipelined ++ fixed.stream.drop (received early).length = payload s.method fixed.stream

theorem onCourse_of_unsplit {course : Course} (unsplit : relaySplit s.hist = none) :
    OnCourse fixed s course ↔ course = s.course fixed := by
  simp [OnCourse, unsplit]

theorem handshake_of_unsplit {h : List Obs} (unsplit : relaySplit h = none) : handshake h = h := by
  simp [handshake, unsplit]

theorem onCourse_openRelay (stage : s.Stage) (phase : s.phase = some .reqWrite)
    (connected : s.connected = true) (begins : received s.hist <+: fixed.stream) :
    ∃ course', (s.course fixed).next fixed = some course' ∧
      OnCourse fixed (s.enter .relay) course' := by
  have poised : s.Poised .reqWrite := ⟨phase, by simp, by simp, by simp⟩
  simp only [Stage, phase] at stage
  rcases stage with ⟨stopped, ds, input, rep, reply, admitted, asked, -⟩
  rcases begins with ⟨more, stream⟩
  refine ⟨⟨{ s.outline fixed with
      phase := some .relay, hist := .entered .relay :: essence s.hist }, s.unanswered fixed⟩,
    ?_, ?_⟩
  · rw [poised.course_eq]
    simp only [next, phase_outline fixed phase,
      show (s.outline fixed).connected = s.connected from rfl, connected, if_true]
    rfl
  · have entered : (s.enter .relay).hist = .leftover s.unread :: .entered .relay :: s.hist := by
      simp [enter, phase, arrive]
    have kept : (s.enter .relay).auth = s.auth ∧ (s.enter .relay).request = s.request ∧
        (s.enter .relay).method = s.method := by
      simp [enter, phase, arrive]
    simp only [OnCourse, entered, relaySplit, kept]
    refine ⟨trivial, by simp [Obs.essence], rfl, rfl, ?_⟩
    rw [← stream, admitted.payload_eq asked stopped more]
    simp

/-- Every step stays on the course. -/
theorem OnCourse.step {course : Course} (on : OnCourse fixed s course)
    (reachable : s.Reachable trusted) (step : Step trusted s s')
    (governed : fixed.Governs s'.hist) :
    ∃ course', Leads (next fixed) course course' ∧ OnCourse fixed s' course' := by
  rcases reachable.invariant with ⟨flow, stage⟩
  have flow' := flow.step step
  cases split : relaySplit s.hist with
  | some parts =>
      rcases parts with ⟨late, pipelined, early⟩
      rcases step.relaying flow split with ⟨⟨late', split'⟩, auth, request, method⟩
      refine ⟨course, .refl, ?_⟩
      simpa only [OnCourse, split, split', auth, request, method] using on
  | none =>
      rw [onCourse_of_unsplit split] at on
      subst on
      have outside := (flow.early split).2
      cases split' : relaySplit s'.hist with
      | none =>
          have moves := (flow'.early split').2
          have follows := step.follows reachable.asking outside (handshake_of_unsplit split') moves
            governed
          refine ⟨s'.course fixed, ?_, (onCourse_of_unsplit split').mpr rfl⟩
          rcases follows with stays | goes
          · rw [stays]
            exact .refl
          · exact Relation.ReflTransGen.single goes
      | some parts =>
          have relays := step.phase_of_split split split' flow'
          rcases step.opens outside relays with ⟨phase, connected, rfl⟩
          have begins : received s.hist <+: fixed.stream := by
            have whole := governed.stream
            rcases step.grows.suffix with ⟨marks, grown⟩
            rw [← grown, received, collect_append] at whole
            exact (List.prefix_append _ _).trans whole
          rcases onCourse_openRelay stage phase connected begins with ⟨course', goes, on'⟩
          exact ⟨course', Relation.ReflTransGen.single goes, on'⟩

theorem prefix_answers {h h' : List Obs} (suffix : h <:+ h') :
    History.answers h <+: History.answers h' := by
  rcases suffix with ⟨marks, rfl⟩
  simp only [History.answers, List.filterMap_append, List.reverse_append]
  exact List.prefix_append _ _

theorem prefix_received {h h' : List Obs} (suffix : h <:+ h') : received h <+: received h' := by
  rcases suffix with ⟨marks, rfl⟩
  simp only [received, collect_append]
  exact List.prefix_append _ _

theorem Step.handshake_suffix (step : Step trusted s s') (flow : s.Flow) (flow' : s'.Flow) :
    handshake s.hist <:+ handshake s'.hist := by
  cases split : relaySplit s.hist with
  | some parts =>
      rcases parts with ⟨late, pipelined, early⟩
      rcases step.relaying flow split with ⟨⟨late', split'⟩, -⟩
      simp [handshake, split, split']
  | none =>
      rw [handshake_of_unsplit split]
      cases split' : relaySplit s'.hist with
      | none =>
          rw [handshake_of_unsplit split']
          exact step.grows.suffix
      | some parts =>
          rcases step.opens (flow.early split).2 (step.phase_of_split split split' flow') with
            ⟨phase, -, rfl⟩
          have entered : (s.enter .relay).hist = .leftover s.unread :: .entered .relay ::
            s.hist := by
            simp [enter, phase, arrive]
          simp only [handshake, entered, relaySplit]
          exact List.suffix_cons _ _

theorem Step.governed (step : Step trusted s s') (flow : s.Flow)
    (governed : fixed.Governs s'.hist) : fixed.Governs s.hist := by
  have suffix := step.handshake_suffix flow (flow.step step)
  exact ⟨(prefix_received step.grows.suffix).trans governed.stream,
    (prefix_answers suffix).trans governed.answers, governed.ordinary.mono suffix⟩

theorem onCourse_initial (fixed : Circumstances) : OnCourse fixed initial (start fixed) := by
  simp only [OnCourse, initial, relaySplit]
  simp [course, outline, start, initial, latest, essence, History.answers]

/-- Whatever a session has come to lies on the course of its circumstances. -/
theorem Reachable.onCourse (reachable : s.Reachable trusted) (governed : fixed.Governs s.hist) :
    ∃ course, Leads (next fixed) (start fixed) course ∧ OnCourse fixed s course := by
  induction reachable with
  | refl => exact ⟨start fixed, .refl, onCourse_initial fixed⟩
  | tail earlier step ih =>
      rcases ih (step.governed (Reachable.invariant earlier).1 governed) with ⟨course, leads, on⟩
      rcases on.step earlier step governed with ⟨course', goes, on'⟩
      exact ⟨course', leads.trans goes, on'⟩

/-! ## Two sessions under the same circumstances -/

@[simp]
theorem hist_settle (s : Session) : s.settle.hist = s.hist := by
  unfold settle
  split <;> rfl

theorem OnCourse.hist_eq {course : Course} (on : OnCourse fixed s course) :
    course.session.hist = essence (handshake s.hist) := by
  cases split : relaySplit s.hist with
  | none =>
      rw [(onCourse_of_unsplit split).mp on, handshake_of_unsplit split]
      exact hist_settle _
  | some parts =>
      simp only [OnCourse, split] at on
      simp only [handshake, split]
      exact on.2.1

theorem suffix_succeed (s : Session) (status : SocketStatus) (name : Option Sockaddr) :
    s.hist <:+ (s.succeed status name).hist := by
  have asked : s.hist <:+ ((s.note (.established status)).note (.named name)).hist :=
    ⟨[.named name, .established status], rfl⟩
  unfold succeed
  split
  · exact asked.trans (suffix_fail _ _)
  · refine asked.trans (List.IsSuffix.trans ?_ (suffix_enter _ .reqWrite))
    exact ⟨[.logged _ _ _, .replied _ _], rfl⟩

/-- A course that goes on adds to a history. -/
def Extends (h : List Obs) (result : Option Course) : Prop :=
  ∀ course', result = some course' → h <:+ course'.session.hist

theorem extends_none (h : List Obs) : Extends h none := by
  rintro _ ⟨⟩

theorem extends_go {h : List Obs} {t : Session} {left : List Answer}
    (suffix : h <:+ t.hist) : Extends h (go t left) := by
  rintro _ ⟨⟩
  rwa [hist_settle]

theorem extends_tryNext (s : Session) (left : List Answer) :
    Extends s.hist (tryNext s left) := by
  unfold tryNext
  split
  · exact extends_go (suffix_fail _ _)
  · exact extends_go (List.suffix_cons _ _)
  · exact extends_go ((List.suffix_cons _ _).trans (suffix_fail (s.attempted _ _ _) _))
  · exact extends_go ((List.suffix_cons _ _).trans (suffix_enter (s.attempted _ _ _) _))
  · exact extends_go ((List.suffix_cons _ _).trans (suffix_succeed (s.attempted _ _ _) _ _))
  · exact extends_none _

theorem extends_ask (s : Session) (left : List Answer) :
    Extends s.hist (ask s left) := by
  unfold ask
  split
  · exact extends_tryNext _ _
  · split
    · exact extends_go ((List.suffix_cons _ _).trans (suffix_enter (s.note _) _))
    · exact extends_go ((List.suffix_cons _ _).trans (suffix_fail (s.note _) _))
    · exact extends_none _

theorem extends_awaitLookup (s : Session) (left : List Answer) :
    Extends s.hist (awaitLookup s left) := by
  unfold awaitLookup
  split
  · exact extends_go ((List.suffix_cons _ _).trans (suffix_fail (s.note _) _))
  · exact extends_go (List.suffix_cons _ _)
  · exact extends_none _
  · exact extends_tryNext _ _

theorem extends_awaitAttempt (s : Session) (left : List Answer) :
    Extends s.hist (awaitAttempt s left) := by
  unfold awaitAttempt
  split
  · exact extends_go ((List.suffix_cons _ _).trans (suffix_succeed (s.note _) _ _))
  · exact extends_go (List.suffix_cons _ _)
  · exact extends_none _
  · exact extends_tryNext _ _

theorem extends_starve (s : Session) (left : List Answer) :
    Extends s.hist (starve fixed s left) := by
  unfold starve
  split
  · exact extends_go ((List.suffix_cons _ _).trans (suffix_enter (s.note _) _))
  · exact extends_none _

theorem next_extends (course : Course) : Extends course.session.hist (next fixed course) := by
  rcases course with ⟨s, left⟩
  have enters : ∀ state, Extends s.hist (go (s.enter state) left) :=
    fun state => extends_go (suffix_enter s state)
  dsimp only [next]
  split
  · split
    · exact enters _
    · refine extends_go (List.IsSuffix.trans ?_ (suffix_enter _ .negWrite))
      exact List.suffix_cons _ _
    · exact extends_starve _ _
  · split
    · exact enters _
    · split <;> exact enters _
  · split
    · exact enters _
    · refine extends_go (List.IsSuffix.trans ?_ (suffix_enter _ .authWrite))
      exact List.suffix_cons _ _
    · exact extends_starve _ _
  · split <;> exact enters _
  · split
    · exact extends_go (suffix_fail _ _)
    · split
      · exact extends_go (suffix_fail _ _)
      · split
        · exact extends_ask _ _
        · exact extends_tryNext _ _
    · exact extends_starve _ _
  · exact extends_awaitLookup _ _
  · exact extends_awaitAttempt _ _
  · split
    · rintro _ ⟨⟩
      exact List.suffix_cons _ _
    · exact enters _
  · exact extends_none _

/-- What two sessions have come to under the same circumstances is comparable. -/
theorem Reachable.comparable {t : Session} (reachable : s.Reachable trusted)
    (reachable' : t.Reachable trusted) (governed : fixed.Governs s.hist)
    (governed' : fixed.Governs t.hist) :
    essence (handshake s.hist) <:+ essence (handshake t.hist) ∨
      essence (handshake t.hist) <:+ essence (handshake s.hist) := by
  rcases reachable.onCourse governed with ⟨course, leads, on⟩
  rcases reachable'.onCourse governed' with ⟨course', leads', on'⟩
  have grows : ∀ {a b : Course}, Leads (next fixed) a b → a.session.hist <:+ b.session.hist := by
    intro a b leads
    refine leads.keeps (fun a b => a.session.hist <:+ b.session.hist) (fun _ => List.suffix_rfl)
      ?_ fun a b goes => next_extends a b goes
    intro a b c first second
    exact List.IsSuffix.trans first second
  rw [← on.hist_eq, ← on'.hist_eq]
  exact (leads.comparable leads').imp grows grows

/-- What a connection at rest waits for. -/
structure Waiting (s : Session) : Prop where
  reading : s.Reading → s.Hungry ∧ s.unread = []
  answering : s.Answering → s.out ≠ []
  resolving : s.phase = some .reqResolve → s.latest = some (.lookup true)
  connecting : s.phase = some .reqConnecting → s.Pending

/-- Nothing more is to come to a session: its handshake is over, or it has had everything there is
to have. -/
inductive Concluded (fixed : Circumstances) (s : Session) : Prop where
  | ended (ended : s.Ended) : Concluded fixed s
  | relayed (relayed : (relaySplit s.hist).isSome) : Concluded fixed s
  | served (waiting : s.Waiting) (stream : received s.hist = fixed.stream)
      (answers : History.answers s.hist = fixed.answers) (flushed : s.out = [])
      (ends : s.phase = none ∨ s.Reading → fixed.ends = false) : Concluded fixed s

/-- A session that has had everything there is to have in its handshake cannot go on. -/
theorem Waiting.stuck (waiting : s.Waiting) (reachable : s.Reachable trusted)
    (unsplit : relaySplit s.hist = none) (stream : received s.hist = fixed.stream)
    (answers : History.answers s.hist = fixed.answers) (flushed : s.out = [])
    (ends : s.phase = none ∨ s.Reading → fixed.ends = false) :
    next fixed (s.course fixed) = none ∧ (s.course fixed).session.auth = s.auth ∧
      (s.course fixed).session.request = s.request := by
  rcases reachable.invariant with ⟨flow, stage⟩
  have answered : s.unanswered fixed = [] := by simp [unanswered, answers]
  -- While the client is read, nothing of its stream is left.
  have reads : s.Reading → next fixed (s.course fixed) = none ∧
      (s.course fixed).session.auth = s.auth ∧ (s.course fixed).session.request = s.request := by
    intro reading
    rcases waiting.reading reading with ⟨hungry, drained⟩
    have used : (s.outline fixed).unread = [] := by simp [outline, drained, stream]
    rw [next_of_hungry hungry used, starve, ends (.inr reading), course, settle_of_used rfl used]
    exact ⟨rfl, rfl, rfl⟩
  cases current : s.phase with
  | none =>
      simp only [Stage, current] at stage
      have used : (s.outline fixed).unread = [] := by simp [outline, stage.2.2.1, stream]
      rw [course, settle_of_used rfl used]
      refine ⟨?_, rfl, rfl⟩
      simp [next, outline, current, negotiationParserInit, starve, ends (.inl current)]
  | some phase =>
      cases phase with
      | negRead | authRead | reqRead => exact reads ⟨_, current, rfl⟩
      | negWrite => exact absurd flushed (waiting.answering (.inl current))
      | authWrite => exact absurd flushed (waiting.answering (.inr (.inl current)))
      | reqWrite => exact absurd flushed (waiting.answering (.inr (.inr current)))
      | reqResolve =>
          have poised : s.Poised .reqResolve := ⟨current, by simp, by simp, by simp⟩
          rw [poised.course_eq, ← unanswered, answered,
            next_resolve (phase_outline fixed current)]
          refine ⟨?_, rfl, rfl⟩
          simp [awaitLookup, latest_outline, waiting.resolving current]
      | reqConnecting =>
          have poised : s.Poised .reqConnecting := ⟨current, by simp, by simp, by simp⟩
          rcases waiting.connecting current with ⟨target, pending⟩
          rw [poised.course_eq, ← unanswered, answered,
            next_connecting (phase_outline fixed current)]
          refine ⟨?_, rfl, rfl⟩
          simp [awaitAttempt, latest_outline, pending]
      | relay => exact absurd current (flow.early unsplit).2
      | done =>
          have poised : s.Poised .done := ⟨current, by simp, by simp, by simp⟩
          rw [poised.course_eq]
          exact ⟨by simp [next, phase_outline fixed current], rfl, rfl⟩
      | error =>
          have poised : s.Poised .error := ⟨current, by simp, by simp, by simp⟩
          rw [poised.course_eq]
          exact ⟨by simp [next, phase_outline fixed current], rfl, rfl⟩

/-- A session with nothing more to come has reached the end of its course. -/
theorem Concluded.stuck {course : Course} (concluded : s.Concluded fixed)
    (reachable : s.Reachable trusted) (on : OnCourse fixed s course) :
    next fixed course = none ∧ course.session.auth = s.auth ∧
      course.session.request = s.request := by
  cases split : relaySplit s.hist with
  | some parts =>
      rcases parts with ⟨late, pipelined, early⟩
      simp only [OnCourse, split] at on
      rcases on with ⟨phase, -, auth, request, -⟩
      exact ⟨by simp [next, phase], auth, request⟩
  | none =>
      rw [onCourse_of_unsplit split] at on
      subst on
      cases concluded with
      | ended ended =>
          obtain ⟨phase, poised, final⟩ : ∃ phase, s.Poised phase ∧
              (phase = .done ∨ phase = .error) := by
            rcases ended with phase | phase
            · exact ⟨.done, ⟨phase, by simp, by simp, by simp⟩, .inl rfl⟩
            · exact ⟨.error, ⟨phase, by simp, by simp, by simp⟩, .inr rfl⟩
          rw [poised.course_eq]
          refine ⟨?_, rfl, rfl⟩
          simp only [next, phase_outline fixed poised.current]
          rcases final with rfl | rfl <;> rfl
      | relayed relayed => simp [split] at relayed
      | served waiting stream answers flushed ends =>
          exact waiting.stuck reachable split stream answers flushed ends

/-- Two sessions with nothing more to come have come to the same. -/
theorem Reachable.concluded_eq {t : Session} (reachable : s.Reachable trusted)
    (reachable' : t.Reachable trusted) (governed : fixed.Governs s.hist)
    (governed' : fixed.Governs t.hist) (concluded : s.Concluded fixed)
    (concluded' : t.Concluded fixed) :
    essence (handshake s.hist) = essence (handshake t.hist) ∧ s.auth = t.auth ∧
      s.request = t.request := by
  rcases reachable.onCourse governed with ⟨course, leads, on⟩
  rcases reachable'.onCourse governed' with ⟨course', leads', on'⟩
  rcases concluded.stuck reachable on with ⟨stuck, auth, request⟩
  rcases concluded'.stuck reachable' on' with ⟨stuck', auth', request'⟩
  obtain rfl := leads.eq_of_both_stuck leads' stuck stuck'
  exact ⟨on.hist_eq.symm.trans on'.hist_eq, auth.symm.trans auth', request.symm.trans request'⟩

/-- The phases a connection went through, latest first. It starts in `NEG_READ`. -/
def phases : List Obs → List State
  | [] => [.negRead]
  | .entered .negRead :: h => phases h
  | .entered state :: h => state :: phases h
  | _ :: h => phases h

theorem phases_essence (h : List Obs) : phases (essence h) = phases h := by
  induction h with
  | nil => rfl
  | cons what h ih =>
      cases what with
      | entered state => cases state <;> simpa [Obs.essence, phases] using ih
      | _ => simpa [Obs.essence, phases] using ih

theorem queued_essence (h : List Obs) : queued (essence h) = queued h := by
  induction h with
  | nil => rfl
  | cons what h ih =>
      cases what with
      | entered state => cases state <;> simpa [Obs.essence] using ih
      | _ => simpa [Obs.essence] using ih

/-- What a session forwards, has buffered and has yet to receive is what follows its handshake. -/
theorem Reachable.forwards (reachable : s.Reachable trusted) (governed : fixed.Governs s.hist)
    (relayed : (relaySplit s.hist).isSome) :
    forwarded s.hist ++ s.unread ++ fixed.stream.drop (received s.hist).length =
      payload s.method fixed.stream := by
  rcases Option.isSome_iff_exists.mp relayed with ⟨⟨late, pipelined, early⟩, split⟩
  rcases reachable.onCourse governed with ⟨course, -, on⟩
  simp only [OnCourse, split] at on
  have relay := (reachable.invariant.1.late split).2
  have apart : received s.hist = received early ++ received late := by
    rw [eq_append_of_relaySplit split, received, collect_append]
    simp [collect, received]
  have begins := governed.stream
  rw [apart] at begins
  rcases begins with ⟨more, stream⟩
  rw [(relay.totals split).1, relay.upstream, ← on.2.2.2.2, apart, ← stream]
  simp

end Session

end SocksProxy
