import SocksProxy.Session.Network
import SocksProxy.Session.Records

/-!
# Candidate addresses

A request names one address or a list of them, and the attempts to connect are
spread over a loop and the events that resume it. The history tells which
candidates were tried and what became of each; the invariant `Search` says that
they are tried in order, that all but the latest have failed, and why the reply
is the one that was given.
-/

namespace SocksProxy

/-- What became of the attempt to reach a candidate. -/
inductive Fate where
  | failed (error : Errno)
  | unusable
  | pending
  | succeeded
  deriving DecidableEq

/-- What `request_connect` learns at once. -/
def AttemptResult.fate : AttemptResult → Fate
  | .failed error => .failed error
  | .unregistrable => .unusable
  | .pending => .pending
  | .established => .succeeded

/-- What `SO_ERROR` says about an attempt that was pending. -/
def Fate.reported : Option Errno → Fate
  | none => .succeeded
  | some error => .failed error

/-- A candidate that was tried. -/
abbrev Trial := Sockaddr × Fate

def Trial.Failed (trial : Trial) : Prop := ∃ error, trial.2 = .failed error

/-- A complete CONNECT request. -/
def Socks5Request.Connects (r : Socks5Request) : Prop :=
  r.state = .done ∧ r.cmd = SOCKS5_CMD_CONNECT

/-- Observations that neither concern the network nor reply to the request. -/
def Obs.isCalm : Obs → Bool
  | .replied _ _ => false
  | what => !what.isNetwork

namespace History

/-- The latest trial is reported on. -/
def settled (error : Option Errno) : List Trial → List Trial
  | [] => []
  | (target, _) :: before => (target, .reported error) :: before

/-- The candidates tried so far, latest first. -/
def trials : List Obs → List Trial
  | [] => []
  | .attempt target result :: earlier => (target, result.fate) :: trials earlier
  | .completed error :: earlier => settled error (trials earlier)
  | _ :: earlier => trials earlier

/-- What a name was last resolved to. -/
def resolution : List Obs → List Sockaddr
  | [] => []
  | .resolved addresses :: _ => addresses
  | _ :: earlier => resolution earlier

/-- The addresses to try for a request: the literal one, or those its name was resolved to. -/
def candidates (h : List Obs) (request : Socks5Request) : List Sockaddr :=
  if request.atyp = SOCKS5_ATYP_IPV4 ∨ request.atyp = SOCKS5_ATYP_IPV6 then [literalAddr request]
  else resolution h

/-- The reply to the request, and the history before it. -/
def verdict : List Obs → Option (UInt8 × List Obs)
  | [] => none
  | .replied rep _ :: early => some (rep, early)
  | _ :: earlier => verdict earlier

@[simp]
theorem trials_cons (what : Obs) (h : List Obs) :
    trials (what :: h) =
      match what with
      | .attempt target result => (target, result.fate) :: trials h
      | .completed error => settled error (trials h)
      | _ => trials h := by
  cases what <;> rfl

@[simp]
theorem verdict_cons (what : Obs) (h : List Obs) :
    verdict (what :: h) =
      match what with
      | .replied rep _ => some (rep, h)
      | _ => verdict h := by
  cases what <;> rfl

theorem trials_of_grows {h h' : List Obs}
    (grows : Grows (fun what => what.isNetwork = false) h h') :
    trials h' = trials h ∧ resolution h' = resolution h ∧
      h'.find? Obs.isNetwork = h.find? Obs.isNetwork := by
  rcases grows with ⟨marks, rfl, quiet⟩
  induction marks with
  | nil => exact ⟨rfl, rfl, rfl⟩
  | cons what marks ih =>
      simp only [List.forall_mem_cons] at quiet
      rcases quiet with ⟨silent, others⟩
      rcases ih others with ⟨tried, known, latest⟩
      refine ⟨?_, ?_, ?_⟩
      · rw [← tried]
        cases what <;> first | rfl | nomatch silent
      · rw [← known]
        cases what <;> first | rfl | nomatch silent
      · rw [← latest, List.cons_append, List.find?_cons, silent]

theorem verdict_of_grows {h h' : List Obs} (grows : Grows (fun what => what.isCalm = true) h h') :
    verdict h' = verdict h := by
  rcases grows with ⟨marks, rfl, calm⟩
  induction marks with
  | nil => rfl
  | cons what marks ih =>
      simp only [List.forall_mem_cons] at calm
      rcases calm with ⟨silent, others⟩
      rw [← ih others]
      cases what <;> first | rfl | nomatch silent

theorem Grows.trans {kind : Obs → Prop} {h h' h'' : List Obs} (first : Grows kind h h')
    (second : Grows kind h' h'') : Grows kind h h'' := by
  rcases first with ⟨marks, rfl, kinds⟩
  rcases second with ⟨later, rfl, kinds'⟩
  refine ⟨later ++ marks, (List.append_assoc ..).symm, fun what member => ?_⟩
  exact (List.mem_append.mp member).elim (kinds' what) (kinds what)

theorem Grows.mono {kind kind' : Obs → Prop} {h h' : List Obs} (grows : Grows kind h h')
    (weaker : ∀ what, kind what → kind' what) : Grows kind' h h' := by
  rcases grows with ⟨marks, grown, kinds⟩
  exact ⟨marks, grown, fun what member => weaker what (kinds what member)⟩

theorem verdict_eq_none {h : List Obs} (unreplied : Session.Unreplied (decisions h)) :
    verdict h = none := by
  induction h with
  | nil => rfl
  | cons what h ih =>
      cases what with
      | replied rep reply => exact absurd (by simp) (unreplied rep reply)
      | _ =>
          refine ih fun rep reply member => unreplied rep reply ?_
          simp [member]

theorem verdict_of_decided {h ds : List Obs} {rep : UInt8} {reply : List UInt8}
    (decided : decisions h = .replied rep reply :: ds) :
    ∃ early, verdict h = some (rep, early) := by
  induction h with
  | nil => simp at decided
  | cons what h ih =>
      cases what with
      | replied rep' reply' =>
          simp only [decisions_cons, Obs.isDecision, if_true, List.cons.injEq, Obs.replied.injEq]
            at decided
          exact ⟨h, by rw [verdict_cons, decided.1.1]⟩
      | chose | validated => simp at decided
      | _ => exact ih (by simpa using decided)

/-- Without a question to the network nothing was tried and no name resolved. -/
theorem untried_of_unasked {h : List Obs} (unasked : h.find? Obs.isNetwork = none) :
    trials h = [] ∧ resolution h = [] := by
  have grows : Grows (fun what => what.isNetwork = false) [] h :=
    ⟨h, (List.append_nil h).symm, fun what member => by
      simpa using List.find?_eq_none.mp unasked what member⟩
  exact ⟨(trials_of_grows grows).1, (trials_of_grows grows).2.1⟩

theorem trials_eq_nil {h : List Obs} (unasked : h.find? Obs.isNetwork = none) : trials h = [] :=
  (untried_of_unasked unasked).1

theorem exists_trial {h : List Obs} {target : Sockaddr} {result : AttemptResult}
    (latest : h.find? Obs.isNetwork = some (.attempt target result)) :
    ∃ before, trials h = (target, result.fate) :: before := by
  induction h with
  | nil => simp at latest
  | cons what h ih =>
      rw [List.find?_cons] at latest
      cases what <;> simp only [Obs.isNetwork] at latest <;> simp_all

/-- The latest trial has failed if the latest answer of the network says so. -/
theorem failed_of_latest {h : List Obs} {trial : Trial} {others : List Trial}
    (tried : trials h = trial :: others)
    (failed : (∃ target error, h.find? Obs.isNetwork = some (.attempt target (.failed error))) ∨
      ∃ error, h.find? Obs.isNetwork = some (.completed (some error))) : trial.Failed := by
  induction h with
  | nil => simp [trials] at tried
  | cons what h ih =>
      rw [List.find?_cons] at failed
      cases what with
      | attempt target result =>
          simp only [Obs.isNetwork, trials_cons, List.cons.injEq] at failed tried
          rcases tried with ⟨rfl, -⟩
          rcases failed with ⟨_, error, same⟩ | ⟨_, same⟩ <;> cases same
          exact ⟨error, rfl⟩
      | completed report =>
          simp only [Obs.isNetwork, trials_cons] at failed tried
          rcases failed with ⟨_, _, same⟩ | ⟨error, same⟩ <;> cases same
          cases earlier : trials h with
          | nil => simp [earlier, settled] at tried
          | cons first _ =>
              rw [earlier, settled, List.cons.injEq] at tried
              exact ⟨error, by rw [← tried.1]; rfl⟩
      | lookup | resolved =>
          simp [Obs.isNetwork] at failed
      | _ => exact ih tried failed

end History

namespace Session

open History

variable {s s' : Session}

/-- What the client sent before its request: the greeting and, where they were asked for, the
credentials. -/
inductive Preamble (h : List Obs) : List UInt8 → Prop where
  | noauth (store : Users) (greeting methods : List UInt8)
      (decided : decisions h = [.chose SOCKS5_METHOD_NOAUTH store])
      (greeted : IsGreeting greeting methods) : Preamble h greeting
  | userpass (before store : Users) (greeting methods message user password : List UInt8)
      (decided : decisions h =
        [.validated SOCKS5_AUTH_OK store, .chose SOCKS5_METHOD_USERPASS before])
      (greeted : IsGreeting greeting methods) (credentials : IsCredentials message user password) :
      Preamble h (greeting ++ message)

/-- The request was parsed from `stream`, all that was received after the preamble. -/
structure Heard (h : List Obs) (request : Socks5Request) (lead stream : List UInt8) : Prop where
  preamble : Preamble h lead
  received : received h = lead ++ stream
  parsed :
    (Socks5Request.consumer.consume (requestParserInit Socks5Request.zero) stream).1 = request

theorem Heard.grow {h h' : List Obs} {request : Socks5Request} {lead stream : List UInt8}
    (heard : Heard h request lead stream) (decided : decisions h' = decisions h)
    (silent : History.received h' = History.received h) : Heard h' request lead stream := by
  refine ⟨?_, silent.trans heard.received, heard.parsed⟩
  cases heard.preamble with
  | noauth store greeting methods chosen greeted =>
      exact .noauth store _ methods (decided.trans chosen) greeted
  | userpass before store greeting methods message user password chosen greeted credentials =>
      exact .userpass before store greeting methods message user password (decided.trans chosen)
        greeted credentials

theorem Admitted.heard {input : List UInt8} (admitted : s.Admitted (decisions s.hist) input)
    (parsed : (Socks5Request.consumer.consume (requestParserInit Socks5Request.zero) input).1 =
      s.request) : ∃ lead, Heard s.hist s.request lead input := by
  generalize decided : decisions s.hist = ds at admitted
  cases admitted with
  | noauth store input greeted complete =>
      rcases greeted.split complete with ⟨greeting, methods, stream, shape, -⟩
      exact ⟨greeting, .noauth store greeting methods decided shape, stream, parsed⟩
  | userpass before store middle input greeted complete offered method identified finished =>
      rcases greeted.split complete with ⟨greeting, methods, stream, shape, -⟩
      rcases identified.split finished with ⟨message, rfl, credentials⟩
      exact ⟨greeting ++ message, .userpass before store greeting methods message _ _ decided shape
        credentials, by rw [stream, List.append_assoc], parsed⟩

theorem Unanswered.heard (unanswered : s.Unanswered) :
    ∃ lead stream, Heard s.hist s.request lead stream := by
  rcases unanswered with ⟨-, stopped, -, input, admitted, asked⟩
  have final := Socks5Request.consumer.consume_final (show _ = true from stopped) s.unread
  rcases admitted.heard (congrArg Prod.fst (asked.trans final)) with ⟨lead, heard⟩
  exact ⟨lead, input, heard⟩

/-- Why the request was answered as it was: what had happened until then, and the candidates that
were left. -/
inductive Grounds (early : List Obs) (request : Socks5Request) (untried : List Sockaddr) :
    UInt8 → Prop where
  | malformed (invalid : request.state = .error) (idle : trials early = []) :
      Grounds early request untried SOCKS5_REP_GENERAL_FAILURE
  | unsupported (complete : request.state = .done) (cmd : request.cmd ≠ SOCKS5_CMD_CONNECT)
      (idle : trials early = []) : Grounds early request untried SOCKS5_REP_CMD_NOT_SUPPORTED
  | unresolved (connects : request.Connects) (idle : trials early = [])
      (unknown : candidates early request = []) :
      Grounds early request untried SOCKS5_REP_GENERAL_FAILURE
  | granted (connects : request.Connects) (target : Sockaddr) (fails : List Trial)
      (tried : trials early = (target, .succeeded) :: fails) :
      Grounds early request untried SOCKS5_REP_SUCCESS
  | unnamed (connects : request.Connects) (target : Sockaddr) (fails : List Trial)
      (tried : trials early = (target, .succeeded) :: fails) (name : Option Sockaddr)
      (told : .named name ∈ early) (useless : name.bind (addrReply SOCKS5_REP_SUCCESS) = none) :
      Grounds early request untried SOCKS5_REP_GENERAL_FAILURE
  | unusable (connects : request.Connects) (target : Sockaddr) (fails : List Trial)
      (tried : trials early = (target, .unusable) :: fails) :
      Grounds early request untried SOCKS5_REP_GENERAL_FAILURE
  | exhausted (connects : request.Connects) (target : Sockaddr) (error : Errno) (fails : List Trial)
      (tried : trials early = (target, .failed error) :: fails) (all : untried = []) :
      Grounds early request untried (repFromErrno (some error))
  | expired (connects : request.Connects) (target : Sockaddr) (fails : List Trial)
      (tried : trials early = (target, .pending) :: fails) (late : .timedOut ∈ early) :
      Grounds early request untried SOCKS5_REP_TTL_EXPIRED

/-- The reply that was given, if any, has its cause in the history before it. -/
def Explained (s : Session) : Prop :=
  ∀ rep early, verdict s.hist = some (rep, early) →
    (trials s.hist = trials early ∧ resolution s.hist = resolution early) ∧
      (∃ lead stream, Heard early s.request lead stream) ∧ Grounds early s.request s.targets rep

/-- The candidates were tried in order, and all but the latest have failed. -/
structure Tried (s : Session) : Prop where
  connects : trials s.hist ≠ [] → s.request.Connects
  begun : s.Failed → trials s.hist ≠ []
  ordered : trials s.hist ≠ [] ∨ s.targets ≠ [] →
    ((trials s.hist).map Prod.fst).reverse ++ s.targets = candidates s.hist s.request
  passed : ∀ trial ∈ (trials s.hist).tail, trial.Failed
  unknown : s.latest = some (.lookup true) → trials s.hist = [] ∧ s.targets = [] ∧ ¬s.Literal ∧
    resolution s.hist = []
  pending : ∀ target fails, trials s.hist = (target, .pending) :: fails → s.Pending
  error : ∀ target error fails, trials s.hist = (target, .failed error) :: fails →
    s.lastErrno = some error

/-- The search for a candidate that can be reached goes on until there is a reply. -/
structure Search (s : Session) : Prop extends Tried s where
  undecided : verdict s.hist = none → ∀ trial fails, trials s.hist = trial :: fails →
    trial.2 = .pending ∨ trial.Failed
  explained : s.Explained

theorem search_of_untried (untried : trials s.hist = [])
    (targets : s.targets = [] ∨ s.targets = candidates s.hist s.request)
    (asked : s.latest = some (.lookup true) → s.targets = [] ∧ ¬s.Literal ∧ resolution s.hist = [])
    (unbegun : ¬s.Failed) (unanswered : verdict s.hist = none) : s.Search where
  connects := by simp [untried]
  begun failed := absurd failed unbegun
  ordered some := by
    rcases some with tried | known
    · exact absurd untried tried
    · simpa [untried] using targets.resolve_left known
  passed := by simp [untried]
  unknown waiting := ⟨untried, asked waiting⟩
  pending := by simp [untried]
  error := by simp [untried]
  undecided := by simp [untried]
  explained := by simp [Explained, unanswered]

theorem Tried.quiet (tried : s.Tried)
    (grows : Grows (fun what => what.isNetwork = false) s.hist s'.hist)
    (request : s'.request = s.request) (targets : s'.targets = s.targets)
    (lastErrno : s'.lastErrno = s.lastErrno) : s'.Tried := by
  rcases trials_of_grows grows with ⟨same, known, latest⟩
  have asked : s'.latest = s.latest := latest
  rcases tried with ⟨connects, begun, ordered, passed, unknown, pending, error⟩
  refine ⟨?_, ?_, ?_, ?_, ?_, ?_, ?_⟩
  · rwa [same, request]
  · rwa [same, Failed, asked]
  · rw [same, targets, request, candidates, known]
    exact ordered
  · rwa [same]
  · rwa [asked, same, targets, Literal, request, known]
  · rwa [same, Pending, asked]
  · rwa [same, lastErrno]

theorem Search.calm (search : s.Search)
    (grows : Grows (fun what => what.isCalm = true) s.hist s'.hist)
    (request : s'.request = s.request) (targets : s'.targets = s.targets)
    (lastErrno : s'.lastErrno = s.lastErrno) : s'.Search := by
  have quiet : Grows (fun what => what.isNetwork = false) s.hist s'.hist :=
    grows.mono fun what calm => by cases what <;> first | rfl | nomatch calm
  rcases trials_of_grows quiet with ⟨same, known, -⟩
  have verdict := verdict_of_grows grows
  refine ⟨search.toTried.quiet quiet request targets lastErrno, ?_, ?_⟩
  · rw [verdict, same]
    exact search.undecided
  · rw [Explained, verdict, same, known, request, targets]
    exact search.explained

theorem Grounds.grow {h h' : List Obs} {request : Socks5Request} {untried : List Sockaddr}
    {rep : UInt8} (answer : Grounds h request untried rep)
    (grows : Grows (fun what => what.isNetwork = false) h h') : Grounds h' request untried rep := by
  rcases trials_of_grows grows with ⟨same, resolved, -⟩
  have known := grows.suffix.subset
  cases answer with
  | malformed invalid idle => exact .malformed invalid (same.trans idle)
  | unsupported complete cmd idle => exact .unsupported complete cmd (same.trans idle)
  | unresolved connects idle unknown =>
      refine .unresolved connects (same.trans idle) ?_
      rwa [candidates, resolved]
  | granted connects target fails tried => exact .granted connects target fails (same.trans tried)
  | unnamed connects target fails tried name told useless =>
      exact .unnamed connects target fails (same.trans tried) name (known told) useless
  | unusable connects target fails tried => exact .unusable connects target fails (same.trans tried)
  | exhausted connects target error fails tried all =>
      exact .exhausted connects target error fails (same.trans tried) all
  | expired connects target fails tried late =>
      exact .expired connects target fails (same.trans tried) (known late)

theorem Tried.reply {rep : UInt8} {early : List Obs} (tried : s.Tried) (unanswered : s.Unanswered)
    (answer : Grounds s.hist s.request s.targets rep)
    (before : early = s.hist ∨ ∃ user dest result, early = .logged user dest result :: s.hist)
    (after : Grows (fun what => what.isNetwork = false) early s'.hist)
    (replied : verdict s'.hist = some (rep, early))
    (request : s'.request = s.request) (targets : s'.targets = s.targets)
    (lastErrno : s'.lastErrno = s.lastErrno) : s'.Search := by
  have recorded : Grows (fun what => what.isNetwork = false) s.hist early := by
    rcases before with rfl | ⟨user, dest, result, rfl⟩
    · exact .refl
    · exact Grows.refl.cons rfl
  refine ⟨tried.quiet (recorded.trans after) request targets lastErrno, by simp [replied], ?_⟩
  intro rep' early' same
  rw [replied, Option.some.injEq, Prod.mk.injEq] at same
  rcases same with ⟨rfl, rfl⟩
  rw [request, targets]
  refine ⟨⟨(trials_of_grows after).1, (trials_of_grows after).2.1⟩, ?_, answer.grow recorded⟩
  rcases unanswered.heard with ⟨lead, stream, heard⟩
  refine ⟨lead, stream, heard.grow ?_ ?_⟩
  · rcases before with rfl | ⟨user, dest, result, rfl⟩ <;> simp
  · rcases before with rfl | ⟨user, dest, result, rfl⟩ <;> simp

theorem verdict_enter (s : Session) (next : State) :
    verdict (s.enter next).hist = verdict s.hist :=
  verdict_of_grows (Grows.enter .refl rfl fun _ _ => rfl)

theorem request_enter {next : State} (other : next ≠ .reqRead) :
    (s.enter next).request = s.request := by
  unfold enter
  split
  · rfl
  · cases next with
    | reqRead => exact absurd rfl other
    | _ => rfl

@[simp]
theorem lastErrno_enter (s : Session) (next : State) :
    (s.enter next).lastErrno = s.lastErrno := by
  unfold enter
  split
  · rfl
  · cases next <;> rfl

theorem Tried.fail {rep : UInt8} (tried : s.Tried) (unanswered : s.Unanswered)
    (answer : Grounds s.hist s.request s.targets rep) : (s.fail rep).Search := by
  have recorded : (s.recordFailure rep).hist = s.hist ∨ ∃ user dest result,
      (s.recordFailure rep).hist = .logged user dest result :: s.hist := by
    unfold recordFailure failureRecord
    split
    · exact .inr ⟨_, _, _, rfl⟩
    · exact .inl rfl
  refine tried.reply unanswered answer recorded ?_ ?_ ?_ ?_ ?_
  · exact Grows.enter (Grows.refl.cons rfl) rfl (by simp)
  · rw [Session.fail, verdict_enter]
    rfl
  · exact request_enter (by decide)
  · simp [Session.fail, Session.answer, recordFailure]
  · simp [Session.fail, Session.answer, recordFailure]

/-- A candidate that was reached is reported, unless its socket has no name that can be told. -/
theorem Tried.succeed {target : Sockaddr} {fails : List Trial} (tried : s.Tried)
    (unanswered : s.Unanswered) (connects : s.request.Connects)
    (reached : trials s.hist = (target, .succeeded) :: fails) (status : SocketStatus)
    (name : Option Sockaddr) : (s.succeed status name).Search := by
  have asked : Grows (fun what => what.isNetwork = false) s.hist
      ((s.note (.established status)).note (.named name)).hist :=
    ⟨[.named name, .established status], rfl, by simp [Obs.isNetwork]⟩
  have tried' : ((s.note (.established status)).note (.named name)).Tried :=
    tried.quiet asked rfl rfl rfl
  have reached' : trials ((s.note (.established status)).note (.named name)).hist =
      (target, .succeeded) :: fails := (trials_of_grows asked).1.trans reached
  have unanswered' := (unanswered.note (.established status) rfl rfl).note (.named name) rfl rfl
  unfold Session.succeed
  cases told : name.bind (addrReply SOCKS5_REP_SUCCESS) with
  | none =>
      exact tried'.fail unanswered' (.unnamed connects target fails reached' name (by simp) told)
  | some reply =>
      refine tried'.reply unanswered' (.granted connects target fails reached') (.inl rfl) ?_ ?_ ?_
        ?_ ?_
      · exact Grows.enter ⟨[_, _], rfl, by simp [Obs.isNetwork]⟩ rfl (by simp)
      · rw [verdict_enter]
        simp [record, Session.answer]
      · exact request_enter (by decide)
      · simp [record, Session.answer]
      · simp [record, Session.answer]

/-- Where the next candidate may be tried, all the earlier ones have failed. -/
theorem Search.failed_of_ready (search : s.Search) (unanswered : verdict s.hist = none)
    (ready : s.Ready) : ∀ trial ∈ trials s.hist, trial.Failed := by
  cases tried : trials s.hist with
  | nil => simp
  | cons trial fails =>
      have passed := search.passed
      rw [tried, List.tail_cons] at passed
      refine List.forall_mem_cons.mpr ⟨?_, passed⟩
      rcases ready with failed | ⟨-, -, settled⟩
      · exact failed_of_latest tried failed
      · have undecided := search.undecided unanswered trial fails tried
        refine undecided.resolve_left fun waiting => settled ?_
        exact search.pending trial.1 fails (by rw [tried, ← waiting])

theorem Search.attempt {target : Sockaddr} {rest : List Sockaddr} {result : AttemptResult}
    (s' : Session) (search : s.Search) (unanswered : verdict s.hist = none)
    (connects : s.request.Connects) (ready : s.Ready) (targets : s.targets = target :: rest)
    (hist : s'.hist = .attempt target result :: s.hist) (request : s'.request = s.request)
    (left : s'.targets = rest)
    (noted : ∀ error, result = .failed error → s'.lastErrno = some error) :
    s'.Tried ∧ trials s'.hist = (target, result.fate) :: trials s.hist := by
  have failed := search.failed_of_ready unanswered ready
  have ordered := search.ordered (.inr (by simp [targets]))
  have tried : trials s'.hist = (target, result.fate) :: trials s.hist := by rw [hist, trials_cons]
  have latest : s'.latest = some (.attempt target result) := latest_of_network rfl hist
  refine ⟨⟨fun _ => request ▸ connects, by simp [tried], fun _ => ?_, by simpa [tried] using failed,
    by simp [latest], ?_, ?_⟩, tried⟩
  · rw [targets] at ordered
    rw [tried, left, request, hist]
    simpa [candidates, resolution] using ordered
  · intro target' fails same
    rw [tried, List.cons.injEq, Prod.mk.injEq] at same
    cases result with
    | pending => exact ⟨target, latest⟩
    | _ => simp [AttemptResult.fate] at same
  · intro target' error fails same
    rw [tried, List.cons.injEq, Prod.mk.injEq] at same
    cases result with
    | failed found =>
        simp only [AttemptResult.fate, Fate.failed.injEq] at same
        exact noted error (by rw [same.1.2])
    | _ => simp [AttemptResult.fate] at same

theorem Search.completed {report : Option Errno} (s' : Session) (search : s.Search)
    (pending : s.Pending)
    (hist : s'.hist = .completed report :: s.hist) (request : s'.request = s.request)
    (targets : s'.targets = s.targets)
    (noted : ∀ error, report = some error → s'.lastErrno = some error) :
    s'.Tried ∧ ∃ target fails, trials s'.hist = (target, .reported report) :: fails := by
  rcases pending with ⟨target, latest⟩
  rcases exists_trial latest with ⟨fails, waiting⟩
  have tried : trials s'.hist = (target, .reported report) :: fails := by
    rw [hist, trials_cons]
    simp only [waiting, settled]
  have ordered := search.ordered (.inl (by simp [waiting]))
  have passed := search.passed
  rw [waiting] at ordered passed
  refine ⟨⟨fun _ => ?_, by simp [tried], fun _ => ?_, by simpa [tried] using passed, ?_, ?_, ?_⟩,
    target, fails, tried⟩
  · exact request ▸ search.connects (by simp [waiting])
  · rw [tried, targets, request, hist]
    simpa [candidates, resolution] using ordered
  · simp [latest_of_network rfl hist]
  · intro target' fails' same
    rw [tried, List.cons.injEq, Prod.mk.injEq] at same
    cases report <;> simp [Fate.reported] at same
  · intro target' error fails' same
    rw [tried, List.cons.injEq, Prod.mk.injEq] at same
    cases report with
    | none => simp [Fate.reported] at same
    | some found =>
        simp only [Fate.reported, Fate.failed.injEq] at same
        exact noted error (by rw [same.1.2])

/-- When no candidate is left the reply tells the error of the last one. -/
theorem Tried.answer_exhausted (tried : s.Tried) (connects : s.request.Connects)
    (targets : s.targets = []) (failed : s.Failed) :
    Grounds s.hist s.request s.targets (repFromErrno s.lastErrno) := by
  rcases List.exists_cons_of_ne_nil (tried.begun failed) with ⟨⟨target, fate⟩, fails, latest⟩
  rcases failed_of_latest latest failed with ⟨error, rfl⟩
  rw [tried.error target error fails latest]
  exact .exhausted connects target error fails latest targets

/-- A candidate that failed, or is still waited for, leaves the search undecided. -/
theorem Tried.search {trial : Trial} {fails : List Trial} (tried : s.Tried)
    (latest : trials s.hist = trial :: fails) (open_ : trial.2 = .pending ∨ trial.Failed)
    (unanswered : verdict s.hist = none) : s.Search := by
  refine ⟨tried, fun _ trial' fails' same => ?_, by simp [Explained, unanswered]⟩
  rw [latest, List.cons.injEq] at same
  exact same.1 ▸ open_

theorem Stage.verdict_eq_none (stage : s.Stage) (connecting : s.Connecting) :
    verdict s.hist = none :=
  History.verdict_eq_none (stage.unanswered connecting).unreplied

theorem Search.enter {next : State} (search : s.Search) (other : next ≠ .reqRead) :
    (s.enter next).Search :=
  search.calm (Grows.enter .refl rfl fun _ _ => rfl) (request_enter other) (targets_enter s next)
    (lastErrno_enter s next)

theorem Search.note {what : Obs} (search : s.Search) (calm : what.isCalm = true) :
    (s.note what).Search :=
  search.calm (Grows.refl.cons calm) rfl rfl rfl

/-- The request is read only once the client is admitted, when nothing was tried. -/
theorem search_enter_reqRead (asking : s.Asking) (stage : s.Stage)
    (phase : s.phase = some .negWrite ∨ s.phase = some .authWrite) : (s.enter .reqRead).Search := by
  have unasked : s.latest = none ∧ s.targets = [] := by
    rcases phase with phase | phase <;> simpa only [Asking, phase] using asking
  have silent : (s.enter .reqRead).latest = none := (latest_enter s .reqRead).trans unasked.1
  refine search_of_untried (trials_eq_nil silent) (.inl ?_) (by simp [silent])
    (by simp [Failed, silent]) ?_
  · rw [targets_enter, unasked.2]
  · rw [verdict_enter]
    refine History.verdict_eq_none (stage.unreplied ?_)
    tauto

theorem Search.parseRequest (search : s.Search) (asking : s.Asking) (stage : s.Stage)
    (phase : s.phase = some .reqRead) (unread : List UInt8) :
    ({ s with
      request := (Socks5Request.consumer.consume s.request s.unread).1
      unread := unread } : Session).Search := by
  by_cases stopped : s.request.stopped = true
  · have same := Socks5Request.consumer.consume_final stopped s.unread
    rw [same]
    exact search.calm .refl rfl rfl rfl
  · simp only [Asking, phase] at asking
    have untried := asking.1 (by simpa using stopped)
    have targets : s.targets = [] := by
      rcases asking.2 untried with none | ⟨complete, -⟩
      · exact none
      · simp [Socks5Request.stopped, complete] at stopped
    have silent : ∀ unread request, ({ s with request, unread } : Session).latest = none :=
      fun _ _ => untried
    exact search_of_untried (trials_eq_nil untried) (.inl targets) (by simp [silent])
      (by simp [Failed, silent]) (History.verdict_eq_none (stage.unreplied (by tauto)))

theorem Asking.targets_eq_nil (asking : s.Asking) (requested : s.Requested) (name : ¬s.Literal)
    (untried : s.latest = none) : s.targets = [] := by
  simp only [Asking, requested.1] at asking
  rcases asking.2 untried with none | ⟨-, address, -⟩
  · exact none
  · exact absurd address name

/-- Every step keeps to the order of the candidates, and every reply has its cause. -/
theorem Search.step {trusted : Prop} (step : Step trusted s s') (stage : s.Stage)
    (asking : s.Asking) (search : s.Search) : s'.Search := by
  cases step with
  | start fresh => exact search.enter (by decide)
  | parseNeg | parseAuth => exact search.calm .refl rfl rfl rfl
  | receive | send | expire | relayReceive | relayFetch | relayForward | relayStall
  | relayClientEof | relayOriginEof | relayShutOrigin | relayShutClient =>
      exact search.calm (Grows.refl.cons rfl) rfl rfl rfl
  | parseRequest phase => exact search.parseRequest asking stage phase _
  | clientGone | ioError | stall => exact (search.note rfl).enter (by decide)
  | badGreeting | badCredentials | methodRefused | authRefused | methodUserpass | openRelay
  | refused | relayDone => exact search.enter (by decide)
  | choose | validate =>
      exact Search.enter (search.calm (Grows.refl.cons rfl) rfl rfl rfl) (by decide)
  | methodNoauth phase => exact search_enter_reqRead asking stage (.inl phase)
  | authAccepted phase => exact search_enter_reqRead asking stage (.inr phase)
  -- A trial needs a complete CONNECT request, so a request refused here has had none.
  | badRequest phase invalid =>
      have untried : trials s.hist = [] := by
        by_contra tried
        simp [(search.connects tried).1] at invalid
      simp only [Stage, phase] at stage
      exact search.toTried.fail
        ⟨stage.1, by simp [Socks5Request.stopped, invalid], by simp [phase], stage.2⟩
        (.malformed invalid untried)
  | unsupported phase complete cmd =>
      have untried : trials s.hist = [] := by
        by_contra tried
        exact cmd (search.connects tried).2
      simp only [Stage, phase] at stage
      exact search.toTried.fail
        ⟨stage.1, by simp [Socks5Request.stopped, complete], by simp [phase], stage.2⟩
        (.unsupported complete cmd untried)
  | literal requested address untried =>
      have silent : ∀ targets, ({ s with targets } : Session).latest = none := fun _ => untried
      refine search_of_untried (trials_eq_nil untried) (.inr ?_) (by simp [silent])
        (by simp [Failed, silent]) (stage.verdict_eq_none requested.connecting)
      exact (if_pos address).symm
  | lookupRefused requested name untried =>
      rcases untried_of_unasked untried with ⟨idle, unresolved⟩
      have tried : (s.note (.lookup false)).Search :=
        search_of_untried idle (.inl (asking.targets_eq_nil requested name untried))
          (by simp [latest, Obs.isNetwork]) (by simp [Failed, latest, Obs.isNetwork])
          (stage.verdict_eq_none requested.connecting)
      exact tried.toTried.fail ((stage.unanswered requested.connecting).note _ rfl rfl)
        (.unresolved ⟨requested.2.1, requested.2.2⟩ idle ((if_neg name).trans unresolved))
  | lookupQueued requested name untried =>
      have targets := asking.targets_eq_nil requested name untried
      rcases untried_of_unasked untried with ⟨idle, unresolved⟩
      have waiting : (s.note (.lookup true)).Search :=
        search_of_untried (by simpa using idle) (.inl targets)
          (fun _ => ⟨targets, name, unresolved⟩) (by simp [Failed, latest, Obs.isNetwork])
          (stage.verdict_eq_none requested.connecting)
      exact waiting.enter (by decide)
  | resolvedNothing phase asked =>
      rcases search.unknown asked with ⟨idle, targets, name, -⟩
      have resolved : (s.note (.resolved [])).Search :=
        search_of_untried idle (.inl targets) (by simp [latest, Obs.isNetwork])
          (by simp [Failed, latest, Obs.isNetwork]) (stage.verdict_eq_none (.inr (.inl phase)))
      exact resolved.toTried.fail ((stage.unanswered (.inr (.inl phase))).note _ rfl rfl)
        (.unresolved (stage.requested (.inr (.inl phase))) idle (if_neg name))
  | resolved addresses phase some asked =>
      rcases search.unknown asked with ⟨idle, -, name, -⟩
      refine search_of_untried idle (.inr ?_) (by simp [latest, Obs.isNetwork])
        (by simp [Failed, latest, Obs.isNetwork]) (stage.verdict_eq_none (.inr (.inl phase)))
      exact (if_neg name).symm
  | attemptFails target rest error connecting targets ready =>
      have unanswered := stage.verdict_eq_none connecting
      rcases search.attempt { s.note (.attempt target (.failed error)) with
        targets := rest
        lastErrno := some error } unanswered
        (stage.requested connecting) ready targets rfl rfl rfl (by simp) with ⟨tried, latest⟩
      exact tried.search latest (.inr ⟨error, rfl⟩) unanswered
  | attemptUnusable target rest connecting targets ready =>
      have unanswered := stage.verdict_eq_none connecting
      rcases search.attempt { s.note (.attempt target .unregistrable) with targets := rest }
        unanswered (stage.requested connecting) ready targets rfl rfl rfl (by simp) with
        ⟨tried, latest⟩
      exact tried.fail (((stage.unanswered connecting).note _ rfl rfl).retarget rest)
        (.unusable (stage.requested connecting) target _ latest)
  | attemptPends target rest connecting targets ready =>
      have unanswered := stage.verdict_eq_none connecting
      rcases search.attempt { s.note (.attempt target .pending) with targets := rest } unanswered
        (stage.requested connecting) ready targets rfl rfl rfl (by simp) with ⟨tried, latest⟩
      exact (tried.search latest (.inl rfl) unanswered).enter (by decide)
  | attemptSucceeds target rest status name connecting targets sound ready =>
      have unanswered := stage.verdict_eq_none connecting
      rcases search.attempt { s.note (.attempt target .established) with targets := rest }
        unanswered (stage.requested connecting) ready targets rfl rfl rfl (by simp) with
        ⟨tried, latest⟩
      exact tried.succeed (((stage.unanswered connecting).note _ rfl rfl).retarget rest)
        (stage.requested connecting) latest status name
  | exhausted connecting targets failed =>
      exact search.toTried.fail (stage.unanswered connecting)
        (search.toTried.answer_exhausted (stage.requested connecting) targets failed)
  | completes status name phase sound pending =>
      rcases search.completed (s.note (.completed none)) pending rfl rfl rfl (by simp) with
        ⟨tried, target, fails, latest⟩
      exact tried.succeed ((stage.unanswered (.inr (.inr phase))).note _ rfl rfl)
        (stage.requested (.inr (.inr phase))) latest status name
  | completesFailing error phase pending =>
      rcases search.completed { s.note (.completed (some error)) with lastErrno := some error }
        pending rfl rfl rfl (by simp) with ⟨tried, target, fails, latest⟩
      exact tried.search latest (.inr ⟨error, rfl⟩) (stage.verdict_eq_none (.inr (.inr phase)))
  | expireConnecting phase pending =>
      rcases pending with ⟨target, latest⟩
      rcases exists_trial latest with ⟨fails, waiting⟩
      exact (search.note rfl).toTried.fail ((stage.unanswered (.inr (.inr phase))).note _ rfl rfl)
        (.expired (stage.requested (.inr (.inr phase))) target fails waiting (by simp))
  | expireResolving phase asked =>
      rcases search.unknown asked with ⟨idle, -, name, unresolved⟩
      exact (search.note rfl).toTried.fail ((stage.unanswered (.inr (.inl phase))).note _ rfl rfl)
        (.unresolved (stage.requested (.inr (.inl phase))) idle ((if_neg name).trans unresolved))

theorem Reachable.search {trusted : Prop} (reachable : s.Reachable trusted) : s.Search := by
  induction reachable with
  | refl =>
      exact search_of_untried rfl (.inl rfl) (by simp [latest, initial])
        (by simp [Failed, latest, initial]) rfl
  | tail earlier step ih =>
      exact ih.step step (Reachable.invariant earlier).2 (Reachable.asking earlier)

theorem Stage.answered {rep : UInt8} {early : List Obs} (stage : s.Stage) (going : ¬s.Ended)
    (answered : verdict s.hist = some (rep, early)) :
    s.phase = some .reqWrite ∧ (s.connected = true ↔ rep = SOCKS5_REP_SUCCESS) ∨
      s.phase = some .relay ∧ rep = SOCKS5_REP_SUCCESS := by
  have replied : ¬Unreplied (decisions s.hist) := fun unreplied => by
    simp [History.verdict_eq_none unreplied] at answered
  have told : ∀ {rep' reply ds}, decisions s.hist = .replied rep' reply :: ds → rep' = rep := by
    intro rep' reply ds decided
    rcases verdict_of_decided decided with ⟨early', found⟩
    rw [answered, Option.some.injEq, Prod.mk.injEq] at found
    exact found.1.symm
  cases phase : s.phase with
  | none => exact absurd (stage.unreplied (by tauto)) replied
  | some state =>
      cases state with
      | negRead | negWrite | authRead | authWrite | reqRead =>
          exact absurd (stage.unreplied (by tauto)) replied
      | reqResolve => exact absurd (stage.unanswered (.inr (.inl phase))).unreplied replied
      | reqConnecting => exact absurd (stage.unanswered (.inr (.inr phase))).unreplied replied
      | reqWrite =>
          simp only [Stage, phase] at stage
          rcases stage with ⟨-, ds, input, rep', reply, -, -, decided, -, granted⟩
          exact .inl ⟨rfl, told decided ▸ granted⟩
      | relay =>
          simp only [Stage, phase] at stage
          rcases stage with ⟨-, ds, input, reply, -, -, decided, -⟩
          exact .inr ⟨rfl, (told decided).symm⟩
      | done => exact absurd (.inl phase) going
      | error => exact absurd (.inr phase) going

/-- A CONNECT with candidates is answered only after one of them was tried. -/
theorem Grounds.tried {early : List Obs} {request : Socks5Request} {untried : List Sockaddr}
    {rep : UInt8} (answer : Grounds early request untried rep) (connects : request.Connects)
    (known : candidates early request ≠ []) : trials early ≠ [] := by
  cases answer with
  | malformed invalid => simp [connects.1] at invalid
  | unsupported _ cmd => exact absurd connects.2 cmd
  | unresolved _ _ unknown => exact absurd unknown known
  | granted _ _ _ tried | unnamed _ _ _ tried | unusable _ _ _ tried | exhausted _ _ _ _ tried
  | expired _ _ _ tried => simp [tried]

/-- Whether a socket can be connected is all that mattered for the reply: nothing timed out, the
selector took the socket, and its name could be told. -/
structure Undisturbed (early : List Obs) : Prop where
  patient : .timedOut ∉ early
  usable : ∀ target fails, trials early ≠ (target, .unusable) :: fails
  named : ∀ name, .named name ∈ early → name.bind (addrReply SOCKS5_REP_SUCCESS) ≠ none

/-- Then the reply reports the first candidate that was reached, or the error of the last one. -/
theorem Grounds.of_undisturbed {early : List Obs} {request : Socks5Request}
    {untried : List Sockaddr} {rep : UInt8} (answer : Grounds early request untried rep)
    (undisturbed : Undisturbed early) (tried : trials early ≠ []) :
    (∃ target fails, trials early = (target, .succeeded) :: fails ∧ rep = SOCKS5_REP_SUCCESS) ∨
      ∃ target error fails, trials early = (target, .failed error) :: fails ∧ untried = [] ∧
        rep = repFromErrno (some error) := by
  cases answer with
  | malformed _ idle | unsupported _ _ idle | unresolved _ idle => exact absurd idle tried
  | granted _ target fails reached => exact .inl ⟨target, fails, reached, rfl⟩
  | unnamed _ _ _ _ name told useless => exact absurd useless (undisturbed.named name told)
  | unusable _ target fails refused => exact absurd refused (undisturbed.usable target fails)
  | exhausted _ target error fails failed all =>
      exact .inr ⟨target, error, fails, failed, all, rfl⟩
  | expired _ _ _ _ late => exact absurd late undisturbed.patient

end Session

end SocksProxy
