import SocksProxy.Session.Guarantees

/-!
# Access records of a session

Every reply to a request that was parsed comes with exactly one access record,
which tells the result the reply reports, the destination that was asked for and
the user who was admitted. No other step writes a record, and no step after the
reply changes what the record was made from.
-/

namespace SocksProxy

open History

/-- User, destination and result of an access record. -/
abbrev Record := List UInt8 × List UInt8 × List UInt8

namespace Session

variable {s : Session}

/-- The access records a history tells of, newest first. -/
def records (h : List Obs) : List Record :=
  h.filterMap fun
    | .logged user dest result => some (user, dest, result)
    | _ => none

/-- The record a decision calls for. -/
def dueRecord (method : UInt8) (auth : Socks5Auth) (request : Socks5Request) : Obs → Option Record
  | .replied rep _ =>
      if requestDone request then
        some (loggedUser method auth, formatRequestDst request, resultToken rep)
      else none
  | _ => none

/-- The records called for by the decisions taken so far. -/
def due (s : Session) : List Record :=
  (decisions s.hist).filterMap (dueRecord s.method s.auth s.request)

/-- The client was not asked who it is, or it gave the name and the password of a user. -/
def Vouched (s : Session) : Prop :=
  s.method = SOCKS5_METHOD_NOAUTH ∨
    (s.method = SOCKS5_METHOD_USERPASS ∧ ∃ store, .validated SOCKS5_AUTH_OK store ∈ s.hist ∧
      usersValidate store s.auth.user s.auth.password = true)

/-- No reply to a request is among the decisions. -/
def Unreplied (ds : List Obs) : Prop := ∀ rep reply, .replied rep reply ∉ ds

/-- The records are those that are due, and whoever got a reply was admitted. -/
structure Told (s : Session) : Prop where
  records : records s.hist = s.due
  vouched : ¬Unreplied (decisions s.hist) → s.Vouched

@[simp]
theorem records_cons (what : Obs) (h : List Obs) :
    records (what :: h) =
      match what with
      | .logged user dest result => (user, dest, result) :: records h
      | _ => records h := by
  cases what <;> rfl

theorem Unreplied.due (unreplied : Unreplied (decisions s.hist)) : s.due = [] := by
  refine List.filterMap_eq_nil_iff.mpr fun what decided => ?_
  cases what with
  | replied rep reply => exact absurd decided (unreplied rep reply)
  | _ => rfl

namespace Told

variable {s' : Session}

theorem unreplied (told : s.Told) (silent : Unreplied (decisions s.hist))
    (decided : Unreplied (decisions s'.hist))
    (same : Session.records s'.hist = Session.records s.hist) : s'.Told := by
  refine ⟨?_, fun replied => absurd decided replied⟩
  rw [same, told.records, silent.due, decided.due]

theorem of_eq (told : s.Told) (method : s'.method = s.method) (auth : s'.auth = s.auth)
    (request : s'.request = s.request) (decided : decisions s'.hist = decisions s.hist)
    (same : Session.records s'.hist = Session.records s.hist)
    (known : ∀ what ∈ s.hist, what ∈ s'.hist) : s'.Told := by
  refine ⟨?_, fun replied => ?_⟩
  · rw [same, told.records, due, due, decided, method, auth, request]
  · unfold Vouched
    rw [method, auth]
    rcases told.vouched (decided ▸ replied) with noauth | ⟨userpass, store, valid, password⟩
    · exact .inl noauth
    · exact .inr ⟨userpass, store, known _ valid, password⟩

theorem note (told : s.Told) {what : Obs} (plain : what.isDecision = false)
    (silent : ∀ user dest result, what ≠ .logged user dest result) : (s.note what).Told := by
  refine told.of_eq rfl rfl rfl ?_ ?_ (by simp +contextual)
  · simp only [Session.note, decisions_cons, plain, Bool.false_eq_true, if_false]
  · cases what <;> simp_all

end Told

/-- Moving on, to a phase that does not parse, changes nothing that is recorded. -/
theorem Told.enter (told : s.Told) {next : State} (writes : isReadState next = false) :
    (s.enter next).Told := by
  unfold Session.enter
  split
  · exact told
  · cases next with
    | negRead | authRead | reqRead => cases writes
    | _ =>
        exact told.of_eq rfl rfl rfl (by simp [arrive]) (by simp [arrive])
          (by simp +contextual [arrive])

theorem Admitted.unreplied {ds : List Obs} {input : List UInt8} (admitted : s.Admitted ds input) :
    Unreplied ds := by
  cases admitted <;> simp [Unreplied]

theorem Admitted.vouched {ds : List Obs} {input : List UInt8} (admitted : s.Admitted ds input)
    (known : ∀ what ∈ ds, what ∈ s.hist) : s.Vouched := by
  cases admitted with
  | noauth store input greeted complete offered unprotected method => exact .inl method
  | userpass before store middle input greeted complete offered method identified received valid
      status =>
      exact .inr ⟨method, store, known _ (by simp), valid⟩

theorem Unanswered.unreplied (unanswered : s.Unanswered) : Unreplied (decisions s.hist) := by
  rcases unanswered.admitted with ⟨input, admitted, -⟩
  exact admitted.unreplied

theorem Unanswered.vouched (unanswered : s.Unanswered) : s.Vouched := by
  rcases unanswered.admitted with ⟨input, admitted, -⟩
  exact admitted.vouched fun what decided => (List.mem_filter.mp decided).1

theorem Told.answered {s s' : Session} (told : s.Told) (unanswered : s.Unanswered) (rep : UInt8)
    (reply : List UInt8) (method : s'.method = s.method) (auth : s'.auth = s.auth)
    (request : s'.request = s.request)
    (decided : decisions s'.hist = .replied rep reply :: decisions s.hist)
    (recorded : Session.records s'.hist =
      (dueRecord s.method s.auth s.request (.replied rep reply)).toList ++ Session.records s.hist)
    (known : ∀ what ∈ s.hist, what ∈ s'.hist) : s'.Told := by
  have silent := unanswered.unreplied
  refine ⟨?_, fun _ => ?_⟩
  · rw [recorded, told.records, silent.due, due, decided, method, auth, request,
      List.filterMap_cons, ← due, silent.due]
    cases dueRecord s.method s.auth s.request (.replied rep reply) <;> rfl
  · rcases unanswered.vouched with noauth | ⟨userpass, store, valid, password⟩
    · exact .inl (method.trans noauth)
    · exact .inr ⟨method.trans userpass, store, known _ valid, auth ▸ password⟩

theorem Told.fail (told : s.Told) (unanswered : s.Unanswered) (rep : UInt8) :
    (s.fail rep).Told := by
  refine Told.enter ?_ rfl
  refine told.answered unanswered rep (nullReply rep SOCKS5_ATYP_IPV4) rfl rfl rfl ?_ ?_ ?_
  · unfold answer recordFailure failureRecord
    split <;> simp
  · unfold answer recordFailure failureRecord
    split <;> simp [dueRecord, *]
  · unfold answer recordFailure failureRecord
    split <;> simp +contextual

theorem Told.succeed (told : s.Told) (unanswered : s.Unanswered)
    (complete : s.request.state = .done) (status : SocketStatus) (name : Option Sockaddr) :
    (s.succeed status name).Told := by
  have asked := (unanswered.note (.established status) rfl rfl).note (.named name) rfl rfl
  have toldAsked : ((s.note (.established status)).note (.named name)).Told :=
    (told.note rfl (by simp)).note rfl (by simp)
  unfold Session.succeed
  split
  · exact toldAsked.fail asked _
  · next reply _ =>
      refine Told.enter ?_ rfl
      refine toldAsked.answered asked SOCKS5_REP_SUCCESS reply rfl rfl rfl ?_ ?_ ?_
      · simp [answer, record]
      · simp [answer, record, dueRecord, requestDone, complete, resultToken]
      · simp +contextual [answer, record]

theorem Stage.unreplied (stage : s.Stage)
    (handshake : s.phase = none ∨ s.phase = some .negRead ∨ s.phase = some .negWrite ∨
      s.phase = some .authRead ∨ s.phase = some .authWrite ∨ s.phase = some .reqRead) :
    Unreplied (decisions s.hist) := by
  rcases handshake with phase | phase | phase | phase | phase | phase <;>
    simp only [Stage, phase] at stage
  · simp [stage.1, Unreplied]
  · simp [stage.1, Unreplied]
  · rcases stage with ⟨-, -, -, -, store, decided, -⟩
    simp [decided, Unreplied]
  · rcases stage with ⟨-, -, -, -, -, -, store, decided⟩
    simp [decided, Unreplied]
  · rcases stage with ⟨-, -, -, -, -, -, before, store, decided, -⟩
    simp [decided, Unreplied]
  · rcases stage with ⟨-, input, admitted, -⟩
    exact admitted.unreplied

theorem Told.parse (told : s.Told) (silent : Unreplied (decisions s.hist)) (next : State) :
    (s.enter next).Told := by
  unfold Session.enter
  split
  · exact told
  · refine told.unreplied silent ?_ ?_
    · cases next <;> simpa [arrive] using silent
    · cases next <;> simp [arrive]

/-- Every step writes the record its reply calls for, and no other. -/
theorem Told.step {trusted : Prop} {s s' : Session} (step : Step trusted s s') (stage : s.Stage)
    (told : s.Told) : s'.Told := by
  cases step with
  | start fresh => exact told.parse (stage.unreplied (.inl fresh)) _
  | parseNeg phase => exact told.of_eq rfl rfl rfl rfl rfl fun _ member => member
  | parseAuth phase =>
      have silent := stage.unreplied (.inr (.inr (.inr (.inl phase))))
      exact told.unreplied silent silent rfl
  | parseRequest phase =>
      have silent := stage.unreplied (.inr (.inr (.inr (.inr (.inr phase)))))
      exact told.unreplied silent silent rfl
  | choose store phase complete =>
      have silent := stage.unreplied (.inr (.inl phase))
      refine Told.enter ?_ rfl
      exact told.unreplied silent (by simpa [Unreplied] using silent) (by simp)
  | validate store status phase complete judged =>
      have silent := stage.unreplied (.inr (.inr (.inr (.inl phase))))
      refine Told.enter ?_ rfl
      exact told.unreplied silent (by simpa [Unreplied] using silent) (by simp)
  | methodUserpass phase flushed method =>
      exact told.parse (stage.unreplied (.inr (.inr (.inl phase)))) _
  | methodNoauth phase flushed accepted method =>
      exact told.parse (stage.unreplied (.inr (.inr (.inl phase)))) _
  | authAccepted phase flushed status =>
      exact told.parse (stage.unreplied (.inr (.inr (.inr (.inr (.inl phase)))))) _
  | badRequest phase invalid =>
      simp only [Stage, phase] at stage
      exact told.fail
        ⟨stage.1, by simp [Socks5Request.stopped, invalid], by simp [phase], stage.2⟩ _
  | unsupported phase complete cmd =>
      simp only [Stage, phase] at stage
      exact told.fail
        ⟨stage.1, by simp [Socks5Request.stopped, complete], by simp [phase], stage.2⟩ _
  | lookupRefused requested name =>
      exact (told.note rfl (by simp)).fail
        ((stage.unanswered requested.connecting).note (.lookup false) rfl rfl) _
  | resolvedNothing phase =>
      exact (told.note rfl (by simp)).fail
        ((stage.unanswered (.inr (.inl phase))).note (.resolved []) rfl rfl) _
  | attemptUnusable target rest connecting targets =>
      have unanswered := (stage.unanswered connecting).note (.attempt target .unregistrable) rfl rfl
      refine Told.fail ?_ (unanswered.retarget rest) _
      exact told.of_eq rfl rfl rfl (by simp) (by simp) (by simp +contextual)
  | attemptSucceeds target rest status name connecting targets sound =>
      have unanswered := (stage.unanswered connecting).note (.attempt target .established) rfl rfl
      refine Told.succeed ?_ (unanswered.retarget rest) (stage.requested connecting).1 status name
      exact told.of_eq rfl rfl rfl (by simp) (by simp) (by simp +contextual)
  | exhausted connecting targets => exact told.fail (stage.unanswered connecting) _
  | completes status name phase sound =>
      have unanswered := (stage.unanswered (.inr (.inr phase))).note (.completed none) rfl rfl
      exact (told.note rfl (by simp)).succeed unanswered
        (stage.requested (.inr (.inr phase))).1 status name
  | expireConnecting phase =>
      exact (told.note rfl (by simp)).fail
        ((stage.unanswered (.inr (.inr phase))).note .timedOut rfl rfl) _
  | expireResolving phase =>
      exact (told.note rfl (by simp)).fail
        ((stage.unanswered (.inr (.inl phase))).note .timedOut rfl rfl) _
  | badGreeting | badCredentials | methodRefused | authRefused | openRelay | refused | relayDone =>
      exact told.enter rfl
  | clientGone | ioError | stall | lookupQueued =>
      exact (told.note rfl (by simp)).enter rfl
  | attemptPends target rest connecting targets =>
      refine Told.enter ?_ rfl
      exact told.of_eq rfl rfl rfl (by simp) (by simp) (by simp +contextual)
  | _ => exact told.of_eq rfl rfl rfl (by simp) (by simp) (by simp +contextual)

/-- The user a record names: a dash where none was asked for, and otherwise the name that was
accepted, with a question mark for every byte that is not a visible ASCII character. -/
theorem Vouched.loggedUser (vouched : s.Vouched) :
    (s.method = SOCKS5_METHOD_NOAUTH → loggedUser s.method s.auth = ascii "-") ∧
    (s.method ≠ SOCKS5_METHOD_NOAUTH →
      ∃ store, .validated SOCKS5_AUTH_OK store ∈ s.hist ∧
        usersValidate store s.auth.user s.auth.password = true ∧
        loggedUser s.method s.auth =
          s.auth.user.map fun byte => if 0x21 ≤ byte ∧ byte ≤ 0x7E then byte else 0x3F) := by
  refine ⟨fun noauth => ?_, fun asked => ?_⟩
  · rw [SocksProxy.loggedUser, if_neg]
    rintro ⟨userpass, -⟩
    exact absurd (noauth.symm.trans userpass) (by decide)
  · rcases vouched with noauth | ⟨userpass, store, validated, valid⟩
    · exact absurd noauth asked
    · have named : s.auth.user.length ≠ 0 := by
        intro empty
        simp [usersValidate, empty] at valid
      have some : 0 < s.auth.ulen := by
        rw [UInt8.lt_iff_toNat_lt]
        exact Nat.pos_of_ne_zero (by simpa [Socks5Auth.user] using named)
      refine ⟨store, validated, valid, ?_⟩
      rw [SocksProxy.loggedUser, if_pos ⟨userpass, some⟩]
      refine List.map_congr_left fun byte _ => ?_
      have visible : (0x20 < byte ∧ byte < 0x7f) ↔ (0x21 ≤ byte ∧ byte ≤ 0x7E) := by
        simp only [UInt8.lt_iff_toNat_lt, UInt8.le_iff_toNat_le, UInt8.reduceToNat]
        omega
      simp only [visible]

theorem Reachable.told {trusted : Prop} (reachable : s.Reachable trusted) : s.Told := by
  induction reachable with
  | refl => exact ⟨rfl, fun replied => absurd (by simp [Unreplied, Session.initial]) replied⟩
  | tail earlier step ih => exact ih.step step (Reachable.invariant earlier).2

end Session

end SocksProxy
