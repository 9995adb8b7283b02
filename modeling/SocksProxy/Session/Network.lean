import SocksProxy.Session.Flow

/-!
# What the network was last asked

A session asks the network for a lookup or for a connection and waits for the
answer. Until its request has been parsed it has asked for nothing, and while it
waits it has asked for something: every phase says what the last question or
answer can have been.
-/

namespace SocksProxy

namespace Session

variable {s s' : Session}

theorem latest_of_network {what : Obs} {h : List Obs} (network : what.isNetwork = true)
    (hist : s.hist = what :: h) : s.latest = some what := by
  simp [latest, hist, network]

@[simp]
theorem latest_arrive (s : Session) (next : State) : (s.arrive next).latest = s.latest := by
  cases next <;> simp [latest, arrive, Obs.isNetwork]

@[simp]
theorem latest_enter (s : Session) (next : State) : (s.enter next).latest = s.latest := by
  unfold enter
  split
  · rfl
  · rw [latest_arrive]
    simp [latest, Obs.isNetwork]

@[simp]
theorem targets_enter (s : Session) (next : State) : (s.enter next).targets = s.targets := by
  unfold enter
  split
  · rfl
  · cases next <;> rfl

/-- What is known in each phase about the questions the session has put to the network. -/
def Asking (s : Session) : Prop :=
  match s.phase with
  | none | some .negRead | some .negWrite | some .authRead | some .authWrite =>
      s.latest = none ∧ s.targets = []
  | some .reqRead =>
      (s.request.stopped = false → s.latest = none) ∧
        (s.latest = none → s.targets = [] ∨
          (s.request.state = .done ∧ s.Literal ∧ s.targets = [literalAddr s.request]))
  | some .reqResolve | some .reqConnecting => s.latest ≠ none
  | some .reqWrite | some .relay | some .done | some .error => True

theorem asking_initial : initial.Asking := ⟨rfl, rfl⟩

theorem asking_fail (s : Session) (rep : UInt8) : (s.fail rep).Asking := by
  simp [Asking]

theorem asking_succeed (s : Session) (status : SocketStatus) (name : Option Sockaddr) :
    (s.succeed status name).Asking := by
  simp [Asking]

theorem asking_end (s : Session) {next : State} (final : next = .done ∨ next = .error) :
    (s.enter next).Asking := by
  rcases final with rfl | rfl <;> simp [Asking]

theorem Connecting.asking_of_latest (connecting : s.Connecting) (phase : s'.phase = s.phase)
    (done : s'.request = s.request) (asked : s'.latest ≠ none) : s'.Asking := by
  rcases connecting with ⟨reading, complete, -⟩ | resolving | connecting
  · simp only [Asking, phase, reading, done]
    simp [asked, Socks5Request.stopped, complete]
  · simpa only [Asking, phase, resolving] using asked
  · simpa only [Asking, phase, connecting] using asked

theorem Asking.of_eq (asking : s.Asking) (phase : s'.phase = s.phase)
    (request : s'.request = s.request) (targets : s'.targets = s.targets)
    (latest : s'.latest = s.latest) : s'.Asking := by
  unfold Asking Literal at *
  rw [phase, request, targets, latest]
  exact asking

/-- The request parser goes on only while the network was not asked. -/
theorem Asking.parseRequest (asking : s.Asking) (phase : s.phase = some .reqRead)
    (unread : List UInt8) :
    ({ s with
      request := (Socks5Request.consumer.consume s.request s.unread).1
      unread := unread } : Session).Asking := by
  by_cases stopped : s.request.stopped = true
  · have same := Socks5Request.consumer.consume_final stopped s.unread
    rw [same]
    exact asking.of_eq rfl rfl rfl rfl
  · simp only [Asking, phase] at asking ⊢
    have untried := asking.1 (by simpa using stopped)
    refine ⟨fun _ => untried, fun _ => .inl ?_⟩
    rcases asking.2 untried with none | ⟨complete, -⟩
    · exact none
    · simp [Socks5Request.stopped, complete] at stopped

/-- A phase that precedes the request is followed by one in which nothing was asked either. -/
theorem Asking.advance {next : State} (asking : s.Asking)
    (early : s.phase = none ∨ s.phase = some .negRead ∨ s.phase = some .negWrite ∨
      s.phase = some .authRead ∨ s.phase = some .authWrite)
    (onward : next = .negRead ∨ next = .negWrite ∨ next = .authRead ∨ next = .authWrite ∨
      next = .reqRead) : (s.enter next).Asking := by
  have unasked : s.latest = none ∧ s.targets = [] := by
    rcases early with phase | phase | phase | phase | phase <;>
      simpa only [Asking, phase] using asking
  rcases onward with rfl | rfl | rfl | rfl | rfl <;> simp [Asking, unasked]

/-- Every step keeps to what its phase allows. -/
theorem Asking.step {trusted : Prop} (step : Step trusted s s') (asking : s.Asking) :
    s'.Asking := by
  cases step with
  | start fresh => exact asking.advance (.inl fresh) (.inl rfl)
  | receive bytes reading | relayReceive bytes phase isOpen => exact asking.of_eq rfl rfl rfl rfl
  | parseNeg phase | parseAuth phase => exact asking.of_eq rfl rfl rfl rfl
  | parseRequest phase => exact asking.parseRequest phase _
  | clientGone | ioError | badGreeting | badCredentials | stall | methodRefused | authRefused =>
      exact asking_end _ (.inr rfl)
  | choose store phase complete =>
      exact Asking.advance (asking.of_eq rfl rfl rfl rfl) (.inr (.inl phase)) (.inr (.inl rfl))
  | validate store status phase complete judged =>
      exact Asking.advance (asking.of_eq rfl rfl rfl rfl) (.inr (.inr (.inr (.inl phase))))
        (.inr (.inr (.inr (.inl rfl))))
  | send | relayFetch | relayForward | relayShutOrigin | relayShutClient | relayClientEof
  | relayOriginEof | relayStall | expire => exact asking.of_eq rfl rfl rfl rfl
  | methodUserpass phase =>
      exact asking.advance (.inr (.inr (.inl phase))) (.inr (.inr (.inl rfl)))
  | methodNoauth phase =>
      exact asking.advance (.inr (.inr (.inl phase))) (.inr (.inr (.inr (.inr rfl))))
  | authAccepted phase =>
      exact asking.advance (.inr (.inr (.inr (.inr phase)))) (.inr (.inr (.inr (.inr rfl))))
  | badRequest | unsupported | lookupRefused | resolvedNothing | attemptUnusable | exhausted
  | expireConnecting | expireResolving => exact asking_fail _ _
  | literal requested address untried =>
      rcases requested with ⟨phase, complete, -⟩
      simp only [Asking, phase]
      exact ⟨fun _ => untried, fun _ => .inr ⟨complete, address, trivial⟩⟩
  | lookupQueued requested name untried =>
      simp only [Asking, phase_enter, latest_enter]
      rw [latest_of_network (h := s.hist) rfl rfl]
      simp
  | resolved addresses phase some asked =>
      exact Connecting.asking_of_latest (.inr (.inl phase)) rfl rfl
        (by simp [latest, Obs.isNetwork])
  | attemptFails target rest error connecting targets ready =>
      exact connecting.asking_of_latest rfl rfl (by simp [latest, Obs.isNetwork])
  | attemptPends target rest connecting targets ready =>
      simp only [Asking, phase_enter, latest_enter]
      rw [latest_of_network (h := s.hist) rfl rfl]
      simp
  | attemptSucceeds | completes => exact asking_succeed _ _ _
  | completesFailing error phase pending =>
      exact Connecting.asking_of_latest (.inr (.inr phase)) rfl rfl
        (by simp [latest, Obs.isNetwork])
  | openRelay => simp [Asking]
  | refused | relayDone => exact asking_end _ (.inl rfl)

theorem Reachable.asking {trusted : Prop} (reachable : s.Reachable trusted) : s.Asking := by
  induction reachable with
  | refl => exact asking_initial
  | tail _ step ih => exact ih.step step

/-- A session whose parser still needs input has asked the network for nothing. -/
theorem Reachable.untried {trusted : Prop} (reachable : s.Reachable trusted) (hungry : s.Hungry) :
    s.latest = none := by
  have asking := reachable.asking
  rcases hungry with ⟨phase, -⟩ | ⟨phase, -⟩ | ⟨phase, running⟩
  · simp only [Asking, phase] at asking
    exact asking.1
  · simp only [Asking, phase] at asking
    exact asking.1
  · simp only [Asking, phase] at asking
    exact asking.1 running

end Session

end SocksProxy
