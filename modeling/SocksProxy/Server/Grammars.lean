import SocksProxy.Library.Recognizer
import SocksProxy.Server.Request

/-!
# What the parsers accept

The three parsers of the handshake recognize the messages of RFC 1928 and RFC
1929, with empty fields allowed: whatever pieces the input comes in, a parser
completes exactly at the end of a message that begins the input, hands back what
follows it, and holds the fields of that message. The counters that index the
arrays stay below the lengths they are compared with.
-/

namespace SocksProxy

/-! ## The greeting -/

namespace NegotiationParser

/-- Only the first byte can make a greeting invalid. -/
def Begun (p : NegotiationParser) (used : List UInt8) : Prop :=
  (p.state = .version ↔ used = []) ∧
    (p.state = .invalid → ∃ c, used = [c] ∧ c ≠ SOCKS5_VERSION)

theorem begun_step (p : NegotiationParser) (used : List UInt8) (c : UInt8)
    (running : consumer.final p = false) (before : p.Begun used) :
    (p.step c).Begun (used ++ [c]) := by
  cases current : p.state with
  | version =>
      obtain rfl := before.1.mp current
      by_cases version : c = SOCKS5_VERSION <;> simp [Begun, step, current, version]
  | nmethods => by_cases none : c = 0 <;> simp [Begun, step, current, none]
  | methods =>
      have kept := p.noteMethod_state c
      simp only [Begun, step, current, countMethod]
      split <;> simp [kept.1, current]
  | done => simp [consumer, stopped, current] at running
  | invalid => simp [consumer, stopped, current] at running

theorem invalid_iff {arrived left : List UInt8} {p : NegotiationParser}
    (consumed : consumer.consume negotiationParserInit arrived = (p, left)) :
    (p.state = .invalid ↔ ∃ c rest, arrived = c :: rest ∧ c ≠ SOCKS5_VERSION) ∧
      ∀ c rest, arrived = c :: rest → c ≠ SOCKS5_VERSION → left = rest := by
  have refused : ∀ c rest, arrived = c :: rest → c ≠ SOCKS5_VERSION →
      p.state = .invalid ∧ left = rest := by
    rintro c rest rfl other
    rw [consumer.consume_cons rfl, consumer.consume_final, Prod.mk.injEq] at consumed
    · rw [← consumed.1, ← consumed.2]
      simp [consumer, step, negotiationParserInit, other]
    · simp [consumer, stopped, step, negotiationParserInit, other]
  refine ⟨⟨fun invalid => ?_, ?_⟩, fun c rest split other => (refused c rest split other).2⟩
  · rcases consumer.exists_consumed negotiationParserInit arrived with ⟨used, split, reached⟩
    rw [consumed] at split reached
    have initially : Begun negotiationParserInit [] := by simp [Begun, negotiationParserInit]
    have begun := consumer.consumed_invariant begun_step initially reached
    rcases begun.2 invalid with ⟨c, only, other⟩
    rw [List.nil_append] at only
    exact ⟨c, left, by rw [split, only]; rfl, other⟩
  · rintro ⟨c, rest, split, other⟩
    exact (refused c rest split other).1

theorem consume_methods {p : NegotiationParser} {methods : List UInt8} (some : methods ≠ [])
    (state : p.state = .methods) (pending : p.pendingMethods.toNat = methods.length) :
    ∃ q, consumer.consume p methods = (q, []) ∧ q.state = .done := by
  induction methods generalizing p with
  | nil => exact absurd rfl some
  | cons c methods ih =>
      have kept := p.noteMethod_state c
      have running : consumer.final p = false := by simp [consumer, stopped, state]
      have step : consumer.step p c = (p.noteMethod c).countMethod := by
        simp [consumer, NegotiationParser.step, state]
      have positive : (1 : UInt8) ≤ (p.noteMethod c).pendingMethods := by
        rw [kept.2, UInt8.le_iff_toNat_le, pending, List.length_cons]
        simp
      have decremented : ((p.noteMethod c).pendingMethods - 1).toNat = methods.length := by
        rw [UInt8.toNat_sub_of_le _ _ positive, kept.2, pending, List.length_cons]
        simp
      rw [consumer.consume_cons running, step]
      cases methods with
      | nil =>
          have last : (p.noteMethod c).pendingMethods - 1 = 0 :=
            UInt8.toNat_inj.mp (by simpa using decremented)
          exact ⟨_, consumer.consume_nil _, by simp [countMethod, last]⟩
      | cons next methods =>
          have more : (p.noteMethod c).pendingMethods - 1 ≠ 0 := by
            intro zero
            rw [zero] at decremented
            simp at decremented
          refine ih (by simp) ?_ ?_
          · simp [countMethod, more, kept.1, state]
          · simpa [countMethod, more] using decremented

theorem recognizes :
    consumer.Recognizes negotiationParserInit (fun p => p.state = .done)
      (fun message => ∃ methods, IsGreeting message methods) where
  running := rfl
  stops p complete := by simp [consumer, stopped, complete]
  sound used p consumed complete := by
    rcases greeting_of_done consumed complete with ⟨methods, greeting, -⟩
    exact ⟨methods, greeting⟩
  complete := by
    rintro message ⟨methods, n, rfl, length⟩
    rw [consumer.consume_cons rfl, consumer.consume_cons (by rfl)]
    by_cases none : n = 0
    · subst none
      obtain rfl : methods = [] := List.length_eq_zero_iff.mp (by simpa using length)
      exact ⟨_, consumer.consume_nil _, rfl⟩
    · have some : methods ≠ [] := by
        rintro rfl
        exact none (UInt8.toNat_inj.mp (by simpa using length.symm))
      refine consume_methods some ?_ ?_
      · simp [consumer, step, negotiationParserInit, none]
      · simp [consumer, step, negotiationParserInit, length]
  viable used p consumed waits := by
    have initially : Consumed negotiationParserInit [] := by simp [Consumed, negotiationParserInit]
    have reached := consumer.consumed_invariant consumed_step initially consumed
    rw [List.nil_append] at reached
    cases current : p.state with
    | version =>
        simp only [Consumed, current] at reached
        rw [reached.1]
        exact ⟨[SOCKS5_VERSION, 0], by simp, [], 0, rfl, rfl⟩
    | nmethods =>
        simp only [Consumed, current] at reached
        rw [reached.1]
        exact ⟨[0], by simp, [], 0, rfl, rfl⟩
    | methods =>
        simp only [Consumed, current] at reached
        rcases reached with ⟨n, methods, rfl, count, positive, -⟩
        refine ⟨List.replicate p.pendingMethods.toNat 0, ?_, methods ++ _, n, rfl, ?_⟩
        · rw [ne_eq, List.replicate_eq_nil_iff]
          omega
        · rw [List.length_append, List.length_replicate, count]
    | done => simp [consumer, stopped, current] at waits
    | invalid => simp [consumer, stopped, current] at waits

end NegotiationParser

/-- The method for a list of offered methods: what the policy asks for, if it is offered. -/
def methodFor (required : Bool) (methods : List UInt8) : UInt8 :=
  if required = true ∧ SOCKS5_METHOD_USERPASS ∈ methods then SOCKS5_METHOD_USERPASS
  else if required = false ∧ SOCKS5_METHOD_NOAUTH ∈ methods then SOCKS5_METHOD_NOAUTH
  else SOCKS5_METHOD_NONE

theorem negotiationMethod_eq {p : NegotiationParser} {methods : List UInt8}
    (noauth : p.hasNoauth = true ↔ SOCKS5_METHOD_NOAUTH ∈ methods)
    (userpass : p.hasUserpass = true ↔ SOCKS5_METHOD_USERPASS ∈ methods) (required : Bool) :
    negotiationMethod p required = methodFor required methods := by
  cases required <;> simp [negotiationMethod, methodFor, noauth, userpass]

theorem contents_fillNegotiationReply (p : NegotiationParser) {out : Buffer} (required : Bool)
    (room : 2 ≤ out.space) :
    (fillNegotiationReply p out required).2.contents =
      out.contents ++ [SOCKS5_VERSION, negotiationMethod p required] := by
  have written : (out.writeBytes [SOCKS5_VERSION, negotiationMethod p required]).contents =
      out.contents ++ [SOCKS5_VERSION, negotiationMethod p required] :=
    Buffer.contents_writeBytes room
  exact written

/-- The greeting is parsed exactly and the method chosen by policy. However the bytes are cut into
pieces, the parser completes exactly if they begin with a greeting; it leaves the bytes after it,
and the method that is queued is the one the policy and the offered methods call for, in whatever
order and however often these are offered. It is invalid exactly if the first byte is not the
version, and otherwise the parser takes everything and waits. -/
theorem negotiation_parses_greeting {arrived : List UInt8} {p : NegotiationParser} {b : Buffer}
    (fed : Buffer.FedBy NegotiationParser.consumer negotiationParserInit arrived p b) :
    (∀ p' b', Buffer.FedBy NegotiationParser.consumer negotiationParserInit arrived p' b' →
      p' = p ∧ b'.contents = b.contents) ∧
    (p.state = .done ↔ ∃ greeting methods rest, arrived = greeting ++ rest ∧
      IsGreeting greeting methods) ∧
    (∀ greeting methods rest, arrived = greeting ++ rest → IsGreeting greeting methods →
      b.contents = rest ∧ (p.hasNoauth = true ↔ SOCKS5_METHOD_NOAUTH ∈ methods) ∧
        (p.hasUserpass = true ↔ SOCKS5_METHOD_USERPASS ∈ methods) ∧
        ∀ (out : Buffer) (required : Bool),
          (fillNegotiationReply p out required).1 = methodFor required methods ∧
            (2 ≤ out.space → (fillNegotiationReply p out required).2.contents =
              out.contents ++ [SOCKS5_VERSION, methodFor required methods])) ∧
    ((p.state = .invalid ↔ ∃ c rest, arrived = c :: rest ∧ c ≠ SOCKS5_VERSION) ∧
      ∀ c rest, arrived = c :: rest → c ≠ SOCKS5_VERSION → b.contents = rest) ∧
    (p.state ≠ .done → p.state ≠ .invalid → b.contents = []) := by
  have consumed := fed.consume_eq
  refine ⟨fun p' b' => fed.unique, ?_, ?_, NegotiationParser.invalid_iff consumed, ?_⟩
  · have accepted := NegotiationParser.recognizes.accepts_iff arrived
    rw [consumed] at accepted
    rw [accepted]
    constructor
    · rintro ⟨greeting, rest, split, methods, isGreeting⟩
      exact ⟨greeting, methods, rest, split, isGreeting⟩
    · rintro ⟨greeting, methods, rest, split, isGreeting⟩
      exact ⟨greeting, rest, split, methods, isGreeting⟩
  · rintro greeting methods rest rfl isGreeting
    rcases NegotiationParser.recognizes.consume_message ⟨methods, isGreeting⟩ rest with
      ⟨state, whole, message, complete⟩
    rw [consumed, Prod.mk.injEq] at whole
    rcases whole with ⟨rfl, left⟩
    rcases NegotiationParser.greeting_of_done message complete with
      ⟨offered, ⟨n', same, -⟩, noauth, userpass⟩
    rcases isGreeting with ⟨n, rfl, -⟩
    obtain ⟨-, -, rfl⟩ : SOCKS5_VERSION = SOCKS5_VERSION ∧ n = n' ∧ methods = offered := by
      simpa using same
    refine ⟨left, noauth, userpass, fun out required => ?_⟩
    rw [← negotiationMethod_eq noauth userpass required]
    exact ⟨rfl, contents_fillNegotiationReply p required⟩
  · intro incomplete valid
    have waits : NegotiationParser.consumer.final
        (NegotiationParser.consumer.consume negotiationParserInit arrived).1 = false := by
      rw [consumed]
      simp [NegotiationParser.consumer, NegotiationParser.stopped, incomplete, valid]
    have rest := NegotiationParser.consumer.rest_eq_nil_of_running waits
    rwa [consumed] at rest

/-- A greeting that comes in two pieces, with the next message behind it. -/
theorem negotiation_parses_greeting_in_pieces :
    ∃ (p : NegotiationParser) (b : Buffer),
      Buffer.FedBy NegotiationParser.consumer negotiationParserInit
        [0x05, 0x02, 0x02, 0x00, 0x05] p b ∧
      p.state = .done ∧ b.contents = [0x05] ∧
      (fillNegotiationReply p (Buffer.init 512) false).1 = SOCKS5_METHOD_NOAUTH := by
  let b₁ := (Buffer.init 512).store [0x05, 0x02]
  let p₁ := (b₁.feed NegotiationParser.consumer negotiationParserInit).1
  let b₂ := (b₁.feed NegotiationParser.consumer negotiationParserInit).2.store [0x02, 0x00, 0x05]
  have fed : Buffer.FedBy NegotiationParser.consumer negotiationParserInit
      [0x05, 0x02, 0x02, 0x00, 0x05] (b₂.feed NegotiationParser.consumer p₁).1
      (b₂.feed NegotiationParser.consumer p₁).2 :=
    .feed (.feed (.start (Buffer.init 512) rfl) [0x05, 0x02] b₁ rfl) [0x02, 0x00, 0x05] b₂ rfl
  have greeting : IsGreeting [0x05, 0x02, 0x02, 0x00] [0x02, 0x00] := ⟨0x02, rfl, rfl⟩
  rcases negotiation_parses_greeting fed with ⟨-, done, fields, -⟩
  rcases fields _ _ [0x05] rfl greeting with ⟨left, -, -, chosen⟩
  exact ⟨_, _, fed, done.mpr ⟨_, _, [0x05], rfl, greeting⟩, left, (chosen _ false).1⟩

/-! ## Credentials -/

namespace Socks5Auth

theorem error_iff {old p : Socks5Auth} {arrived left : List UInt8}
    (consumed : consumer.consume (authParserInit old) arrived = (p, left)) :
    (p.state = .error ↔ ∃ c rest, arrived = c :: rest ∧ c ≠ SOCKS5_AUTH_VERSION) ∧
      ∀ c rest, arrived = c :: rest → c ≠ SOCKS5_AUTH_VERSION → left = rest := by
  have refused : ∀ c rest, arrived = c :: rest → c ≠ SOCKS5_AUTH_VERSION →
      p.state = .error ∧ left = rest := by
    rintro c rest rfl other
    rw [consumer.consume_cons rfl, consumer.consume_final, Prod.mk.injEq] at consumed
    · rw [← consumed.1, ← consumed.2]
      simp [consumer, step, authParserInit, other]
    · simp [consumer, stopped, step, authParserInit, other]
  refine ⟨⟨fun invalid => ?_, ?_⟩, fun c rest split other => (refused c rest split other).2⟩
  · rcases consumer.exists_consumed (authParserInit old) arrived with ⟨used, split, reached⟩
    rw [consumed] at split reached
    have initially : (authParserInit old).Begun [] := by simp [Begun, authParserInit]
    have begun := consumer.consumed_invariant begun_step initially reached
    rcases begun.2 invalid with ⟨c, only, other⟩
    rw [List.nil_append] at only
    exact ⟨c, left, by rw [split, only]; rfl, other⟩
  · rintro ⟨c, rest, split, other⟩
    exact (refused c rest split other).1

/-- The fields that are complete are closed right after their last byte. -/
def Terminated (p : Socks5Auth) (_ : List UInt8) : Prop :=
  (p.state = .plen ∨ p.state = .passwd ∨ p.state = .done → p.uname p.ulen = 0) ∧
    (p.state = .done → p.passwd p.plen = 0)

theorem terminated_step (p : Socks5Auth) (used : List UInt8) (c : UInt8)
    (running : consumer.final p = false) (before : p.Terminated used) :
    (p.step c).Terminated (used ++ [c]) := by
  cases current : p.state with
  | ver => by_cases version : c = SOCKS5_AUTH_VERSION <;> simp [Terminated, step, current, version]
  | ulen =>
      by_cases empty : c = 0 <;> simp [Terminated, step, current, empty, ByteTable.set]
  | uname =>
      simp only [Terminated, step, current, pushUname]
      split <;> simp [ByteTable.set]
  | plen =>
      have closed := before.1 (.inl current)
      by_cases empty : c = 0 <;> simp [Terminated, step, current, empty, ByteTable.set, closed]
  | passwd =>
      have closed := before.1 (.inr (.inl current))
      simp only [Terminated, step, current, pushPasswd]
      split <;> simp [ByteTable.set, closed]
  | done => simp [consumer, stopped, current] at running
  | error => simp [consumer, stopped, current] at running

theorem exists_field {bytes : List UInt8} {n : UInt8} (length : bytes.length = n.toNat) :
    ∃ field : AuthField, field.bytes = bytes ∧ field.size = n := by
  have small := n.toNat_lt
  exact ⟨⟨bytes, by omega⟩, rfl, by simp [AuthField.size, length]⟩

theorem recognizes (old : Socks5Auth) :
    consumer.Recognizes (authParserInit old) (fun p => p.state = .done)
      (fun message => ∃ user password : AuthField, message = credentialsMessage user password) where
  running := rfl
  stops p complete := by simp [consumer, stopped, complete]
  sound used p consumed complete := by
    rcases credentials_of_done consumed complete with ⟨ulen, plen, rfl, name, secret⟩
    rcases exists_field name with ⟨user, userBytes, userSize⟩
    rcases exists_field secret with ⟨password, passwordBytes, passwordSize⟩
    refine ⟨user, password, ?_⟩
    rw [credentialsMessage, userBytes, userSize, passwordBytes, passwordSize]
  complete := by
    rintro message ⟨user, password, rfl⟩
    rcases consume_credentialsMessage old user password [] with ⟨p, consumed, complete, -⟩
    rw [List.append_nil] at consumed
    exact ⟨p, consumed, complete⟩
  viable used p consumed waits := by
    have initially : (authParserInit old).Consumed [] := by simp [Consumed, authParserInit]
    have reached := consumer.consumed_invariant consumed_step initially consumed
    rw [List.nil_append] at reached
    have nothing : ∃ field : AuthField, field.bytes = [] ∧ field.size = 0 := exists_field rfl
    rcases nothing with ⟨none, noBytes, noSize⟩
    cases current : p.state with
    | ver =>
        simp only [Consumed, current] at reached
        refine ⟨[SOCKS5_AUTH_VERSION, 0, 0], by simp, none, none, ?_⟩
        simp [reached, credentialsMessage, noBytes, noSize]
    | ulen =>
        simp only [Consumed, current] at reached
        refine ⟨[0, 0], by simp, none, none, ?_⟩
        simp [reached, credentialsMessage, noBytes, noSize]
    | uname =>
        simp only [Consumed, current] at reached
        rcases reached with ⟨rfl, short⟩
        have length : (p.uname.take p.unameRead.toNat ++
            List.replicate (p.ulen.toNat - p.unameRead.toNat) 0).length = p.ulen.toNat := by
          rw [List.length_append, ByteTable.length_take, List.length_replicate]
          omega
        rcases exists_field length with ⟨user, userBytes, userSize⟩
        refine ⟨List.replicate (p.ulen.toNat - p.unameRead.toNat) 0 ++ [0], by simp, user, none, ?_⟩
        simp [credentialsMessage, userBytes, userSize, noBytes, noSize]
    | plen =>
        simp only [Consumed, current] at reached
        have length : p.user.length = p.ulen.toNat := by simp [Socks5Auth.user]
        rcases exists_field length with ⟨user, userBytes, userSize⟩
        refine ⟨[0], by simp, user, none, ?_⟩
        simp [reached, credentialsMessage, userBytes, userSize, noBytes, noSize]
    | passwd =>
        simp only [Consumed, current] at reached
        rcases reached with ⟨rfl, short⟩
        have nameLength : p.user.length = p.ulen.toNat := by simp [Socks5Auth.user]
        have length : (p.passwd.take p.passwdRead.toNat ++
            List.replicate (p.plen.toNat - p.passwdRead.toNat) 0).length = p.plen.toNat := by
          rw [List.length_append, ByteTable.length_take, List.length_replicate]
          omega
        rcases exists_field nameLength with ⟨user, userBytes, userSize⟩
        rcases exists_field length with ⟨password, passwordBytes, passwordSize⟩
        refine ⟨List.replicate (p.plen.toNat - p.passwdRead.toNat) 0, ?_, user, password, ?_⟩
        · rw [ne_eq, List.replicate_eq_nil_iff]
          omega
        · simp [credentialsMessage, userBytes, userSize, passwordBytes, passwordSize]
    | done => simp [consumer, stopped, current] at waits
    | error => simp [consumer, stopped, current] at waits

end Socks5Auth

/-- The credential parser accepts exactly the messages of RFC 1929, with empty fields allowed.
However the bytes are cut into pieces, it completes exactly if they begin with a message, leaves the
bytes after it, and holds both fields, each with a NUL right after it; it fails exactly if the first
byte is not the version, with nothing more taken, and otherwise takes everything and waits. While a
field is read its counter is below the length, so it does not wrap and indexes at most the last cell
but one of the array. -/
theorem auth_parses_credentials {old p : Socks5Auth} {arrived : List UInt8} {b : Buffer}
    (fed : Buffer.FedBy Socks5Auth.consumer (authParserInit old) arrived p b) :
    (∀ p' b', Buffer.FedBy Socks5Auth.consumer (authParserInit old) arrived p' b' →
      p' = p ∧ b'.contents = b.contents) ∧
    (p.state = .done ↔ ∃ (user password : AuthField) (rest : List UInt8),
      arrived = credentialsMessage user password ++ rest) ∧
    (∀ (user password : AuthField) (rest : List UInt8),
      arrived = credentialsMessage user password ++ rest →
        b.contents = rest ∧ p.ulen.toNat = user.bytes.length ∧ p.user = user.bytes ∧
          p.uname p.ulen = 0 ∧ p.plen.toNat = password.bytes.length ∧
          p.password = password.bytes ∧ p.passwd p.plen = 0) ∧
    ((p.state = .error ↔ ∃ c rest, arrived = c :: rest ∧ c ≠ SOCKS5_AUTH_VERSION) ∧
      ∀ c rest, arrived = c :: rest → c ≠ SOCKS5_AUTH_VERSION → b.contents = rest) ∧
    (p.state ≠ .done → p.state ≠ .error → b.contents = []) ∧
    (p.state = .uname → p.unameRead.toNat < p.ulen.toNat ∧
      (p.unameRead + 1).toNat = p.unameRead.toNat + 1) ∧
    (p.state = .passwd → p.passwdRead.toNat < p.plen.toNat ∧
      (p.passwdRead + 1).toNat = p.passwdRead.toNat + 1) := by
  have consumed := fed.consume_eq
  rcases Socks5Auth.consumer.exists_consumed (authParserInit old) arrived with
    ⟨used, split, reached⟩
  rw [consumed] at split reached
  have invariant := Socks5Auth.consumer.consumed_invariant Socks5Auth.consumed_step
    (show (authParserInit old).Consumed [] by simp [Socks5Auth.Consumed, authParserInit]) reached
  have terminated := Socks5Auth.consumer.consumed_invariant Socks5Auth.terminated_step
    (show (authParserInit old).Terminated [] by simp [Socks5Auth.Terminated, authParserInit])
    reached
  refine ⟨fun p' b' => fed.unique, ?_, ?_, Socks5Auth.error_iff consumed, ?_, ?_, ?_⟩
  · have accepted := (Socks5Auth.recognizes old).accepts_iff arrived
    rw [consumed] at accepted
    rw [accepted]
    constructor
    · rintro ⟨_, rest, split, user, password, rfl⟩
      exact ⟨user, password, rest, split⟩
    · rintro ⟨user, password, rest, split⟩
      exact ⟨_, rest, split, user, password, rfl⟩
  · rintro user password rest rfl
    rcases Socks5Auth.consume_credentialsMessage old user password rest with
      ⟨q, whole, complete, name, secret⟩
    rw [consumed, Prod.mk.injEq] at whole
    rcases whole with ⟨rfl, left⟩
    refine ⟨left, ?_, name, terminated.1 (.inr (.inr complete)), ?_, secret,
      terminated.2 complete⟩
    · rw [← name, Socks5Auth.user, ByteTable.length_take]
    · rw [← secret, Socks5Auth.password, ByteTable.length_take]
  · intro incomplete valid
    have waits : Socks5Auth.consumer.final
        (Socks5Auth.consumer.consume (authParserInit old) arrived).1 = false := by
      rw [consumed]
      simp [Socks5Auth.consumer, Socks5Auth.stopped, incomplete, valid]
    have rest := Socks5Auth.consumer.rest_eq_nil_of_running waits
    rwa [consumed] at rest
  · intro current
    simp only [Socks5Auth.Consumed, current] at invariant
    exact ⟨invariant.2, Socks5Auth.toNat_succ_of_lt invariant.2⟩
  · intro current
    simp only [Socks5Auth.Consumed, current] at invariant
    exact ⟨invariant.2, Socks5Auth.toNat_succ_of_lt invariant.2⟩

/-- A message without a name, with the next message behind it. -/
theorem auth_parses_credentials_without_name :
    ∃ (p : Socks5Auth) (b : Buffer),
      Buffer.FedBy Socks5Auth.consumer (authParserInit Socks5Auth.zero)
        [0x01, 0x00, 0x02, 0x41, 0x42, 0x05] p b ∧
      p.state = .done ∧ b.contents = [0x05] ∧ p.password = [0x41, 0x42] := by
  let b₁ := (Buffer.init 512).store [0x01, 0x00, 0x02, 0x41, 0x42, 0x05]
  have fed : Buffer.FedBy Socks5Auth.consumer (authParserInit Socks5Auth.zero) _ _ _ :=
    .feed (.start (Buffer.init 512) rfl) [0x01, 0x00, 0x02, 0x41, 0x42, 0x05] b₁ rfl
  let user : AuthField := ⟨[], by decide⟩
  let password : AuthField := ⟨[0x41, 0x42], by decide⟩
  rcases auth_parses_credentials fed with ⟨-, done, fields, -⟩
  rcases fields user password [0x05] rfl with ⟨left, -, -, -, -, secret, -⟩
  exact ⟨_, _, fed, done.mpr ⟨user, password, [0x05], rfl⟩, left, secret⟩

/-! ## Requests -/

/-- The request with its fields: an address of four or of sixteen bytes, or the length of a name and
that many bytes, none of them NUL. -/
inductive IsRequest : List UInt8 → UInt8 → UInt8 → List UInt8 → NetPort → Prop where
  | ipv4 (cmd : UInt8) (addr : List UInt8) (port : NetPort) (length : addr.length = 4) :
      IsRequest (SOCKS5_VERSION :: cmd :: 0 :: SOCKS5_ATYP_IPV4 :: (addr ++ [port.high, port.low]))
        cmd SOCKS5_ATYP_IPV4 addr port
  | ipv6 (cmd : UInt8) (addr : List UInt8) (port : NetPort) (length : addr.length = 16) :
      IsRequest (SOCKS5_VERSION :: cmd :: 0 :: SOCKS5_ATYP_IPV6 :: (addr ++ [port.high, port.low]))
        cmd SOCKS5_ATYP_IPV6 addr port
  | domain (cmd n : UInt8) (addr : List UInt8) (port : NetPort) (some : n ≠ 0)
      (length : addr.length = n.toNat) (clean : 0 ∉ addr) :
      IsRequest
        (SOCKS5_VERSION :: cmd :: 0 :: SOCKS5_ATYP_DOMAIN :: n :: (addr ++ [port.high, port.low]))
        cmd SOCKS5_ATYP_DOMAIN addr port

namespace Socks5Request

/-- The bytes that come before an address: they fix its type and its length. -/
inductive Opening : List UInt8 → UInt8 → UInt8 → UInt8 → Prop where
  | ipv4 (cmd : UInt8) :
      Opening [SOCKS5_VERSION, cmd, 0, SOCKS5_ATYP_IPV4] cmd SOCKS5_ATYP_IPV4 4
  | ipv6 (cmd : UInt8) :
      Opening [SOCKS5_VERSION, cmd, 0, SOCKS5_ATYP_IPV6] cmd SOCKS5_ATYP_IPV6 16
  | domain (cmd n : UInt8) (some : n ≠ 0) :
      Opening [SOCKS5_VERSION, cmd, 0, SOCKS5_ATYP_DOMAIN, n] cmd SOCKS5_ATYP_DOMAIN n

/-- An opening, an address of the length it announces and a port are a request. -/
theorem Opening.isRequest {front addr : List UInt8} {cmd atyp n : UInt8}
    (opening : Opening front cmd atyp n) (length : addr.length = n.toNat)
    (clean : atyp = SOCKS5_ATYP_DOMAIN → 0 ∉ addr) (port : NetPort) :
    IsRequest (front ++ (addr ++ [port.high, port.low])) cmd atyp addr port := by
  cases opening with
  | ipv4 => exact .ipv4 cmd addr port length
  | ipv6 => exact .ipv6 cmd addr port length
  | domain _ _ some => exact .domain cmd n addr port some length (clean rfl)

end Socks5Request

theorem IsRequest.opening {message addr : List UInt8} {cmd atyp : UInt8} {port : NetPort}
    (request : IsRequest message cmd atyp addr port) :
    ∃ front n, Socks5Request.Opening front cmd atyp n ∧ addr.length = n.toNat ∧
      (atyp = SOCKS5_ATYP_DOMAIN → 0 ∉ addr) ∧
      message = front ++ (addr ++ [port.high, port.low]) := by
  cases request with
  | ipv4 cmd addr port length =>
      exact ⟨_, 4, .ipv4 cmd, length, fun other => absurd other (by decide), rfl⟩
  | ipv6 cmd addr port length =>
      exact ⟨_, 16, .ipv6 cmd, length, fun other => absurd other (by decide), rfl⟩
  | domain cmd n addr port some length clean =>
      exact ⟨_, n, .domain cmd n some, length, fun _ => clean, rfl⟩

namespace Socks5Request

/-- What each parser state says about the bytes consumed so far. -/
def Consumed (p : Socks5Request) (used : List UInt8) : Prop :=
  match p.state with
  | .ver => used = [] ∧ p.addrRead = 0 ∧ p.portRead = 0 ∧ p.dstPort = 0
  | .cmd => used = [SOCKS5_VERSION] ∧ p.addrRead = 0 ∧ p.portRead = 0 ∧ p.dstPort = 0
  | .rsv => used = [SOCKS5_VERSION, p.cmd] ∧ p.addrRead = 0 ∧ p.portRead = 0 ∧ p.dstPort = 0
  | .atyp => used = [SOCKS5_VERSION, p.cmd, 0] ∧ p.addrRead = 0 ∧ p.portRead = 0 ∧ p.dstPort = 0
  | .dlen =>
      used = [SOCKS5_VERSION, p.cmd, 0, SOCKS5_ATYP_DOMAIN] ∧ p.atyp = SOCKS5_ATYP_DOMAIN ∧
        p.addrRead = 0 ∧ p.portRead = 0 ∧ p.dstPort = 0
  | .daddr =>
      ∃ front, Opening front p.cmd p.atyp p.addrLen ∧
        used = front ++ p.dstAddr.take p.addrRead.toNat ∧
        p.addrRead.toNat < p.addrLen.toNat ∧
        (p.atyp = SOCKS5_ATYP_DOMAIN → 0 ∉ p.dstAddr.take p.addrRead.toNat) ∧
        p.portRead = 0 ∧ p.dstPort = 0
  | .dport =>
      ∃ front, Opening front p.cmd p.atyp p.addrLen ∧
        (p.atyp = SOCKS5_ATYP_DOMAIN → 0 ∉ p.address) ∧
        ((used = front ++ p.address ∧ p.portRead = 0 ∧ p.dstPort = 0) ∨
          ∃ high : UInt8, used = front ++ (p.address ++ [high]) ∧ p.portRead = 1 ∧
            p.dstPort = high.toUInt16)
  | .done => ∃ port, IsRequest used p.cmd p.atyp p.address port ∧ p.dstPort = ntohs port
  | .error => True

theorem consumed_takeAtyp {p : Socks5Request} (c : UInt8) (addrRead : p.addrRead = 0)
    (portRead : p.portRead = 0) (dstPort : p.dstPort = 0) :
    (p.takeAtyp c).Consumed [SOCKS5_VERSION, p.cmd, 0, c] := by
  unfold takeAtyp
  split
  · rename_i ipv4
    subst ipv4
    refine ⟨_, .ipv4 p.cmd, ?_⟩
    simp [addrRead, portRead, dstPort, ByteTable.take]
  split
  · rename_i ipv6
    subst ipv6
    refine ⟨_, .ipv6 p.cmd, ?_⟩
    simp [addrRead, portRead, dstPort, ByteTable.take]
  split
  · rename_i domain
    subst domain
    exact ⟨rfl, rfl, addrRead, portRead, dstPort⟩
  · trivial

theorem consumed_takeAddr {p : Socks5Request} {front : List UInt8} (c : UInt8)
    (state : p.state = .daddr) (opening : Opening front p.cmd p.atyp p.addrLen)
    (room : p.addrRead.toNat < p.addrLen.toNat)
    (clean : p.atyp = SOCKS5_ATYP_DOMAIN → 0 ∉ p.dstAddr.take p.addrRead.toNat)
    (portRead : p.portRead = 0) (dstPort : p.dstPort = 0) :
    (p.takeAddr c).Consumed (front ++ (p.dstAddr.take p.addrRead.toNat ++ [c])) := by
  unfold takeAddr
  split
  · trivial
  · rename_i allowed
    have advanced := Socks5Auth.toNat_succ_of_lt room
    have taken := ByteTable.take_succ_set p.dstAddr p.addrRead c
    have stillClean : p.atyp = SOCKS5_ATYP_DOMAIN →
        0 ∉ p.dstAddr.take p.addrRead.toNat ++ [c] := by
      intro domain
      rw [List.mem_append, not_or, List.mem_singleton]
      exact ⟨clean domain, fun nul => allowed ⟨domain, nul.symm⟩⟩
    rw [← taken] at stillClean ⊢
    by_cases complete : p.addrRead + 1 = p.addrLen
    · have length : p.addrLen.toNat = p.addrRead.toNat + 1 := by rw [← complete, advanced]
      simp only [complete, if_true, Consumed, address, length]
      exact ⟨front, opening, stillClean, .inl ⟨rfl, portRead, dstPort⟩⟩
    · have different : p.addrRead.toNat + 1 ≠ p.addrLen.toNat := by
        intro same
        exact complete (UInt8.toNat_inj.mp (by rw [advanced, same]))
      simp only [complete, if_false, Consumed, state, advanced]
      exact ⟨front, opening, rfl, by omega, stillClean, portRead, dstPort⟩

theorem consumed_takePort {p : Socks5Request} {front used : List UInt8} (c : UInt8)
    (state : p.state = .dport) (opening : Opening front p.cmd p.atyp p.addrLen)
    (clean : p.atyp = SOCKS5_ATYP_DOMAIN → 0 ∉ p.address)
    (read : (used = front ++ p.address ∧ p.portRead = 0 ∧ p.dstPort = 0) ∨
      ∃ high : UInt8, used = front ++ (p.address ++ [high]) ∧ p.portRead = 1 ∧
        p.dstPort = high.toUInt16) :
    (p.takePort c).Consumed (used ++ [c]) := by
  rcases read with ⟨rfl, portRead, dstPort⟩ | ⟨high, rfl, portRead, dstPort⟩
  · have first : ¬(0 : UInt8) + 1 = 2 := by decide
    simp only [takePort, portRead, dstPort, first, if_false, Consumed, state]
    refine ⟨front, opening, clean, .inr ⟨c, by simp [address], rfl, by simp⟩⟩
  · have second : (1 : UInt8) + 1 = 2 := by decide
    simp only [takePort, portRead, dstPort, second, if_true, Consumed]
    refine ⟨⟨high, c⟩, ?_, rfl⟩
    have length : p.address.length = p.addrLen.toNat := by simp [address]
    have request := opening.isRequest length clean ⟨high, c⟩
    rw [List.append_assoc, List.append_assoc]
    exact request

theorem consumed_step (p : Socks5Request) (used : List UInt8) (c : UInt8)
    (running : consumer.final p = false) (before : p.Consumed used) :
    (p.step c).Consumed (used ++ [c]) := by
  unfold Consumed at before
  unfold step
  cases current : p.state with
  | ver =>
      rw [current] at before
      rcases before with ⟨rfl, counters⟩
      by_cases version : c = SOCKS5_VERSION <;> simp [Consumed, version, counters]
  | cmd =>
      rw [current] at before
      rcases before with ⟨rfl, counters⟩
      simp [Consumed, counters]
  | rsv =>
      rw [current] at before
      rcases before with ⟨rfl, counters⟩
      by_cases reserved : c = 0 <;> simp [Consumed, reserved, counters]
  | atyp =>
      rw [current] at before
      rcases before with ⟨rfl, addrRead, portRead, dstPort⟩
      exact consumed_takeAtyp c addrRead portRead dstPort
  | dlen =>
      rw [current] at before
      rcases before with ⟨rfl, atyp, addrRead, portRead, dstPort⟩
      by_cases empty : c = 0
      · simp [Consumed, empty]
      · simp only [Consumed, empty, if_false]
        refine ⟨[SOCKS5_VERSION, p.cmd, 0, SOCKS5_ATYP_DOMAIN, c], ?_, ?_⟩
        · rw [atyp]
          exact .domain p.cmd c empty
        · simp [addrRead, portRead, dstPort, ByteTable.take,
            Socks5Auth.toNat_pos_of_ne_zero empty]
  | daddr =>
      rw [current] at before
      rcases before with ⟨front, opening, rfl, room, clean, portRead, dstPort⟩
      rw [List.append_assoc]
      exact consumed_takeAddr c current opening room clean portRead dstPort
  | dport =>
      rw [current] at before
      rcases before with ⟨front, opening, clean, read⟩
      exact consumed_takePort c current opening clean read
  | done => simp [consumer, stopped, current] at running
  | error => simp [consumer, stopped, current] at running

/-- What comes before the address leaves the parser ready for it. -/
theorem consume_opening (old : Socks5Request) {front : List UInt8} {cmd atyp n : UInt8}
    (opening : Opening front cmd atyp n) :
    ∃ p, consumer.consume (requestParserInit old) front = (p, []) ∧ p.state = .daddr ∧
      (p.cmd = cmd ∧ p.atyp = atyp ∧ p.addrLen = n) ∧ p.addrRead = 0 ∧ p.portRead = 0 ∧
      p.dstPort = 0 := by
  cases opening with
  | ipv4 => exact ⟨_, rfl, rfl, ⟨rfl, rfl, rfl⟩, rfl, rfl, rfl⟩
  | ipv6 => exact ⟨_, rfl, rfl, ⟨rfl, rfl, rfl⟩, rfl, rfl, rfl⟩
  | domain _ _ some =>
      exact ⟨_, rfl, if_neg some, ⟨rfl, rfl, rfl⟩, rfl, rfl, rfl⟩

theorem consume_addr {p : Socks5Request} {addr : List UInt8} (some : addr ≠ [])
    (state : p.state = .daddr) (length : p.addrRead.toNat + addr.length = p.addrLen.toNat)
    (clean : p.atyp = SOCKS5_ATYP_DOMAIN → 0 ∉ addr) :
    ∃ q, consumer.consume p addr = (q, []) ∧ q.state = .dport ∧
      (q.cmd = p.cmd ∧ q.atyp = p.atyp ∧ q.addrLen = p.addrLen) ∧
      q.address = p.dstAddr.take p.addrRead.toNat ++ addr ∧ q.portRead = p.portRead ∧
      q.dstPort = p.dstPort := by
  induction addr generalizing p with
  | nil => exact absurd rfl some
  | cons c addr ih =>
      rw [List.length_cons] at length
      have running : consumer.final p = false := by simp [consumer, stopped, state]
      have allowed : ¬(p.atyp = SOCKS5_ATYP_DOMAIN ∧ c = 0) := by
        rintro ⟨domain, rfl⟩
        exact clean domain (List.mem_cons_self ..)
      have advanced := Socks5Auth.toNat_succ_of_lt
        (show p.addrRead.toNat < p.addrLen.toNat by omega)
      have step : consumer.step p c = p.takeAddr c := by simp [consumer, Socks5Request.step, state]
      rw [consumer.consume_cons running, step]
      simp only [takeAddr, allowed, if_false]
      cases addr with
      | nil =>
          have complete : p.addrRead + 1 = p.addrLen :=
            UInt8.toNat_inj.mp (by rw [advanced, ← length]; simp)
          simp only [complete, if_true]
          refine ⟨_, consumer.consume_nil _, rfl, ⟨rfl, rfl, rfl⟩, ?_, rfl, rfl⟩
          rw [← ByteTable.take_succ_set, address, ← advanced, complete]
      | cons next addr =>
          have more : ¬p.addrRead + 1 = p.addrLen := by
            intro complete
            rw [← complete, advanced] at length
            simp at length
          simp only [more, if_false]
          rcases ih (p := { p with dstAddr := p.dstAddr.set p.addrRead c,
                                   addrRead := p.addrRead + 1 })
            (by simp) state (by simp only [advanced]; omega)
            (fun domain nul => clean domain (List.mem_cons_of_mem _ nul)) with
            ⟨q, consumed, reached, fields, stored, counters⟩
          refine ⟨q, consumed, reached, fields, ?_, counters⟩
          simp only [advanced, ByteTable.take_succ_set] at stored
          simpa using stored

theorem consume_port {p : Socks5Request} (state : p.state = .dport) (portRead : p.portRead = 0)
    (dstPort : p.dstPort = 0) (port : NetPort) :
    consumer.consume p [port.high, port.low] =
      ({ p with state := .done, portRead := 2, dstPort := ntohs port }, []) := by
  have running : consumer.final p = false := by simp [consumer, stopped, state]
  have first : consumer.step p port.high =
      { p with portRead := 1, dstPort := port.high.toUInt16 } := by
    simp [consumer, step, state, takePort, portRead, dstPort]
  have second : consumer.step { p with portRead := 1, dstPort := port.high.toUInt16 } port.low =
      { p with state := .done, portRead := 2, dstPort := ntohs port } := by
    simp [consumer, step, state, takePort, ntohs]
  rw [consumer.consume_cons running, first,
    consumer.consume_cons (by simp [consumer, stopped, state]), second, consumer.consume_nil]

/-- A request is taken whole, and its fields are those of the message. -/
theorem consume_request (old : Socks5Request) {message addr : List UInt8} {cmd atyp : UInt8}
    {port : NetPort} (request : IsRequest message cmd atyp addr port) :
    ∃ p, consumer.consume (requestParserInit old) message = (p, []) ∧ p.state = .done ∧
      p.cmd = cmd ∧ p.atyp = atyp ∧ p.addrLen.toNat = addr.length ∧ p.address = addr ∧
      p.dstPort = ntohs port := by
  rcases request.opening with ⟨front, n, opening, length, clean, rfl⟩
  rcases consume_opening old opening with ⟨p₁, first, state₁, ⟨cmd₁, atyp₁, len₁⟩, read₁, port₁,
    dst₁⟩
  have some : addr ≠ [] := by
    rintro rfl
    cases opening with
    | ipv4 => simp at length
    | ipv6 => simp at length
    | domain _ _ some => exact some (UInt8.toNat_inj.mp (by simpa using length.symm))
  rcases consume_addr some state₁ (by simp [read₁, len₁, length]) (atyp₁ ▸ clean) with
    ⟨p₂, second, state₂, ⟨cmd₂, atyp₂, len₂⟩, stored, port₂, dst₂⟩
  rw [consumer.consume_append_of_running first (by simp [consumer, stopped, state₁]),
    consumer.consume_append_of_running second (by simp [consumer, stopped, state₂]),
    consume_port state₂ (port₂.trans port₁) (dst₂.trans dst₁)]
  refine ⟨_, rfl, rfl, cmd₂.trans cmd₁, atyp₂.trans atyp₁, ?_, ?_, rfl⟩
  · rw [len₂, len₁, length]
  · rw [read₁] at stored
    exact stored

/-- The messages of the request parser. -/
def Message (message : List UInt8) : Prop :=
  ∃ cmd atyp addr port, IsRequest message cmd atyp addr port

/-- An opening, part of an address and enough zeros or letters make a request. -/
theorem Opening.viable {front part : List UInt8} {cmd atyp n : UInt8}
    (opening : Opening front cmd atyp n) (short : part.length ≤ n.toNat)
    (clean : atyp = SOCKS5_ATYP_DOMAIN → 0 ∉ part) :
    Consumer.Viable Message (front ++ part) := by
  let addr := part ++ List.replicate (n.toNat - part.length) 0x61
  have length : addr.length = n.toNat := by
    rw [List.length_append, List.length_replicate]
    omega
  have letters : atyp = SOCKS5_ATYP_DOMAIN → 0 ∉ addr := by
    intro domain nul
    rcases List.mem_append.mp nul with early | late
    · exact clean domain early
    · exact absurd (List.eq_of_mem_replicate late) (by decide)
  have request := opening.isRequest length letters ⟨0, 0⟩
  refine ⟨List.replicate (n.toNat - part.length) 0x61 ++ [0, 0], by simp, cmd, atyp, addr, ⟨0, 0⟩,
    ?_⟩
  simpa [addr] using request

theorem viable_of_consumed {p : Socks5Request} {used : List UInt8}
    (running : consumer.final p = false) (consumed : p.Consumed used) :
    Consumer.Viable Message used := by
  have literal : Consumer.Viable Message
      ([SOCKS5_VERSION, p.cmd, 0, SOCKS5_ATYP_IPV4] ++ []) :=
    (Opening.ipv4 p.cmd).viable (by simp) (by simp)
  cases current : p.state with
  | ver =>
      simp only [Consumed, current] at consumed
      rw [consumed.1]
      exact .of_append _ literal
  | cmd =>
      simp only [Consumed, current] at consumed
      rw [consumed.1]
      exact .of_append [p.cmd, 0, SOCKS5_ATYP_IPV4] literal
  | rsv =>
      simp only [Consumed, current] at consumed
      rw [consumed.1]
      exact .of_append [0, SOCKS5_ATYP_IPV4] literal
  | atyp =>
      simp only [Consumed, current] at consumed
      rw [consumed.1]
      exact .of_append [SOCKS5_ATYP_IPV4] literal
  | dlen =>
      simp only [Consumed, current] at consumed
      have named : Consumer.Viable Message
          ([SOCKS5_VERSION, p.cmd, 0, SOCKS5_ATYP_DOMAIN, 1] ++ []) :=
        (Opening.domain p.cmd 1 (by decide)).viable (by simp) (by simp)
      rw [consumed.1]
      exact .of_append [1] named
  | daddr =>
      simp only [Consumed, current] at consumed
      rcases consumed with ⟨front, opening, rfl, room, clean, -⟩
      exact opening.viable (by simpa using Nat.le_of_lt room) clean
  | dport =>
      simp only [Consumed, current] at consumed
      rcases consumed with ⟨front, opening, clean, ⟨rfl, -⟩ | ⟨high, rfl, -⟩⟩
      · exact opening.viable (by simp [address]) clean
      · have length : p.address.length = p.addrLen.toNat := by simp [address]
        refine ⟨[0], by simp, p.cmd, p.atyp, p.address, ⟨high, 0⟩, ?_⟩
        simpa using opening.isRequest length clean ⟨high, 0⟩
  | done => simp [consumer, stopped, current] at running
  | error => simp [consumer, stopped, current] at running

theorem consumed_init (old : Socks5Request) : (requestParserInit old).Consumed [] :=
  ⟨rfl, rfl, rfl, rfl⟩

theorem recognizes (old : Socks5Request) :
    consumer.Recognizes (requestParserInit old) (fun p => p.state = .done) Message where
  running := rfl
  stops p complete := by simp [consumer, stopped, complete]
  sound used p consumed complete := by
    have reached := consumer.consumed_invariant consumed_step (consumed_init old) consumed
    simp only [List.nil_append, Consumed, complete] at reached
    rcases reached with ⟨port, request, -⟩
    exact ⟨_, _, _, port, request⟩
  complete := by
    rintro message ⟨cmd, atyp, addr, port, request⟩
    rcases consume_request old request with ⟨p, consumed, complete, -⟩
    exact ⟨p, consumed, complete⟩
  viable used p consumed waits := by
    have reached := consumer.consumed_invariant consumed_step (consumed_init old) consumed
    exact viable_of_consumed waits reached

end Socks5Request

/-- The request parser accepts exactly its grammar. However the bytes are cut into pieces, it
completes exactly if they begin with a request, leaves the bytes after it, and holds the fields of
that request; it fails exactly if some byte makes every continuation invalid, and stops right at
that byte; otherwise it takes everything and waits. An address byte is stored below the length of
the address, at most in the last cell but one of the array, and no counter wraps. -/
theorem request_parses_grammar {old p : Socks5Request} {arrived : List UInt8} {b : Buffer}
    (fed : Buffer.FedBy Socks5Request.consumer (requestParserInit old) arrived p b) :
    (∀ p' b', Buffer.FedBy Socks5Request.consumer (requestParserInit old) arrived p' b' →
      p' = p ∧ b'.contents = b.contents) ∧
    (p.state = .done ↔ ∃ message rest cmd atyp addr port, arrived = message ++ rest ∧
      IsRequest message cmd atyp addr port) ∧
    (∀ message rest cmd atyp addr port, arrived = message ++ rest →
      IsRequest message cmd atyp addr port →
        b.contents = rest ∧ p.cmd = cmd ∧ p.atyp = atyp ∧ p.addrLen.toNat = addr.length ∧
          p.address = addr ∧ p.dstPort.toNat = port.high.toNat * 256 + port.low.toNat) ∧
    (∀ rest, p.state = .error ∧ b.contents = rest ↔
      ∃ front c, arrived = front ++ c :: rest ∧ Consumer.Viable Socks5Request.Message front ∧
        ∀ more, ¬Socks5Request.Message (front ++ c :: more)) ∧
    (p.state ≠ .done → p.state ≠ .error →
      b.contents = [] ∧ Consumer.Viable Socks5Request.Message arrived) ∧
    (p.state = .daddr → p.addrRead.toNat < p.addrLen.toNat ∧ p.addrRead.toNat ≤ 254 ∧
      (p.addrRead + 1).toNat = p.addrRead.toNat + 1) ∧
    (p.state = .dport → p.portRead.toNat < 2) := by
  have consumed := fed.consume_eq
  have recognizes := Socks5Request.recognizes old
  have final : Socks5Request.consumer.final p = true ↔ p.state = .done ∨ p.state = .error := by
    simp [Socks5Request.consumer, Socks5Request.stopped]
  rcases Socks5Request.consumer.exists_consumed (requestParserInit old) arrived with
    ⟨used, -, reached⟩
  rw [consumed] at reached
  have invariant := Socks5Request.consumer.consumed_invariant Socks5Request.consumed_step
    (Socks5Request.consumed_init old) reached
  refine ⟨fun p' b' => fed.unique, ?_, ?_, ?_, ?_, ?_, ?_⟩
  · have accepted := recognizes.accepts_iff arrived
    rw [consumed] at accepted
    rw [accepted]
    constructor
    · rintro ⟨message, rest, split, cmd, atyp, addr, port, request⟩
      exact ⟨message, rest, cmd, atyp, addr, port, split, request⟩
    · rintro ⟨message, rest, cmd, atyp, addr, port, split, request⟩
      exact ⟨message, rest, split, cmd, atyp, addr, port, request⟩
  · rintro message rest cmd atyp addr port rfl request
    rcases Socks5Request.consume_request old request with
      ⟨q, whole, complete, sameCmd, sameAtyp, length, stored, sent⟩
    have ahead := Socks5Request.consumer.consume_append_of_final whole
      (recognizes.stops q complete) rest
    rw [consumed, Prod.mk.injEq] at ahead
    rcases ahead with ⟨rfl, left⟩
    exact ⟨left, sameCmd, sameAtyp, length, stored, by rw [sent, toNat_ntohs]⟩
  · intro rest
    have rejected := recognizes.rejects_iff arrived rest
    rw [consumed] at rejected
    rw [← rejected, final]
    constructor
    · rintro ⟨failed, left⟩
      exact ⟨.inr failed, by simp [failed], left⟩
    · rintro ⟨complete | failed, incomplete, left⟩
      · exact absurd complete incomplete
      · exact ⟨failed, left⟩
  · intro incomplete valid
    have waits : Socks5Request.consumer.final
        (Socks5Request.consumer.consume (requestParserInit old) arrived).1 = false := by
      rw [consumed, ← Bool.not_eq_true, final]
      simp [incomplete, valid]
    have rest := Socks5Request.consumer.rest_eq_nil_of_running waits
    rw [consumed] at rest
    exact ⟨rest, (recognizes.waits_iff arrived).mp waits⟩
  · intro current
    simp only [Socks5Request.Consumed, current] at invariant
    rcases invariant with ⟨-, -, -, room, -⟩
    have small := p.addrLen.toNat_lt
    exact ⟨room, by omega, Socks5Auth.toNat_succ_of_lt room⟩
  · intro current
    simp only [Socks5Request.Consumed, current] at invariant
    rcases invariant with ⟨-, -, -, ⟨-, none, -⟩ | ⟨-, -, one, -⟩⟩
    · simp [none]
    · simp [one]

/-- A request for a name, with payload behind it. -/
theorem request_parses_grammar_with_payload :
    ∃ (p : Socks5Request) (b : Buffer),
      Buffer.FedBy Socks5Request.consumer (requestParserInit Socks5Request.zero)
        [0x05, 0x01, 0x00, 0x03, 0x02, 0x68, 0x69, 0x00, 0x50, 0x47] p b ∧
      p.state = .done ∧ b.contents = [0x47] ∧ p.address = [0x68, 0x69] ∧ p.dstPort.toNat = 80 := by
  let b₁ := (Buffer.init 512).store
    [0x05, 0x01, 0x00, 0x03, 0x02, 0x68, 0x69, 0x00, 0x50, 0x47]
  have fed : Buffer.FedBy Socks5Request.consumer (requestParserInit Socks5Request.zero) _ _ _ :=
    .feed (.start (Buffer.init 512) rfl)
      [0x05, 0x01, 0x00, 0x03, 0x02, 0x68, 0x69, 0x00, 0x50, 0x47] b₁ rfl
  have request : IsRequest [0x05, 0x01, 0x00, 0x03, 0x02, 0x68, 0x69, 0x00, 0x50] 0x01
      SOCKS5_ATYP_DOMAIN [0x68, 0x69] ⟨0x00, 0x50⟩ :=
    .domain 0x01 0x02 [0x68, 0x69] ⟨0x00, 0x50⟩ (by decide) rfl (by decide)
  rcases request_parses_grammar fed with ⟨-, done, fields, -⟩
  rcases fields _ [0x47] _ _ _ _ rfl request with ⟨left, -, -, -, stored, sent⟩
  exact ⟨_, _, fed, done.mpr ⟨_, [0x47], _, _, _, _, rfl, request⟩, left, stored, sent⟩

end SocksProxy
