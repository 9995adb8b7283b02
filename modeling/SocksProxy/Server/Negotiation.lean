import SocksProxy.Shared.Buffer

/-!
# Method negotiation

`negotiation.c`: the parser of the SOCKS5 greeting `VER NMETHODS METHODS` and
the choice of the authentication method. The parser is a byte consumer; its
progress lives in `NegotiationParser`, so it tolerates any cut of the message.
-/

namespace SocksProxy

def SOCKS5_VERSION : UInt8 := 0x05

def SOCKS5_METHOD_NOAUTH : UInt8 := 0x00

def SOCKS5_METHOD_USERPASS : UInt8 := 0x02

def SOCKS5_METHOD_NONE : UInt8 := 0xFF

/-- `neg_state`. -/
inductive NegState where
  | version
  | nmethods
  | methods
  | done
  | invalid
  deriving DecidableEq, Repr

/-- `struct negotiation_parser`. -/
structure NegotiationParser where
  state : NegState
  pendingMethods : UInt8
  hasUserpass : Bool
  hasNoauth : Bool
  deriving DecidableEq, Repr

/-- `negotiation_parser_init`. -/
def negotiationParserInit : NegotiationParser where
  state := .version
  pendingMethods := 0
  hasUserpass := false
  hasNoauth := false

namespace NegotiationParser

/-- Record an offered method; methods other than the two known ones are ignored. -/
def noteMethod (p : NegotiationParser) (c : UInt8) : NegotiationParser :=
  if c = SOCKS5_METHOD_USERPASS then { p with hasUserpass := true }
  else if c = SOCKS5_METHOD_NOAUTH then { p with hasNoauth := true }
  else p

/-- `if (--p->pending_methods == 0) p->state = NEG_DONE`. -/
def countMethod (p : NegotiationParser) : NegotiationParser :=
  if p.pendingMethods - 1 = 0 then
    { p with pendingMethods := p.pendingMethods - 1, state := .done }
  else { p with pendingMethods := p.pendingMethods - 1 }

/-- The body of the `switch` in `negotiation_parser_feed`. -/
def step (p : NegotiationParser) (c : UInt8) : NegotiationParser :=
  match p.state with
  | .version => { p with state := if c = SOCKS5_VERSION then .nmethods else .invalid }
  | .nmethods =>
      { p with pendingMethods := c, state := if c = 0 then .done else .methods }
  | .methods => (p.noteMethod c).countMethod
  | .done | .invalid => p

/-- The loop of `negotiation_parser_feed` stops on a complete or an invalid greeting. -/
def stopped (p : NegotiationParser) : Bool := p.state = .done || p.state = .invalid

/-- The greeting parser as a byte consumer. -/
def consumer : Consumer NegotiationParser UInt8 where
  step := step
  final := stopped

end NegotiationParser

/-- `negotiation_parser_feed`. -/
def negotiationParserFeed (p : NegotiationParser) (b : Buffer) : NegotiationParser × Buffer :=
  b.feed NegotiationParser.consumer p

/-- The method `fill_negotiation_reply` chooses. -/
def negotiationMethod (p : NegotiationParser) (requireAuth : Bool) : UInt8 :=
  if requireAuth then
    if p.hasUserpass then SOCKS5_METHOD_USERPASS else SOCKS5_METHOD_NONE
  else
    if p.hasNoauth then SOCKS5_METHOD_NOAUTH else SOCKS5_METHOD_NONE

/-- `fill_negotiation_reply`. -/
def fillNegotiationReply (p : NegotiationParser) (b : Buffer) (requireAuth : Bool) :
    UInt8 × Buffer :=
  let method := negotiationMethod p requireAuth
  (method, (b.writeByte SOCKS5_VERSION).writeByte method)

/-- The greeting offering `methods`: version, count and that many method bytes. -/
def IsGreeting (message methods : List UInt8) : Prop :=
  ∃ n : UInt8, message = SOCKS5_VERSION :: n :: methods ∧ methods.length = n.toNat

namespace NegotiationParser

/-- What each parser state says about the bytes consumed so far. -/
def Consumed (p : NegotiationParser) (used : List UInt8) : Prop :=
  match p.state with
  | .version => used = [] ∧ p.hasNoauth = false ∧ p.hasUserpass = false
  | .nmethods => used = [SOCKS5_VERSION] ∧ p.hasNoauth = false ∧ p.hasUserpass = false
  | .methods =>
      ∃ (n : UInt8) (methods : List UInt8), used = SOCKS5_VERSION :: n :: methods ∧
        methods.length + p.pendingMethods.toNat = n.toNat ∧ 0 < p.pendingMethods.toNat ∧
        (p.hasNoauth = true ↔ SOCKS5_METHOD_NOAUTH ∈ methods) ∧
        (p.hasUserpass = true ↔ SOCKS5_METHOD_USERPASS ∈ methods)
  | .done =>
      ∃ methods, IsGreeting used methods ∧
        (p.hasNoauth = true ↔ SOCKS5_METHOD_NOAUTH ∈ methods) ∧
        (p.hasUserpass = true ↔ SOCKS5_METHOD_USERPASS ∈ methods)
  | .invalid => True

theorem noteMethod_state (p : NegotiationParser) (c : UInt8) :
    (p.noteMethod c).state = p.state ∧ (p.noteMethod c).pendingMethods = p.pendingMethods := by
  unfold noteMethod
  split
  · exact ⟨rfl, rfl⟩
  · split <;> exact ⟨rfl, rfl⟩

theorem noteMethod_flags (p : NegotiationParser) (c : UInt8) :
    ((p.noteMethod c).hasNoauth = true ↔ p.hasNoauth = true ∨ SOCKS5_METHOD_NOAUTH = c) ∧
      ((p.noteMethod c).hasUserpass = true ↔
        p.hasUserpass = true ∨ SOCKS5_METHOD_USERPASS = c) := by
  by_cases userpass : c = SOCKS5_METHOD_USERPASS
  · subst userpass
    simp [noteMethod, SOCKS5_METHOD_NOAUTH, SOCKS5_METHOD_USERPASS]
  · by_cases noauth : c = SOCKS5_METHOD_NOAUTH
    · subst noauth
      simp [noteMethod, SOCKS5_METHOD_NOAUTH, SOCKS5_METHOD_USERPASS]
    · simp [noteMethod, userpass, noauth, Ne.symm userpass, Ne.symm noauth]

theorem consumed_countMethod {p : NegotiationParser} {n : UInt8} {methods : List UInt8}
    (state : p.state = .methods) (count : methods.length + p.pendingMethods.toNat = n.toNat + 1)
    (positive : 0 < p.pendingMethods.toNat)
    (noauth : p.hasNoauth = true ↔ SOCKS5_METHOD_NOAUTH ∈ methods)
    (userpass : p.hasUserpass = true ↔ SOCKS5_METHOD_USERPASS ∈ methods) :
    p.countMethod.Consumed (SOCKS5_VERSION :: n :: methods) := by
  have decremented : (p.pendingMethods - 1).toNat = p.pendingMethods.toNat - 1 := by
    apply UInt8.toNat_sub_of_le
    rw [UInt8.le_iff_toNat_le]
    exact positive
  by_cases last : p.pendingMethods - 1 = 0
  · have zero : p.pendingMethods.toNat - 1 = 0 := by
      rw [← decremented, last]
      rfl
    simp only [countMethod, last, if_true, Consumed]
    exact ⟨methods, ⟨n, rfl, by omega⟩, noauth, userpass⟩
  · have more : p.pendingMethods.toNat - 1 ≠ 0 := by
      intro zero
      apply last
      rw [← UInt8.toNat_inj, decremented, zero]
      rfl
    simp only [countMethod, last, if_false, Consumed, state]
    exact ⟨n, methods, rfl, by omega, by omega, noauth, userpass⟩

theorem consumed_step (p : NegotiationParser) (used : List UInt8) (c : UInt8)
    (running : consumer.final p = false) (before : p.Consumed used) :
    (p.step c).Consumed (used ++ [c]) := by
  unfold Consumed at before
  unfold step
  cases current : p.state with
  | version =>
      rw [current] at before
      rcases before with ⟨rfl, noauth, userpass⟩
      by_cases version : c = SOCKS5_VERSION
      · simp [Consumed, version, noauth, userpass]
      · simp [Consumed, version]
  | nmethods =>
      rw [current] at before
      rcases before with ⟨rfl, noauth, userpass⟩
      by_cases none : c = 0
      · simp [Consumed, IsGreeting, none, noauth, userpass]
      · have positive : 0 < c.toNat := by
          rw [Nat.pos_iff_ne_zero]
          intro zero
          exact none (UInt8.toNat_inj.mp (by simpa using zero))
        simp [Consumed, none, noauth, userpass, positive]
  | methods =>
      rw [current] at before
      rcases before with ⟨n, methods, rfl, count, positive, noauth, userpass⟩
      have kept := p.noteMethod_state c
      have flags := p.noteMethod_flags c
      simp only [List.cons_append]
      apply consumed_countMethod
      · rw [kept.1, current]
      · rw [kept.2, List.length_append, List.length_singleton]
        omega
      · rw [kept.2]
        exact positive
      · rw [flags.1, noauth]
        simp
      · rw [flags.2, userpass]
        simp
  | done => simp [consumer, stopped, current] at running
  | invalid => simp [consumer, stopped, current] at running

/-- A completed parser has consumed a greeting and remembers which methods it offered. -/
theorem greeting_of_done {used : List UInt8} {p : NegotiationParser}
    (consumed : consumer.consume negotiationParserInit used = (p, []))
    (complete : p.state = .done) :
    ∃ methods, IsGreeting used methods ∧
      (p.hasNoauth = true ↔ SOCKS5_METHOD_NOAUTH ∈ methods) ∧
      (p.hasUserpass = true ↔ SOCKS5_METHOD_USERPASS ∈ methods) := by
  have initially : Consumed negotiationParserInit [] := by simp [Consumed, negotiationParserInit]
  have reached := consumer.consumed_invariant consumed_step initially consumed
  simpa [Consumed, complete] using reached

end NegotiationParser

end SocksProxy
