import SocksProxy.Guarantees.Connecting
import SocksProxy.Server.Grammars

/-!
# Replies and their causes

The reply to a request carries a code. Its cause is found by the parser, by the
check of the command or by the attempts to connect, at different times and in
whatever pieces the request arrives; the results here say which code the client
is told for which cause, read off the bytes it sent and what became of the
candidates.
-/

namespace SocksProxy

open History

/-- The stream neither begins with a request nor is the beginning of one. -/
def Malformed (stream : List UInt8) : Prop :=
  (∀ message rest, stream = message ++ rest → ¬Socks5Request.Message message) ∧
    ¬Consumer.Viable Socks5Request.Message stream

/-- The header of a CONNECT request with an address type that is none of the three. -/
def UnknownAddress (stream : List UInt8) : Prop :=
  ∃ atyp rest, stream = 0x05 :: 0x01 :: 0x00 :: atyp :: rest ∧
    atyp ≠ 0x01 ∧ atyp ≠ 0x03 ∧ atyp ≠ 0x04

/-- The code for an error of `connect()`. -/
def connectCode : Errno → UInt8
  | .econnrefused => 0x05
  | .enetunreach => 0x03
  | .ehostunreach => 0x04
  | .etimedout => 0x06
  | _ => 0x01

/-- The reply to the request in `stream` carries the code of its cause. -/
structure Reported (early : List Obs) (stream : List UInt8) (rep : UInt8) : Prop where
  unknown : UnknownAddress stream → rep = 0x08
  malformed : Malformed stream → ¬UnknownAddress stream → rep = 0x01
  unsupported : ∀ message rest cmd atyp addr port, stream = message ++ rest →
    IsRequest message cmd atyp addr port → cmd ≠ 0x01 → rep = 0x07
  granted : ∀ message rest atyp addr port, stream = message ++ rest →
    IsRequest message 0x01 atyp addr port →
    ∀ target fails, trials early = (target, .succeeded) :: fails →
      (∀ name, .named name ∈ early → name.bind (addrReply SOCKS5_REP_SUCCESS) ≠ none) → rep = 0x00
  failed : ∀ message rest atyp addr port, stream = message ++ rest →
    IsRequest message 0x01 atyp addr port →
    ∀ target error fails, trials early = (target, .failed error) :: fails → rep = connectCode error

theorem repFromErrno_eq (error : Errno) : repFromErrno (some error) = connectCode error := by
  cases error <;> rfl

/-- A request that was parsed holds the fields of the message it was parsed from. -/
theorem Socks5Request.cmd_of_parsed {stream message rest addr : List UInt8} {cmd atyp : UInt8}
    {port : NetPort} {r : Socks5Request}
    (parsed : (consumer.consume (requestParserInit Socks5Request.zero) stream).1 = r)
    (split : stream = message ++ rest) (request : IsRequest message cmd atyp addr port) :
    r.state = .done ∧ r.cmd = cmd := by
  rcases consume_request Socks5Request.zero request with ⟨q, whole, complete, sameCmd, -⟩
  have ahead := consumer.consume_append_of_final whole
    ((recognizes Socks5Request.zero).stops q complete) rest
  rw [split, ahead] at parsed
  obtain rfl : q = r := parsed
  exact ⟨complete, sameCmd⟩

theorem Socks5Request.error_of_malformed {stream : List UInt8} {r : Socks5Request}
    (parsed : (consumer.consume (requestParserInit Socks5Request.zero) stream).1 = r)
    (malformed : Malformed stream) : r.state = .error := by
  have accepted := (recognizes Socks5Request.zero).accepts_iff stream
  have waits := (recognizes Socks5Request.zero).waits_iff stream
  rw [parsed] at accepted waits
  have incomplete : ¬r.state = .done := fun complete => by
    rcases accepted.mp complete with ⟨message, rest, split, member⟩
    exact malformed.1 message rest split member
  have final : consumer.final r = true := by
    by_contra running
    exact malformed.2 (waits.mp (by simpa using running))
  simpa [consumer, stopped, incomplete] using final

/-- What a session has made of the request in the stream it was heard from. -/
theorem Session.Grounds.reported {early : List Obs} {request : Socks5Request}
    {untried : List Sockaddr} {rep : UInt8} {lead stream : List UInt8}
    (answer : Session.Grounds early request untried rep)
    (heard : Session.Heard early request lead stream) (known : ¬UnknownAddress stream) :
    Reported early stream rep := by
  have parsed := heard.parsed
  have complete : ∀ {message rest cmd atyp addr port}, stream = message ++ rest →
      IsRequest message cmd atyp addr port → request.state = .done ∧ request.cmd = cmd :=
    fun split request => Socks5Request.cmd_of_parsed parsed split request
  refine ⟨fun unknown => absurd unknown known, fun malformed _ => ?_, ?_, ?_, ?_⟩
  · have invalid := Socks5Request.error_of_malformed parsed malformed
    cases answer with
    | malformed => rfl
    | unsupported complete => simp [complete] at invalid
    | unresolved connects | granted connects | unnamed connects | unusable connects
    | exhausted connects | expired connects => simp [connects.1] at invalid
  · intro message rest cmd atyp addr port split request other
    rcases complete split request with ⟨done, rfl⟩
    cases answer with
    | malformed invalid => simp [done] at invalid
    | unsupported => rfl
    | unresolved connects | granted connects | unnamed connects | unusable connects
    | exhausted connects | expired connects => exact absurd connects.2 other
  · intro message rest atyp addr port split request target fails reached named
    cases answer with
    | granted => rfl
    | unnamed _ _ _ _ name told useless => exact absurd useless (named name told)
    | malformed _ idle | unsupported _ _ idle | unresolved _ idle => simp [idle] at reached
    | unusable _ _ _ tried | exhausted _ _ _ _ tried | expired _ _ _ tried =>
        simp [tried] at reached
  · intro message rest atyp addr port split request target error fails failed
    cases answer with
    | exhausted _ _ error' _ tried =>
        obtain rfl : error' = error := by simp_all
        exact repFromErrno_eq error'
    | malformed _ idle | unsupported _ _ idle | unresolved _ idle => simp [idle] at failed
    | granted _ _ _ tried | unnamed _ _ _ tried | unusable _ _ _ tried | expired _ _ _ tried =>
        simp [tried] at failed

theorem Session.Grounds.code_ne {early : List Obs} {request : Socks5Request}
    {untried : List Sockaddr} {rep : UInt8} (answer : Session.Grounds early request untried rep) :
    rep ≠ 0x08 := by
  cases answer with
  | exhausted _ _ error => cases error <;> decide
  | malformed | unsupported | unresolved | granted | unnamed | unusable | expired => decide

/-- A connection that reads its request and has not answered it was sent the beginning of a request,
or a complete CONNECT. -/
theorem AtRest.heard {trusted : Prop} {c : Conn} {e : Ends} (rest : AtRest trusted c e)
    (served : c.session.Served) (unanswered : verdict c.hist = none) :
    ∃ lead stream, Session.Preamble c.hist lead ∧ received c.hist = lead ++ stream ∧
      (Consumer.Viable Socks5Request.Message stream ∨
        ∃ message rest atyp addr port, stream = message ++ rest ∧
          IsRequest message 0x01 atyp addr port) := by
  have stage := rest.reachable.invariant.2
  have recognizes := Socks5Request.recognizes Socks5Request.zero
  have replied : ∀ {rep reply ds}, decisions c.hist ≠ .replied rep reply :: ds := by
    intro rep reply ds decided
    rcases verdict_of_decided decided with ⟨early, found⟩
    simp [unanswered] at found
  have connects : c.session.Connecting → ∃ lead stream, Session.Preamble c.hist lead ∧
      received c.hist = lead ++ stream ∧ (Consumer.Viable Socks5Request.Message stream ∨
        ∃ message rest atyp addr port, stream = message ++ rest ∧
          IsRequest message 0x01 atyp addr port) := by
    intro connecting
    rcases (stage.unanswered connecting).heard with ⟨lead, stream, heard⟩
    rcases stage.requested connecting with ⟨complete, cmd⟩
    have accepted := recognizes.accepts_iff stream
    rw [heard.parsed] at accepted
    rcases accepted.mp complete with ⟨message, left, split, cmd', atyp, addr, port, request⟩
    obtain rfl : c.session.request.cmd = cmd' :=
      (Socks5Request.cmd_of_parsed heard.parsed split request).2
    rw [cmd] at request
    exact ⟨lead, stream, heard.preamble, heard.received,
      .inr ⟨message, left, atyp, addr, port, split, request⟩⟩
  rcases served with phase | phase | phase | phase | phase
  · have current : c.current = some .reqRead := phase
    rcases rest.drained _ current rfl with ⟨hungry, drained⟩
    have running : c.request.stopped = false := by
      simpa [Session.Hungry, Conn.session, current] using hungry
    simp only [Session.Stage, phase] at stage
    rcases stage with ⟨-, input, admitted, asked⟩
    have unread : c.session.unread = [] := drained
    rw [Session.Asked, unread, Socks5Request.consumer.consume_nil] at asked
    rcases admitted.heard (congrArg Prod.fst asked) with ⟨lead, heard⟩
    refine ⟨lead, input, heard.preamble, heard.received, .inl ?_⟩
    refine (recognizes.waits_iff input).mp ?_
    rw [asked]
    exact running
  · exact connects (.inr (.inl phase))
  · exact connects (.inr (.inr phase))
  · simp only [Session.Stage, phase] at stage
    rcases stage with ⟨-, ds, input, rep, reply, -, -, decided, -⟩
    exact absurd decided replied
  · simp only [Session.Stage, phase] at stage
    rcases stage with ⟨-, ds, input, reply, -, -, decided, -⟩
    exact absurd decided replied

namespace World

/-- A client that asks for an unknown type of address. -/
def misaddressed : List Event :=
  [.read 4 { quiet with recvs := [.data [5, 1, 0]] },
    .write 4 { quiet with sends := [.taken 9] },
    .read 4 { quiet with recvs := [.data [5, 1, 0, 2]] }]

/-- Whether the only decision so far was to ask for no credentials. -/
def admittedFreely (early : List Obs) : Bool :=
  match decisions early with
  | [.chose method _] => method = SOCKS5_METHOD_NOAUTH
  | _ => false

theorem decisions_of_admittedFreely {early : List Obs} (passed : admittedFreely early = true) :
    ∃ store, decisions early = [.chose SOCKS5_METHOD_NOAUTH store] := by
  unfold admittedFreely at passed
  split at passed
  · next method store decided =>
      obtain rfl : method = SOCKS5_METHOD_NOAUTH := of_decide_eq_true passed
      exact ⟨store, decided⟩
  · cases passed

/-- An unknown type of address is reported as a general failure. -/
theorem unknown_address_reported_as_general_failure :
    ∃ (w : World) (cell : Cell) (early : List Obs) (lead stream : List UInt8),
      w.Reachable ∧ w.heap 0 = some cell ∧ verdict cell.conn.hist = some (0x01, early) ∧
      Session.Preamble early lead ∧ received early = lead ++ stream ∧ UnknownAddress stream ∧
      ¬Reported early stream 0x01 := by
  have ended : endsWith (arrival ++ misaddressed) (verdictTest 0 fun _ rep early => rep = 0x01 &&
      received early = [5, 1, 0, 5, 1, 0, 2] && admittedFreely early) = true := by
    decide +kernel
  rcases exists_of_endsWith ended with ⟨w, reachable, passed⟩
  rcases exists_of_verdictTest passed with ⟨cell, rep, early, found, answered, holds⟩
  simp only [Bool.and_eq_true, decide_eq_true_eq] at holds
  rcases holds with ⟨⟨rfl, arrived⟩, admitted⟩
  rcases decisions_of_admittedFreely admitted with ⟨store, decided⟩
  have unknown : UnknownAddress [5, 1, 0, 2] :=
    ⟨2, [], rfl, by decide, by decide, by decide⟩
  refine ⟨w, cell, early, [5, 1, 0], [5, 1, 0, 2], reachable, found, answered,
    .noauth store _ [0] decided ⟨1, rfl, rfl⟩, arrived, unknown, fun reported => ?_⟩
  exact absurd (reported.unknown unknown) (by decide)

/-- The reply to a request carries the code of its cause exactly if the client did not ask for an
unknown type of address. In every run, a reply was given for the stream the client sent after its
greeting and its credentials, and whether it is the one `Reported` says for that stream and what
became of the candidates depends on the type of address alone; and a connection at rest that has not
replied was sent only the beginning of a request, or a complete CONNECT whose candidates are being
tried. -/
theorem replies_tell_cause {w : World} (reachable : w.Reachable) :
    (∀ k cell, w.heap k = some cell → ∀ rep early, verdict cell.conn.hist = some (rep, early) →
      ∃ lead stream, Session.Preamble early lead ∧ received early = lead ++ stream ∧
        (Reported early stream rep ↔ ¬UnknownAddress stream)) ∧
    (w.mode = .running → ∀ k c, w.heap k = some (.live c) →
      c.session.Served → verdict c.hist = none →
        ∃ lead stream, Session.Preamble c.hist lead ∧ received c.hist = lead ++ stream ∧
          (Consumer.Viable Socks5Request.Message stream ∨
            ∃ message rest atyp addr port, stream = message ++ rest ∧
              IsRequest message 0x01 atyp addr port)) := by
  refine ⟨fun k cell found rep early answered => ?_,
    fun running k c found served unanswered => ?_⟩
  · rcases (reachable.ok.session found).search.explained rep early answered with
      ⟨-, ⟨lead, stream, heard⟩, answer⟩
    exact ⟨lead, stream, heard.preamble, heard.received,
      fun reported unknown => answer.code_ne (reported.unknown unknown), answer.reported heard⟩
  · rcases reachable.ok.atRest found (.inl running) with ⟨e, rest⟩
    exact rest.heard served unanswered

/-- The request for a name whose second address cannot be reached. -/
theorem replies_tell_cause_after_disappointment :
    ∃ (w : World) (cell : Cell) (early : List Obs), w.Reachable ∧ w.heap 0 = some cell ∧
      verdict cell.conn.hist = some (0x04, early) ∧
      Reported early [5, 1, 0, 3, 2, 104, 105, 0, 80] 0x04 := by
  have ended : endsWith (arrival ++ inquiry ++ disappointment)
      (verdictTest 0 fun _ rep early => rep = 0x04 &&
        received early = [5, 1, 0, 5, 1, 0, 3, 2, 104, 105, 0, 80] && admittedFreely early) =
        true := by
    decide +kernel
  rcases exists_of_endsWith ended with ⟨w, reachable, passed⟩
  rcases exists_of_verdictTest passed with ⟨cell, rep, early, found, answered, holds⟩
  simp only [Bool.and_eq_true, decide_eq_true_eq] at holds
  rcases holds with ⟨⟨rfl, arrived⟩, admitted⟩
  rcases decisions_of_admittedFreely admitted with ⟨store, chosen⟩
  refine ⟨w, cell, early, reachable, found, answered, ?_⟩
  rcases (replies_tell_cause reachable).1 0 cell found 0x04 early answered with
    ⟨lead, stream, preamble, split, reported⟩
  rw [arrived] at split
  cases preamble with
  | userpass _ _ _ _ _ _ _ decided =>
      rw [chosen] at decided
      cases decided
  | noauth _ _ methods _ greeted =>
      rcases greeted with ⟨n, rfl, length⟩
      rcases List.cons.inj split with ⟨-, counted⟩
      rcases List.cons.inj counted with ⟨rfl, offered⟩
      rcases List.length_eq_one_iff.mp length with ⟨method, rfl⟩
      rcases List.cons.inj offered with ⟨-, rfl⟩
      refine reported.mpr ?_
      rintro ⟨atyp, rest, same, -, other, -⟩
      simp only [List.cons.injEq] at same
      exact other same.2.2.2.1.symm

end World

end SocksProxy
