import SocksProxy.Client.Wire
import SocksProxy.Management.Announcements
import SocksProxy.Management.Parameters

/-!
# Client and server in lockstep

The two ends of a management session together. The client tells from the status
line alone how many lines it has to read: an error has none after it, nor has a
success unless its text is a number, which is their count. The server announces
its data lines that way, and what it lists can neither break a line nor fill the
buffer of the client. So a call reads what the server has answered to it, to the
last byte, and the next call finds nothing left over.
-/

namespace SocksProxy

open Prog ClientM

/-! ## Reading lines -/

/-- What `recv()` returns while some bytes arrive. It is asked for one byte at a time, so that the
pieces in which they come cannot be told apart; it may be interrupted before any of them. -/
inductive Delivers : List RecvReturn → List UInt8 → Prop where
  | nil : Delivers [] []
  | byte {recvs : List RecvReturn} {bytes : List UInt8} (c : UInt8)
      (later : Delivers recvs bytes) : Delivers (.byte c :: recvs) (c :: bytes)
  | interrupted {recvs : List RecvReturn} {bytes : List UInt8}
      (later : Delivers recvs bytes) : Delivers (.interrupted :: recvs) bytes

theorem Delivers.append {recvs recvs' : List RecvReturn} {bytes bytes' : List UInt8}
    (first : Delivers recvs bytes) (second : Delivers recvs' bytes') :
    Delivers (recvs ++ recvs') (bytes ++ bytes') := by
  induction first with
  | nil => exact second
  | byte c _ ih => exact .byte c ih
  | interrupted _ ih => exact .interrupted ih

/-- A line that the client reads as it is. -/
structure Readable (line : List UInt8) : Prop where
  clean : CleanLine line
  nulFree : 0 ∉ line
  short : line.length + 1 < SMCP_LINE_MAX

theorem readLineLoop_delivers {cap : Nat} {buf line rest stream : List UInt8}
    {recvs : List RecvReturn} (delivers : Delivers recvs stream)
    (split : stream = line ++ LF :: rest) (unended : LF ∉ line)
    (room : buf.length + line.length + 1 < cap) :
    ∃ left, Delivers left rest ∧ ∀ later, readLineLoop cap buf (recvs ++ later) =
      some (.line (cText (Line.chomp (buf ++ line))), left ++ later) := by
  induction delivers generalizing buf line with
  | nil => simp at split
  | interrupted _ ih =>
      rcases ih split unended room with ⟨left, remains, read⟩
      refine ⟨left, remains, fun later => ?_⟩
      rw [List.cons_append, readLineLoop, if_pos (by omega)]
      exact read later
  | @byte recvs _ c remains ih =>
      cases line with
      | nil =>
          rcases List.cons.inj split with ⟨rfl, rfl⟩
          refine ⟨recvs, remains, fun later => ?_⟩
          rw [List.cons_append, readLineLoop, if_pos (by omega)]
          simp
      | cons first line =>
          rcases List.cons.inj split with ⟨rfl, same⟩
          rw [List.mem_cons, not_or] at unended
          have room' : (buf ++ [c]).length + line.length + 1 < cap := by
            simp only [List.length_append, List.length_cons, List.length_nil] at room ⊢
            omega
          rcases ih same unended.2 room' with ⟨left, remains, read⟩
          refine ⟨left, remains, fun later => ?_⟩
          rw [List.cons_append, readLineLoop, if_pos (by omega)]
          simp only [if_neg (Ne.symm unended.1)]
          rw [read later, List.append_assoc, List.singleton_append]

theorem readLine_delivers {line rest : List UInt8} {recvs : List RecvReturn}
    (delivers : Delivers recvs (line ++ LF :: rest)) (readable : Readable line) :
    ∃ left, Delivers left rest ∧ ∀ (client : Client) later, client.recvs = recvs ++ later →
      readLine client = .ok (some line, { client with recvs := left ++ later }) := by
  have room : ([] : List UInt8).length + line.length + 1 < SMCP_LINE_MAX := by
    simpa using readable.short
  rcases readLineLoop_delivers delivers rfl readable.clean.1 room with ⟨left, remains, read⟩
  refine ⟨left, remains, fun client later given => ?_⟩
  have whole : cText (Line.chomp ([] ++ line)) = line := by
    rw [List.nil_append, Line.chomp, if_neg readable.clean.2, cText, List.takeWhile_eq_self_iff]
    intro c member
    rw [bne_iff_ne]
    rintro rfl
    exact readable.nulFree member
  have loop := read later
  rw [← given, whole] at loop
  rw [readLine, get_bind_apply, loop]
  rfl

/-! ## Reading responses -/

/-- The data lines as they are printed. -/
def listing (verbose : Bool) (data : List (List UInt8)) : List UInt8 :=
  (data.map fun line => (if verbose then ascii "  " else []) ++ line ++ ascii "\n").flatten

theorem readData_delivers (verbose : Bool) {data : List (List UInt8)} {rest : List UInt8}
    {recvs : List RecvReturn} (delivers : Delivers recvs (Framing.join LF data ++ rest))
    (readable : ∀ line ∈ data, Readable line) :
    ∃ left, Delivers left rest ∧ ∀ (client : Client) later, client.recvs = recvs ++ later →
      readData verbose data.length client = .ok (true,
        { client with recvs := left ++ later, out := client.out ++ listing verbose data }) := by
  induction data generalizing recvs with
  | nil =>
      refine ⟨recvs, delivers, fun client later given => ?_⟩
      rw [← given, listing, List.map_nil, List.flatten_nil, List.append_nil]
      rfl
  | cons line data ih =>
      rw [List.forall_mem_cons] at readable
      have split : Framing.join LF (line :: data) ++ rest =
          line ++ LF :: (Framing.join LF data ++ rest) := by
        simp [Framing.join]
      rw [split] at delivers
      rcases readLine_delivers delivers readable.1 with ⟨middle, remains, first⟩
      rcases ih remains readable.2 with ⟨left, drained, others⟩
      refine ⟨left, drained, fun client later given => ?_⟩
      rw [List.length_cons, readData, bind_of_ok (first client later given)]
      simp only [printOut]
      rw [modify_bind_apply, others _ later rfl]
      simp [listing]

/-- What a status line makes the client print. -/
def headline (verbose : Bool) (status : List UInt8) : List UInt8 :=
  if (ascii "-ERR ").isPrefixOf status then []
  else if (smcpParseCountStatus status).isSome then
    if verbose then ascii "  " ++ status ++ ascii "\n" else []
  else plainText verbose status

/-- What a status line makes the client complain. -/
def complaint (verbose : Bool) (status : List UInt8) : List UInt8 :=
  if (ascii "-ERR ").isPrefixOf status then
    (if verbose then status else status.drop 5) ++ ascii "\n"
  else []

namespace Response

/-- What the call returns for a response. -/
def result (r : Response) : SmcpResult :=
  if (ascii "-ERR ").isPrefixOf r.status then .rejected else .ok

end Response

theorem not_greeting {c : UInt8} (other : c ≠ 0x53) (text : List UInt8) :
    (ascii "+OK SMCP ").isPrefixOf (ascii "+OK " ++ c :: text) = false := by
  simp [ascii, List.isPrefixOf, Ne.symm other]

theorem smcpParseCountStatus_decimal {n : Nat} (small : n < 2 ^ 64) :
    smcpParseCountStatus (ascii "+OK " ++ decimal n) = some n := by
  have digits : ∀ c ∈ decimal n, isDigit c = true := fun c member => isDigit_of_mem_decimal member
  have first : (decimal n).head?.any isDigit = true := by
    rcases List.exists_cons_of_ne_nil (decimal_ne_nil n) with ⟨c, rest, same⟩
    rw [same] at digits ⊢
    exact digits c (List.mem_cons_self ..)
  have read : strtoul (decimal n) = ⟨n, [], false⟩ := by
    have numeral : Numeral (decimal n) [] .none (decimal n) :=
      ⟨rfl, by simp, decimal_ne_nil n, digits⟩
    rw [numeral.strtoul_eq, digitsValue_decimal, if_neg (Nat.not_le.mpr small)]
    rfl
  have split : (ascii "+OK " ++ decimal n).drop 4 = decimal n := rfl
  have begins : (ascii "+OK ").isPrefixOf (ascii "+OK " ++ decimal n) = true :=
    List.isPrefixOf_iff_prefix.mpr (List.prefix_append _ _)
  simp [smcpParseCountStatus, split, begins, first, read]

theorem smcpParseCountStatus_plain {c : UInt8} (word : isDigit c = false) (text : List UInt8) :
    smcpParseCountStatus (ascii "+OK " ++ c :: text) = none := by
  simp [smcpParseCountStatus, ascii, word]

namespace Response

variable {r : Response}

theorem Announced.begins (announced : r.Announced) :
    r.result = .ok ∧ ascii "+OK" <+: r.status ∨ r.result = .rejected ∧
      ascii "-ERR" <+: r.status := by
  cases announced with
  | error text status =>
      refine .inr ⟨?_, ?_⟩
      · rw [result, status, if_pos (List.isPrefixOf_iff_prefix.mpr (List.prefix_append _ _))]
      · rw [status]
        exact ⟨ascii " " ++ text, rfl⟩
  | count status =>
      refine .inl ⟨?_, ?_⟩
      · rw [result, status]
        rfl
      · rw [status]
        exact ⟨ascii " " ++ decimal r.data.length, rfl⟩
  | plain c text status =>
      refine .inl ⟨?_, ?_⟩
      · rw [result, status]
        rfl
      · rw [status]
        exact ⟨ascii " " ++ c :: text, rfl⟩

theorem status_prefix_bytes (r : Response) : r.status <+: r.bytes :=
  ⟨LF :: Framing.join LF r.data, by simp [bytes, lines, Framing.join]⟩

theorem Announced.result_iff (announced : r.Announced) :
    (r.result = .ok ↔ ascii "+OK" <+: r.bytes) ∧ (r.result = .rejected ↔ ascii "-ERR" <+: r.bytes) ∧
      (ascii "+OK" <+: r.bytes ↔ ascii "+OK" <+: r.status) := by
  rcases announced.begins with ⟨returned, begins⟩ | ⟨returned, begins⟩
  · have success := begins.trans r.status_prefix_bytes
    have failure := not_refused_of_begins success
    simp [returned, success, failure, begins]
  · have failure := begins.trans r.status_prefix_bytes
    have success : ¬ascii "+OK" <+: r.bytes := fun success => not_refused_of_begins success failure
    have other : ¬ascii "+OK" <+: r.status := fun begun =>
      success (begun.trans r.status_prefix_bytes)
    simp [returned, success, failure, other]

/-- A status line that is read makes the client read the data lines it announces. -/
theorem readResponse_delivers (verbose : Bool) {recvs : List RecvReturn} (announced : r.Announced)
    (readable : ∀ line ∈ r.data, Readable line) (few : r.data.length < 2 ^ 64)
    (delivers : Delivers recvs (Framing.join LF r.data)) :
    ∃ left, Delivers left [] ∧ ∀ (client : Client) later, client.recvs = recvs ++ later →
      readResponse verbose r.status client = .ok (r.result,
        { client with
          recvs := left ++ later
          out := client.out ++ headline verbose r.status ++ listing verbose r.data
          err := client.err ++ complaint verbose r.status }) := by
  cases announced with
  | error text status single =>
      have error : (ascii "-ERR ").isPrefixOf r.status = true := by
        rw [status, List.isPrefixOf_iff_prefix]
        exact List.prefix_append _ _
      rw [single] at delivers
      refine ⟨recvs, delivers, fun client later given => ?_⟩
      rw [← given, readResponse, if_pos error, printErr, modify_bind_apply]
      simp [result, headline, complaint, error, single, listing]
      rfl
  | count status =>
      have error : (ascii "-ERR ").isPrefixOf r.status = false := by
        rw [status]
        rfl
      have success : (ascii "+OK").isPrefixOf r.status = true := by
        rw [status]
        rfl
      have counted : smcpParseCountStatus r.status = some r.data.length := by
        conv_lhs => rw [status]
        exact smcpParseCountStatus_decimal few
      rw [← List.append_nil (Framing.join LF r.data)] at delivers
      rcases readData_delivers verbose delivers readable with ⟨left, drained, read⟩
      refine ⟨left, drained, fun client later given => ?_⟩
      rw [readResponse, if_neg (by simp [error]), if_pos success, counted]
      simp only [printOut]
      have others := read
        { client with
          out := client.out ++ if verbose then ascii "  " ++ r.status ++ ascii "\n" else [] }
        later given
      rw [modify_bind_apply, bind_of_ok others]
      simp [result, headline, complaint, error, counted]
      rfl
  | plain c text status word greets single =>
      have error : (ascii "-ERR ").isPrefixOf r.status = false := by
        rw [status]
        rfl
      have success : (ascii "+OK").isPrefixOf r.status = true := by
        rw [status]
        rfl
      have counted : smcpParseCountStatus r.status = none := by
        rw [status]
        exact smcpParseCountStatus_plain word text
      rw [single] at delivers
      refine ⟨recvs, delivers, fun client later given => ?_⟩
      rw [← given, readResponse, if_neg (by simp [error]), if_pos success, counted]
      simp only [printOut]
      rw [modify_bind_apply]
      simp [result, headline, complaint, error, counted, single, listing]
      rfl

theorem Announced.not_greeting (announced : r.Announced) :
    (ascii "+OK SMCP ").isPrefixOf r.status = false := by
  cases announced with
  | error text status =>
      rw [status]
      rfl
  | count status =>
      rcases List.exists_cons_of_ne_nil (decimal_ne_nil r.data.length) with ⟨c, rest, digits⟩
      rw [status, digits]
      refine SocksProxy.not_greeting ?_ rest
      rintro rfl
      have digit : isDigit 0x53 = true := isDigit_of_mem_decimal (digits ▸ List.mem_cons_self ..)
      exact absurd digit (by decide)
  | plain c text status _ greets =>
      rw [status]
      exact SocksProxy.not_greeting greets text

/-- A response is read to its end and not further. -/
theorem readAnswer_delivers (allowGreeting verbose : Bool) {recvs : List RecvReturn}
    (announced : r.Announced) (readable : ∀ line ∈ r.lines, Readable line)
    (few : r.data.length < 2 ^ 64) (delivers : Delivers recvs r.bytes) :
    ∃ left, Delivers left [] ∧ ∀ (client : Client) later, client.recvs = recvs ++ later →
      readAnswer allowGreeting verbose client = .ok (r.result,
        { client with
          recvs := left ++ later
          out := client.out ++ headline verbose r.status ++ listing verbose r.data
          err := client.err ++ complaint verbose r.status }) := by
  rw [lines, List.forall_mem_cons] at readable
  have split : r.bytes = r.status ++ LF :: Framing.join LF r.data := by
    simp [bytes, lines, Framing.join]
  rw [split] at delivers
  rcases readLine_delivers delivers readable.1 with ⟨middle, remains, first⟩
  rcases readResponse_delivers verbose announced readable.2 few remains with ⟨left, drained, read⟩
  refine ⟨left, drained, fun client later given => ?_⟩
  rw [readAnswer, bind_of_ok (first client later given)]
  simp only [announced.not_greeting, Bool.false_eq_true, if_false]
  exact read _ later rfl

end Response

theorem SmcpCall.run_delivers {call : SmcpCall} {wire : List UInt8} {r : Response}
    {sends : List SendReturn} {recvs : List RecvReturn} (verbose : Bool)
    (sent : call.wire = some wire) (takes : Takes sends wire) (announced : r.Announced)
    (readable : ∀ line ∈ r.lines, Readable line) (few : r.data.length < 2 ^ 64)
    (delivers : Delivers recvs r.bytes) :
    ∃ unused left, Delivers left [] ∧ ∀ (client : Client) later, client.sends = sends →
      client.recvs = recvs ++ later →
        call.run verbose client = .ok (r.result,
          { sends := unused
            recvs := left ++ later
            sent := client.sent ++ wire
            out := client.out ++ commandHeader verbose (call.display wire.dropLast) ++
              headline verbose r.status ++ listing verbose r.data
            err := client.err ++ complaint verbose r.status }) := by
  rcases Response.readAnswer_delivers call.greets verbose announced readable few delivers with
    ⟨left, drained, read⟩
  rcases takes.sendAllLoop_eq [] with ⟨unused, taken⟩
  refine ⟨unused, left, drained, fun client later able given => ?_⟩
  rcases Option.bind_eq_some_iff.mp sent with ⟨command, built, framed⟩
  rcases wireOf_eq_some framed with ⟨rfl, -⟩
  have whole : sendAll (command ++ [LF]) client = .ok (true,
      { client with sends := unused, sent := client.sent ++ (command ++ [LF]) }) := by
    rw [sendAll, get_bind_apply, able, taken]
    simp only
    rw [modify_bind_apply]
    simp
    rfl
  rw [call.run_eq, built, List.dropLast_concat]
  simp only [runBuilt, runCommand, framed]
  rw [bind_of_ok whole]
  simp only [if_true, printOut]
  rw [modify_bind_apply]
  exact read _ later given

/-- A command that is too long is refused, and neither sent nor answered. -/
theorem SmcpCall.run_of_long {call : SmcpCall} (long : call.wire = none) (verbose : Bool)
    (client : Client) : call.run verbose client =
      .ok (.rejected, { client with err := client.err ++ ascii "command too long\n" }) := by
  rw [call.run_eq]
  cases built : call.command with
  | none => rfl
  | some command =>
      rw [wire, built, Option.bind_some] at long
      simp only [runBuilt, runCommand, long]
      rfl

/-! ## Both ends -/

/-- What the network makes of bytes: all that is sent is taken, all that is answered arrives. -/
structure Network where
  sends : List UInt8 → List SendReturn
  taken : ∀ bytes, Takes (sends bytes) bytes
  recvs : List UInt8 → List RecvReturn
  delivers : ∀ bytes, Delivers (recvs bytes) bytes

/-- A network that takes and delivers everything at once. -/
def Network.prompt : Network where
  sends := fun bytes => [.taken bytes.length]
  taken := fun bytes => .taken bytes.length (by
    rw [List.drop_eq_nil_of_le (Nat.le_succ _)]
    exact .done [])
  recvs := fun bytes => bytes.map .byte
  delivers := fun bytes => by
    induction bytes with
    | nil => exact .nil
    | cons c rest ih => exact .byte c ih

/-- What happens apart from a session: other sessions say visible words, as every call does, and
the proxy counts and logs what it likes. -/
def ServiceEvent.Foreign (id : Nat) : ServiceEvent → Prop
  | .line other said => other ≠ id ∧ said.Legible
  | .proxy _ _ _ => True

/-- A call on a session, and what happens before its command arrives. -/
structure Exchange (id : Nat) where
  before : List ServiceEvent
  foreign : ∀ event ∈ before, event.Foreign id
  call : SmcpCall
  tokens : ∀ arg ∈ call.args, smcpIsToken arg = true
  verbose : Bool
  network : Network

/-- Bytes of a session arrive: the lines that end in them are handled. -/
def MgmtServer.receive (server : MgmtServer) (id : Nat) (bytes : List UInt8) : MgmtServer :=
  server.run ((Framing.cut LF bytes).1.map fun body => .line id (Line.classify body))

/-- What the server answers to some bytes of a session. -/
def MgmtServer.response (server : MgmtServer) (id : Nat) (bytes : List UInt8) : List UInt8 :=
  ((server.receive id bytes).sessions id).output.drop (server.sessions id).output.length

/-- The two ends of a session. -/
structure Link where
  server : MgmtServer
  client : Client

namespace Link

/-- A session that begins, with a store that nobody was added to. -/
def start (deps : MgmtDeps) : Link :=
  ⟨.start { deps with users := usersInit }, ⟨[], [], [], [], []⟩⟩

/-- The server when the command of a call arrives. -/
def asked {id : Nat} (link : Link) (e : Exchange id) : MgmtServer := link.server.run e.before

/-- The client when it makes a call: what it has not read yet comes before the response. -/
def calling {id : Nat} (link : Link) (e : Exchange id) : Client :=
  let wire := e.call.wire.getD []
  { link.client with
    sends := e.network.sends wire
    recvs := link.client.recvs ++ e.network.recvs ((link.asked e).response id wire) }

/-- A call is made. -/
def exchange {id : Nat} (link : Link) (e : Exchange id) : Except Waiting (SmcpResult × Link) := do
  let (result, client) ← e.call.run e.verbose (link.calling e)
  pure (result, ⟨(link.asked e).receive id (e.call.wire.getD []), client⟩)

/-- Some calls are made one after the other. -/
def run {id : Nat} (link : Link) : List (Exchange id) → Except Waiting Link
  | [] => pure link
  | e :: later => do
      let (_, link) ← link.exchange e
      link.run later

end Link

/-! ## One exchange -/

/-- Whether the response to a call has data lines. -/
def SmcpCall.counts : SmcpCall → Bool
  | .metrics | .listUsers | .getConfig | .log _ | .help => true
  | .auth _ _ | .addUser _ _ | .delUser _ | .set _ _ | .passwd _ | .quit => false

theorem SmcpCall.tells_eq {call : SmcpCall} {cmd : CString} (word : cmd.bytes = ascii call.word) :
    tells cmd = call.counts := by
  have same : ∀ name,
      ieq cmd name = decide ((ascii call.word).map toLower = (ascii name).map toLower) := by
    intro name
    rw [ieq, word]
  simp only [tells, same]
  cases call <;> simp [SmcpCall.word, SmcpCall.counts, ascii, toLower]

theorem SmcpCall.quits_iff {call : SmcpCall} {cmd : CString} (word : cmd.bytes = ascii call.word) :
    ieq cmd "QUIT" = true ↔ call = .quit := by
  rw [ieq, word, decide_eq_true_iff]
  cases call <;> simp [SmcpCall.word, ascii, toLower]

namespace MgmtServer

variable {server : MgmtServer} {id : Nat}

theorem sessions_step_line (opened : (server.sessions id).closed = false) (line : Line) :
    (server.step (.line id line)).sessions id =
      ⟨(line.answer (server.sessions id).session server.deps).session,
        (server.sessions id).output ++
          (line.answer (server.sessions id).session server.deps).printed.flatten,
        (line.answer (server.sessions id).session server.deps).close⟩ := by
  simp [step, view, Sequential.answer, opened]

theorem legible_step_line (sound : server.Sound) (legible : server.deps.Legible) (id : Nat)
    {line : Line} (visible : line.Legible) : (server.step (.line id line)).deps.Legible :=
  Sequential.legible_answer (s := server.view id) sound.isRoster legible visible

/-- What happens elsewhere leaves a session alone and the names visible. -/
theorem run_foreign {events : List ServiceEvent} (foreign : ∀ event ∈ events, event.Foreign id)
    (sound : server.Sound) (legible : server.deps.Legible) :
    (server.run events).sessions id = server.sessions id ∧ (server.run events).deps.Legible := by
  induction events generalizing server with
  | nil => exact ⟨rfl, legible⟩
  | cons event events ih =>
      rw [List.forall_mem_cons] at foreign
      have one : (server.step event).sessions id = server.sessions id ∧
          (server.step event).deps.Legible := by
        cases event with
        | proxy metrics accessLog logOpens => exact ⟨rfl, legible⟩
        | line other said =>
            refine ⟨?_, legible_step_line sound legible other foreign.1.2⟩
            exact Function.update_of_ne (Ne.symm foreign.1.1) _ _
      rcases ih foreign.2 (sound.step event) one.2 with ⟨same, kept⟩
      exact ⟨same.trans one.1, kept⟩

theorem receive_wire (server : MgmtServer) (id : Nat) {call : SmcpCall} {wire : List UInt8}
    (tokens : ∀ arg ∈ call.args, smcpIsToken arg = true) (sent : call.wire = some wire) :
    ∃ text : CString, server.receive id wire = server.step (.line id (.ready text)) ∧
      (Line.ready text).Legible ∧
      ∃ cmd args, mgmtTokenize 5 text = cmd :: args ∧ cmd.bytes = ascii call.word := by
  rcases SmcpCall.arrives tokens sent with ⟨command, text, rfl, unended, ready, words⟩
  refine ⟨text, ?_, ?_, ?_⟩
  · rw [receive, Framing.cut_body LF unended []]
    simp [Framing.cut, ready, run]
  · intro word member
    refine (SmcpCall.visible_words tokens word.bytes ?_).2
    rw [← words]
    exact List.mem_map_of_mem member
  · rcases List.map_eq_cons_iff.mp words with ⟨cmd, args, split, word, -⟩
    exact ⟨cmd, args, split, word⟩

/-- The response of the server to a call. -/
structure Answers (server : MgmtServer) (id : Nat) (call : SmcpCall) (server' : MgmtServer)
    (r : Response) : Prop where
  announced : r.Announced
  readable : ∀ line ∈ r.lines, Readable line
  few : r.data.length < 2 ^ 64
  output : (server'.sessions id).output = (server.sessions id).output ++ r.bytes
  counted : call.counts = true → ascii "+OK" <+: r.status →
    r.status = ascii "+OK " ++ decimal r.data.length
  single : call.counts = false ∨ ¬ascii "+OK" <+: r.status → r.data = []

section

variable {call : SmcpCall} {wire : List UInt8}
  (tokens : ∀ arg ∈ call.args, smcpIsToken arg = true) (sent : call.wire = some wire)

include tokens sent

theorem receive_answers (legible : server.deps.Legible)
    (opened : (server.sessions id).closed = false) :
    ∃ r, server.Answers id call (server.receive id wire) r := by
  rcases receive_wire server id tokens sent with
    ⟨text, received, -, cmd, args, words, word⟩
  rcases proper_mgmtHandleLine (server.sessions id).session server.deps text with ⟨r, proper⟩
  have prints := prints_mgmtHandleLine (server.sessions id).session server.deps words
  have told := SmcpCall.tells_eq word
  refine ⟨r, proper.announced, fun line member => ⟨?_, ?_, ?_⟩, ?_, ?_, ?_, ?_⟩
  · exact proper.clean legible.tidy line member
  · exact prints.nulFree_lines proper.texts line member
  · have printed : line ++ [LF] ∈ (mgmtHandleLine (server.sessions id).session server.deps
        text).printed := by
      rw [proper.texts]
      exact List.mem_map_of_mem member
    have short := proper.each _ printed
    rw [List.length_append, List.length_singleton] at short
    exact Nat.lt_of_le_of_lt short (by decide)
  · have all := proper.all
    rw [proper.texts, r.flatten_texts] at all
    have lines := (Framing.length_le_length_join LF r.lines).trans all
    rw [Response.lines, List.length_cons] at lines
    exact Nat.lt_of_lt_of_le (Nat.lt_of_succ_le lines) (by decide)
  · rw [received, sessions_step_line opened]
    simp only [Line.answer]
    rw [proper.texts, r.flatten_texts]
  · rw [← told]
    exact prints.counted proper.texts
  · rw [← told]
    exact prints.alone proper.texts

theorem receive_keeps (sound : server.Sound) (legible : server.deps.Legible)
    (opened : (server.sessions id).closed = false) :
    (server.receive id wire).Sound ∧ (server.receive id wire).deps.Legible ∧
      (call ≠ .quit → ((server.receive id wire).sessions id).closed = false) := by
  rcases receive_wire server id tokens sent with
    ⟨text, received, visible, cmd, args, words, word⟩
  rw [received]
  refine ⟨sound.step _, legible_step_line sound legible id visible, fun other => ?_⟩
  rw [sessions_step_line opened, Bool.eq_false_iff]
  intro closes
  rcases (close_mgmtHandleLine_iff _ _ text).mp closes with ⟨cmd', alone, quits⟩
  rw [words] at alone
  rw [← (List.cons.inj alone).1] at quits
  exact other ((SmcpCall.quits_iff word).mp quits)

end

end MgmtServer

/-- Between two calls: nothing is left to read, and the server can answer the next command. -/
structure Link.Ready (id : Nat) (link : Link) : Prop where
  sound : link.server.Sound
  legible : link.server.deps.Legible
  opened : (link.server.sessions id).closed = false
  drained : Delivers link.client.recvs []

/-- Client and server agree about a call that sends its command: what the response is, that the call
has read it and nothing else, what it returns and what it prints. -/
structure Link.Agrees {id : Nat} (link : Link) (e : Exchange id) (wire : List UInt8)
    (result : SmcpResult) (link' : Link) (r : Response) : Prop where
  sent : link'.client.sent = link.client.sent ++ wire
  answered : (link'.server.sessions id).output = (link.server.sessions id).output ++ r.bytes
  unbroken : ∀ line ∈ r.lines, LF ∉ line
  counted : e.call.counts = true → ascii "+OK" <+: r.bytes →
    r.status = ascii "+OK " ++ decimal r.data.length
  single : e.call.counts = false ∨ ascii "-ERR" <+: r.bytes → r.data = []
  drained : Delivers link'.client.recvs []
  /-- Whatever comes after the response is not touched. -/
  untouched : ∀ later : List RecvReturn,
    e.call.run e.verbose { link.calling e with recvs := (link.calling e).recvs ++ later } =
      .ok (result, { link'.client with recvs := link'.client.recvs ++ later })
  ok_iff : result = .ok ↔ ascii "+OK" <+: r.bytes
  rejected_iff : result = .rejected ↔ ascii "-ERR" <+: r.bytes
  returned : result ≠ .transportError
  shown : link'.client.out = link.client.out ++
    commandHeader e.verbose (e.call.display wire.dropLast) ++ headline e.verbose r.status ++
      listing e.verbose r.data

namespace Link

variable {id : Nat} {link : Link} {e : Exchange id}

theorem Ready.asked (ready : link.Ready id) (e : Exchange id) :
    (link.asked e).Sound ∧ (link.asked e).deps.Legible ∧
      (link.asked e).sessions id = link.server.sessions id := by
  rcases MgmtServer.run_foreign e.foreign ready.sound ready.legible with ⟨same, legible⟩
  exact ⟨ready.sound.run e.before, legible, same⟩

theorem start_ready (deps : MgmtDeps) : (start deps).Ready id where
  sound := MgmtServer.sound_start isRoster_usersInit
  legible := fun name member => by cases member
  opened := rfl
  drained := .nil

theorem exchange_of_run {result : SmcpResult} {client : Client}
    (ran : e.call.run e.verbose (link.calling e) = .ok (result, client)) :
    link.exchange e = .ok (result, ⟨(link.asked e).receive id (e.call.wire.getD []), client⟩) := by
  rw [exchange, ran]
  rfl

theorem Ready.exchange_of_long (ready : link.Ready id) (long : e.call.wire = none) :
    ∃ result link', link.exchange e = .ok (result, link') ∧ link'.Ready id := by
  rcases ready.asked e with ⟨sound, legible, same⟩
  refine ⟨_, _, exchange_of_run (SmcpCall.run_of_long long e.verbose _), ?_⟩
  have nothing : (link.asked e).response id [] = [] := List.drop_length
  simp only [calling, long, Option.getD_none, nothing]
  refine ⟨sound, legible, ?_, ready.drained.append (e.network.delivers [])⟩
  exact (congrArg Served.closed same).trans ready.opened

theorem Ready.exchange_of_wire {wire : List UInt8} (ready : link.Ready id)
    (sent : e.call.wire = some wire) :
    ∃ result link', link.exchange e = .ok (result, link') ∧
      (∃ r, link.Agrees e wire result link' r) ∧ (e.call ≠ .quit → link'.Ready id) := by
  rcases ready.asked e with ⟨sound, legible, same⟩
  have opened : ((link.asked e).sessions id).closed = false :=
    (congrArg Served.closed same).trans ready.opened
  rcases MgmtServer.receive_answers e.tokens sent legible opened with ⟨r, answers⟩
  rcases MgmtServer.receive_keeps e.tokens sent sound legible opened with ⟨sound', legible', open'⟩
  have response : (link.asked e).response id wire = r.bytes := by
    rw [MgmtServer.response, answers.output, List.drop_left]
  have delivers := ready.drained.append (e.network.delivers r.bytes)
  rcases SmcpCall.run_delivers e.verbose sent (e.network.taken wire) answers.announced
    answers.readable answers.few delivers with ⟨unused, left, drained, read⟩
  have client : link.calling e = { link.client with
      sends := e.network.sends wire, recvs := link.client.recvs ++ e.network.recvs r.bytes } := by
    simp only [calling, sent, Option.getD_some, response]
  have ran := read (link.calling e) [] (by rw [client]) (by rw [client, List.append_nil])
  rcases answers.announced.result_iff with ⟨ok, rejected, status⟩
  refine ⟨_, _, exchange_of_run ran, ⟨r, ?_⟩, fun other => ?_⟩
  · rw [sent, Option.getD_some]
    exact
      { sent := by rw [client]
        answered := answers.output.trans (by rw [same])
        unbroken := fun line member => (answers.readable line member).clean.1
        counted := fun counts success => answers.counted counts (status.mp success)
        single := fun alone => answers.single (alone.imp_right fun failure begins =>
          not_refused_of_begins (status.mpr begins) failure)
        drained := by rwa [List.append_nil]
        untouched := fun later => by
          rw [List.append_nil]
          have more := read { link.calling e with recvs := (link.calling e).recvs ++ later } later
            (by rw [client]) (by rw [client])
          exact more
        ok_iff := ok
        rejected_iff := rejected
        returned := by
          rcases answers.announced.begins with ⟨returned, -⟩ | ⟨returned, -⟩ <;> simp [returned]
        shown := by rw [client] }
  · rw [sent, Option.getD_some]
    exact ⟨sound', legible', open' other, by rwa [List.append_nil]⟩

theorem Ready.exchange (ready : link.Ready id) (e : Exchange id) :
    ∃ result link', link.exchange e = .ok (result, link') ∧
      (∀ wire, e.call.wire = some wire → ∃ r, link.Agrees e wire result link' r) ∧
      (e.call ≠ .quit → link'.Ready id) := by
  cases sent : e.call.wire with
  | none =>
      rcases ready.exchange_of_long sent with ⟨result, link', ran, ready'⟩
      exact ⟨result, link', ran, nofun, fun _ => ready'⟩
  | some wire =>
      rcases ready.exchange_of_wire sent with ⟨result, link', ran, agrees, ready'⟩
      refine ⟨result, link', ran, ?_, ready'⟩
      rintro _ ⟨⟩
      exact agrees

/-! ## A whole session -/

theorem Ready.run (ready : link.Ready id) {calls : List (Exchange id)}
    (unquit : ∀ e ∈ calls, e.call ≠ .quit) :
    ∃ link', link.run calls = .ok link' ∧ link'.Ready id := by
  induction calls generalizing link with
  | nil => exact ⟨link, rfl, ready⟩
  | cons e later ih =>
      rw [List.forall_mem_cons] at unquit
      rcases ready.exchange e with ⟨result, middle, ran, -, kept⟩
      rcases ih (kept unquit.1) unquit.2 with ⟨link', others, ready'⟩
      refine ⟨link', ?_, ready'⟩
      rw [Link.run, ran]
      exact others

/-- Client and server stay in lockstep. However many calls other than `QUIT` were made on a session,
whatever other sessions and the proxy did in between and however the bytes travelled, the next call
returns, and if it sends its command it reads the response to it and nothing else, returns what the
response says and prints its data lines in order. -/
theorem client_and_server_agree (deps : MgmtDeps) (id : Nat) {made : List (Exchange id)}
    (unquit : ∀ e ∈ made, e.call ≠ .quit) (e : Exchange id) :
    ∃ link result link', (start deps).run made = .ok link ∧ link.exchange e = .ok (result, link') ∧
      ∀ wire, e.call.wire = some wire → ∃ r, link.Agrees e wire result link' r := by
  rcases (start_ready deps).run unquit with ⟨link, ran, ready⟩
  rcases ready.exchange e with ⟨result, link', exchanged, agrees, -⟩
  exact ⟨link, result, link', ran, exchanged, agrees⟩

/-- The administrator logs in and lists the users. -/
theorem client_and_server_agree_about_users :
    let deps := mgmtDepsInit { defaultArgs with
      admin := some ⟨⟨ascii "root", by decide⟩, ⟨ascii "old", by decide⟩⟩ } ⟨true, []⟩
    let login : Exchange 0 :=
      ⟨[], by simp, .auth ⟨ascii "root", by decide⟩ ⟨ascii "old", by decide⟩, by decide, true,
        .prompt⟩
    let list : Exchange 0 := ⟨[], by simp, .listUsers, by decide, false, .prompt⟩
    ∃ link result link', (start deps).run [login] = .ok link ∧
      link.exchange list = .ok (result, link') ∧
      ∃ r, link.Agrees list (ascii "LIST-USERS\n") result link' r := by
  intro deps login list
  have unquit : ∀ e ∈ [login], e.call ≠ .quit := by
    rw [List.forall_mem_singleton]
    nofun
  rcases client_and_server_agree deps 0 unquit list with
    ⟨link, result, link', ran, exchanged, agrees⟩
  exact ⟨link, result, link', ran, exchanged, agrees _ rfl⟩

end Link

end SocksProxy
