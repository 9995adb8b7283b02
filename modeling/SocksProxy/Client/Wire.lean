import SocksProxy.Client.SmcpClient
import SocksProxy.Management.Lines
import SocksProxy.Management.Responses
import SocksProxy.Server.LogLines

/-!
# Commands on the wire

What the client sends and what the server makes of it. The client puts its
words together with single spaces and ends them with a line feed; it accepts
only visible characters in an argument, and only as many as its buffers hold.
The server takes a line apart at its spaces, and its line buffer is not shorter
than those of the client. So the words arrive as they were, however the bytes
are cut up on the way.
-/

namespace SocksProxy

open Prog ClientM

/-! ## What is sent -/

namespace SmcpCall

/-- The command that is built, unless it is too long. -/
def command : SmcpCall → Option (List UInt8)
  | .auth user pass => buildCommand "AUTH" [user, pass]
  | .metrics => some (ascii "METRICS")
  | .listUsers => some (ascii "LIST-USERS")
  | .addUser user pass =>
      (buildCommand "ADD-USER" [user, pass]).bind fun command =>
        (buildCommand "ADD-USER" [user, hiddenPassword]).map fun _ => command
  | .delUser user => buildCommand "DEL-USER" [user]
  | .getConfig => some (ascii "GET-CONFIG")
  | .set key value => buildCommand "SET" [key, value]
  | .log count => logCommand count
  | .passwd pass => buildCommand "PASSWD" [pass]
  | .help => some (ascii "HELP")
  | .quit => some (ascii "QUIT")

/-- The command as it is shown. -/
def display (command : List UInt8) : SmcpCall → List UInt8
  | .auth _ _ => ascii "AUTH <admin> <password>"
  | .addUser user _ => [SP].intercalate [ascii "ADD-USER", user.bytes, ascii "<password>"]
  | .passwd _ => ascii "PASSWD <new-password>"
  | _ => command

/-- Whether a greeting may come before the response. -/
def greets : SmcpCall → Bool
  | .auth _ _ => true
  | _ => false

/-- The bytes that are sent, unless the command is too long. -/
def wire (call : SmcpCall) : Option (List UInt8) := call.command.bind wireOf

end SmcpCall

theorem buildCommand_eq_some {word : String} {args : List CString} {text : List UInt8}
    (built : buildCommand word args = some text) :
    text = [SP].intercalate (ascii word :: args.map CString.bytes) := by
  simp only [buildCommand] at built
  split at built
  · exact (Option.some.inj built).symm
  · cases built

namespace SmcpCall

theorem run_eq (call : SmcpCall) (verbose : Bool) :
    call.run verbose = runBuilt call.command (call.display ·) call.greets verbose := by
  cases call with
  | addUser user pass =>
      simp only [run, smcpCmdAddUser, command]
      cases buildCommand "ADD-USER" [user, pass] with
      | none => rfl
      | some command =>
          simp only [Option.bind_some]
          cases shown : buildCommand "ADD-USER" [user, hiddenPassword] with
          | none => rfl
          | some text =>
              rw [buildCommand_eq_some shown]
              rfl
  | _ => rfl

theorem command_eq {call : SmcpCall} {text : List UInt8}
    (tokens : ∀ arg ∈ call.args, smcpIsToken arg = true) (built : call.command = some text) :
    text = [SP].intercalate (ascii call.word :: call.args.map CString.bytes) := by
  cases call with
  | auth | delUser | set | passwd => exact buildCommand_eq_some built
  | metrics | listUsers | getConfig | help | quit =>
      rw [← Option.some.inj built]
      rfl
  | addUser user pass =>
      rcases Option.bind_eq_some_iff.mp built with ⟨command, first, second⟩
      rcases Option.map_eq_some_iff.mp second with ⟨_, -, rfl⟩
      exact buildCommand_eq_some first
  | log count =>
      cases count with
      | none =>
          rw [← Option.some.inj built]
          rfl
      | some count =>
          have nonempty : count.bytes ≠ [] := by
            have token := tokens count (List.mem_singleton_self _)
            simp only [smcpIsToken, Bool.and_eq_true, decide_eq_true_eq] at token
            exact token.1
          simp only [command, logCommand, if_neg nonempty] at built
          exact buildCommand_eq_some built

end SmcpCall

theorem wireOf_eq_some {command wire : List UInt8} (sent : wireOf command = some wire) :
    wire = command ++ [LF] ∧ command.length < SMCP_LINE_MAX - 1 := by
  unfold wireOf at sent
  split at sent
  · next short => exact ⟨(Option.some.inj sent).symm, Nat.lt_sub_of_add_lt short⟩
  · cases sent

theorem visible_of_token {s : CString} (token : smcpIsToken s = true) :
    s.bytes ≠ [] ∧ Visible s.bytes := by
  simp only [smcpIsToken, Bool.and_eq_true, decide_eq_true_eq, List.all_eq_true,
    Bool.not_eq_true', Bool.or_eq_false_iff, decide_eq_false_iff_not] at token
  refine ⟨token.1, fun c member => ?_⟩
  rcases token.2 c member with ⟨⟨-, least⟩, greatest⟩
  rw [UInt8.lt_iff_toNat_lt] at least greatest
  simp only [UInt8.le_iff_toNat_le]
  exact ⟨Nat.le_of_not_lt least, Nat.le_of_not_lt greatest⟩

/-! ## What is received -/

/-- The first word of a line is what comes before its first space. -/
theorem mgmtTokenize_word {n : Nat} {s : CString} {word more : List UInt8} (nonempty : word ≠ [])
    (visible : Visible word) (joined : s.bytes = word ++ more) (parted : ∀ c ∈ more.head?, c = SP) :
    ∃ first rest : CString, mgmtTokenize (n + 1) s = first :: mgmtTokenize n rest ∧
      first.bytes = word ∧ rest.bytes = more.drop 1 := by
  have other : ∀ c ∈ word, (c != SP) = true := by
    intro c member
    rw [bne_iff_ne]
    rintro rfl
    exact visible.spaceless member
  have skipped : (s.skip SP).bytes = word ++ more := by
    rcases List.exists_cons_of_ne_nil nonempty with ⟨c, rest, rfl⟩
    have first : ¬(c == SP) = true := by
      simpa using other c (List.mem_cons_self ..)
    simp only [CString.skip, joined, List.cons_append]
    exact List.dropWhile_cons_of_neg first
  have stops : more.takeWhile (fun c => c != SP) = [] ∧
      more.dropWhile (fun c => c != SP) = more := by
    cases more with
    | nil => exact ⟨rfl, rfl⟩
    | cons c rest =>
        obtain rfl := parted c rfl
        exact ⟨rfl, rfl⟩
  refine ⟨(s.skip SP).upTo SP, (s.skip SP).after SP, ?_, ?_, ?_⟩
  · rw [mgmtTokenize, if_neg]
    rw [skipped]
    exact List.append_ne_nil_of_left_ne_nil nonempty more
  · simp only [CString.upTo, skipped]
    rw [List.takeWhile_append_of_pos other, stops.1, List.append_nil]
  · simp only [CString.after, skipped]
    rw [List.dropWhile_append_of_pos other, stops.2]

theorem mgmtTokenize_intercalate {n : Nat} {s : CString} {words : List (List UInt8)}
    (few : words.length ≤ n) (each : ∀ word ∈ words, word ≠ [] ∧ Visible word)
    (joined : s.bytes = [SP].intercalate words) : (mgmtTokenize n s).map CString.bytes = words := by
  induction words generalizing n s with
  | nil =>
      cases n with
      | zero => rfl
      | succ n =>
          have empty : (s.skip SP).bytes = [] := by
            simp [CString.skip, show s.bytes = [] from joined]
          rw [mgmtTokenize, if_pos empty]
          rfl
  | cons word words ih =>
      rw [List.forall_mem_cons] at each
      cases n with
      | zero => cases few
      | succ n =>
          cases words with
          | nil =>
              rw [List.intercalate_singleton, ← List.append_nil word] at joined
              rcases mgmtTokenize_word each.1.1 each.1.2 joined (by simp) with
                ⟨first, rest, taken, named, left⟩
              rw [taken, List.map_cons, named, ih (Nat.zero_le _) (by simp) left]
          | cons next later =>
              rw [List.intercalate_cons_cons, List.append_assoc] at joined
              rcases mgmtTokenize_word each.1.1 each.1.2 joined (by simp [SP]) with
                ⟨first, rest, taken, named, left⟩
              rw [taken, List.map_cons, named, ih (Nat.le_of_succ_le_succ few) each.2 left]

theorem printable_intercalate {words : List (List UInt8)} (each : ∀ word ∈ words, Visible word) :
    Printable ([SP].intercalate words) := by
  have space : Printable [SP] := by decide
  exact forall_mem_intercalate space fun word member => (each word member).printable

theorem classify_printable {content : List UInt8} (printable : Printable content)
    (short : content.length < MGMT_LINE_MAX) :
    ∃ text : CString, Line.classify content = .ready text ∧ text.bytes = content := by
  have clean : Line.spoilt content = false := by
    rw [Line.spoilt, List.any_eq_false]
    intro c member
    have graphic := printable c (List.mem_of_mem_take member)
    simp [isLineByte, graphic]
  refine ⟨_, by rw [Line.classify, dif_pos clean, dif_pos short], ?_⟩
  exact if_neg printable.cleanLine.2

/-- The words of a command are not empty and consist of visible characters. -/
theorem SmcpCall.visible_words {call : SmcpCall}
    (tokens : ∀ arg ∈ call.args, smcpIsToken arg = true) :
    ∀ word ∈ ascii call.word :: call.args.map CString.bytes, word ≠ [] ∧ Visible word := by
  rw [List.forall_mem_cons]
  refine ⟨?_, fun text member => ?_⟩
  · cases call <;> simp only [SmcpCall.word] <;> decide
  · rcases List.mem_map.mp member with ⟨arg, among, rfl⟩
    exact visible_of_token (tokens arg among)

theorem SmcpCall.arrives {call : SmcpCall} {wire : List UInt8}
    (tokens : ∀ arg ∈ call.args, smcpIsToken arg = true) (sent : call.wire = some wire) :
    ∃ (command : List UInt8) (text : CString), wire = command ++ [LF] ∧ LF ∉ command ∧
      Line.classify command = .ready text ∧
      (mgmtTokenize 5 text).map CString.bytes = ascii call.word :: call.args.map CString.bytes := by
  rcases Option.bind_eq_some_iff.mp sent with ⟨command, built, framed⟩
  rcases wireOf_eq_some framed with ⟨rfl, short⟩
  have joined := command_eq tokens built
  have each := visible_words tokens
  have few : (ascii call.word :: call.args.map CString.bytes).length ≤ 5 := by
    cases call with
    | log count => cases count <;> simp [SmcpCall.args]
    | _ => simp [SmcpCall.args]
  have printable : Printable command := by
    rw [joined]
    exact printable_intercalate fun word member => (each word member).2
  rcases classify_printable printable (Nat.lt_of_lt_of_le short (by decide)) with
    ⟨text, ready, same⟩
  exact ⟨command, text, rfl, printable.cleanLine.1, ready,
    mgmtTokenize_intercalate few each (same.trans joined)⟩

/-! ## All of the command is sent, and only that -/

/-- Answers of `send()` that take all of a text: a piece at a time, perhaps with interruptions, and
without a failure before its end. -/
inductive Takes : List SendReturn → List UInt8 → Prop where
  | done (sends : List SendReturn) : Takes sends []
  | taken {sends : List SendReturn} {pending : List UInt8} (more : Nat)
      (rest : Takes sends (pending.drop (more + 1))) : Takes (.taken more :: sends) pending
  | interrupted {sends : List SendReturn} {pending : List UInt8} (rest : Takes sends pending) :
      Takes (.interrupted :: sends) pending

theorem Takes.sendAllLoop_eq {sends : List SendReturn} {pending : List UInt8}
    (takes : Takes sends pending) (taken : List UInt8) :
    ∃ unused, sendAllLoop pending taken sends = some ⟨unused, taken ++ pending, none⟩ := by
  induction takes generalizing taken with
  | done sends => exact ⟨sends, by cases sends <;> simp [sendAllLoop]⟩
  | @taken sends pending more _ ih =>
      rcases ih (taken ++ pending.take (more + 1)) with ⟨unused, sent⟩
      by_cases nothing : pending = []
      · exact ⟨.taken more :: sends, by simp [sendAllLoop, nothing]⟩
      · refine ⟨unused, ?_⟩
        rw [sendAllLoop, if_neg nothing]
        exact sent.trans (by rw [List.append_assoc, List.take_append_drop])
  | @interrupted sends pending _ ih =>
      rcases ih taken with ⟨unused, sent⟩
      by_cases nothing : pending = []
      · exact ⟨.interrupted :: sends, by simp [sendAllLoop, nothing]⟩
      · exact ⟨unused, by rwa [sendAllLoop, if_neg nothing]⟩

/-- `send_all` sends the beginning of its text, and all of it if it reports no error. -/
theorem sendAllLoop_taken {pending taken : List UInt8} {sends : List SendReturn} {ended : SendEnd}
    (ran : sendAllLoop pending taken sends = some ended) :
    ∃ front, ended.taken = taken ++ front ∧ front <+: pending ∧
      (ended.error = none → front = pending) := by
  induction sends generalizing pending taken with
  | nil =>
      unfold sendAllLoop at ran
      split at ran
      · next nothing =>
          cases ran
          exact ⟨[], by simp, List.nil_prefix, fun _ => nothing.symm⟩
      · cases ran
  | cons answer later ih =>
      unfold sendAllLoop at ran
      split at ran
      · next nothing =>
          cases ran
          exact ⟨[], by simp, List.nil_prefix, fun _ => nothing.symm⟩
      · cases answer with
        | interrupted => exact ih ran
        | failed strerror =>
            cases ran
            exact ⟨[], by simp, List.nil_prefix, fun none => nomatch none⟩
        | taken more =>
            rcases ih ran with ⟨front, sent, begins, whole⟩
            have split := List.take_append_drop (more + 1) pending
            refine ⟨pending.take (more + 1) ++ front, ?_, ?_, fun none => ?_⟩
            · rw [sent, List.append_assoc]
            · conv_rhs => rw [← split]
              exact List.prefix_append_right_inj _ |>.mpr begins
            · rw [whole none, split]

theorem keeps_readLine {sent : List UInt8} :
    Keeps (fun client : Client => client.sent = sent) readLine := by
  unfold readLine
  refine .bind .get fun client => ?_
  split
  · exact .throw _
  · exact .bind (.modify fun _ kept => kept) fun _ => .pure _
  · exact .bind (.modify fun _ kept => kept) fun _ => .pure _

theorem keeps_readData {sent : List UInt8} (verbose : Bool) (count : Nat) :
    Keeps (fun client : Client => client.sent = sent) (readData verbose count) := by
  induction count with
  | zero => exact .pure _
  | succ count ih =>
      unfold readData
      refine .bind keeps_readLine fun line => ?_
      cases line with
      | none => exact .pure _
      | some line => exact .bind (.modify fun _ kept => kept) fun _ => ih

theorem keeps_malformed {sent line : List UInt8} :
    Keeps (fun client : Client => client.sent = sent) (malformed line) :=
  .bind (.modify fun _ kept => kept) fun _ => .pure _

theorem keeps_readResponse {sent : List UInt8} (verbose : Bool) (line : List UInt8) :
    Keeps (fun client : Client => client.sent = sent) (readResponse verbose line) := by
  unfold readResponse
  split
  · exact .bind (.modify fun _ kept => kept) fun _ => .pure _
  split
  · split
    · refine .bind (.modify fun _ kept => kept) fun _ => ?_
      exact .bind (keeps_readData verbose _) fun _ => .ite (fun _ => .pure _) fun _ => .pure _
    · exact .bind (.modify fun _ kept => kept) fun _ => .pure _
  · exact keeps_malformed

theorem keeps_readAnswer {sent : List UInt8} (allowGreeting verbose : Bool) :
    Keeps (fun client : Client => client.sent = sent) (readAnswer allowGreeting verbose) := by
  unfold readAnswer
  refine .bind keeps_readLine fun line => ?_
  cases line with
  | none => exact .pure _
  | some line =>
      refine .ite (fun _ => .ite (fun _ => ?_) fun _ => keeps_malformed) fun _ =>
        keeps_readResponse verbose line
      refine .bind keeps_readLine fun line => ?_
      cases line with
      | none => exact .pure _
      | some line => exact keeps_readResponse verbose line

/-- A call sends the beginning of its wire, and all of it if `send()` takes it or the call does not
fail. -/
theorem SmcpCall.sent_run {call : SmcpCall} {verbose : Bool} {client client' : Client}
    {result : SmcpResult} {wire : List UInt8} (sends : call.wire = some wire)
    (ran : call.run verbose client = .ok (result, client')) :
    ∃ front, client'.sent = client.sent ++ front ∧ front <+: wire ∧
      (Takes client.sends wire ∨ result ≠ .transportError → front = wire) := by
  rcases Option.bind_eq_some_iff.mp sends with ⟨command, built, framed⟩
  have all : wlp (call.run verbose) (fun result client' => ∃ front,
      client'.sent = client.sent ++ front ∧ front <+: wire ∧
        (Takes client.sends wire ∨ result ≠ .transportError → front = wire)) client := by
    rw [call.run_eq, built]
    simp only [runBuilt, runCommand, framed, sendAll, wlp_bind, wlp_get]
    split
    · exact (wlp_throw _ _ _).mpr trivial
    · next ended ran =>
        rcases sendAllLoop_taken ran with ⟨front, taken, begins, whole⟩
        have able : Takes client.sends wire → ended.error = none := by
          intro takes
          rcases takes.sendAllLoop_eq [] with ⟨unused, sent⟩
          rw [Option.some.inj (ran.symm.trans sent)]
        have known : client.sent ++ ended.taken = client.sent ++ front := by
          rw [taken, List.nil_append]
        have kept : Keeps (fun client' : Client => client'.sent = client.sent ++ front) (do
            printOut (commandHeader verbose (call.display command))
            readAnswer call.greets verbose) :=
          .bind (.modify fun _ kept => kept) fun _ => keeps_readAnswer _ _
        simp only [wlp_bind, wlp_modify, wlp_pure]
        split
        · next unfailing =>
            refine wlp_mono (kept _ known) fun _ _ same => ⟨front, same, begins, fun _ => ?_⟩
            exact whole (Option.isNone_iff_eq_none.mp unfailing)
        · exact (wlp_pure _ _ _).mpr ⟨front, known, begins, fun other =>
            whole (able (other.resolve_right fun failed => failed rfl))⟩
  exact all result client' ran

/-! ## A call returns -/

section

variable {client : Client}

/-- A server that closes some time is not waited for: either a line is read before it does, or it is
noticed. -/
theorem readLineLoop_of_closed {cap : Nat} {buf : List UInt8} {recvs : List RecvReturn}
    (closes : .closed ∈ recvs) :
    ∃ read later, readLineLoop cap buf recvs = some (read, later) ∧
      ∀ text, read = .line text → .closed ∈ later := by
  induction recvs generalizing buf with
  | nil => exact absurd closes List.not_mem_nil
  | cons answer later ih =>
      by_cases room : buf.length + 1 < cap
      · have next : answer ≠ .closed → .closed ∈ later := fun other =>
          (List.mem_cons.mp closes).resolve_left (Ne.symm other)
        simp only [readLineLoop, room, if_true]
        cases answer with
        | byte c =>
            by_cases ends : c = LF
            · exact ⟨_, later, if_pos ends, fun _ _ => next (by simp)⟩
            · simp only [ends, if_false]
              exact ih (next (by simp))
        | closed => exact ⟨_, later, rfl, by simp⟩
        | interrupted => exact ih (next (by simp))
        | failed strerror => exact ⟨_, later, rfl, by simp⟩
      · simp only [readLineLoop, room, if_false]
        exact ⟨_, answer :: later, rfl, by simp⟩

theorem wp_readLine_of_closed (closes : .closed ∈ client.recvs) :
    wp readLine (fun line client' => ∀ text, line = some text → .closed ∈ client'.recvs)
      client := by
  rcases @readLineLoop_of_closed SMCP_LINE_MAX [] _ closes with ⟨read, later, found, remains⟩
  simp only [readLine, wp_bind, wp_get, found]
  cases read with
  | line text =>
      simp only [wp_bind, wp_modify, wp_pure]
      exact fun _ _ => remains text rfl
  | failed message => simp

theorem wp_readData_of_closed {verbose : Bool} {count : Nat} (closes : .closed ∈ client.recvs) :
    wp (readData verbose count) (fun _ _ => True) client := by
  induction count generalizing client with
  | zero => exact (wp_pure ..).mpr trivial
  | succ count ih =>
      rw [readData, wp_bind]
      refine wp_mono (wp_readLine_of_closed closes) ?_
      rintro (_ | line) client' remains
      · exact (wp_pure ..).mpr trivial
      · simp only [printOut, wp_bind, wp_modify]
        exact ih (remains line rfl)

theorem wp_readResponse_of_closed {verbose : Bool} {line : List UInt8}
    (closes : .closed ∈ client.recvs) :
    wp (readResponse verbose line) (fun _ _ => True) client := by
  unfold readResponse
  split
  · simp [printErr]
  split
  · split
    · simp only [printOut, wp_bind, wp_modify]
      exact wp_mono (wp_readData_of_closed closes) fun complete _ _ => by
        cases complete <;> exact (wp_pure ..).mpr trivial
    · simp [printOut]
  · simp [malformed, printErr]

theorem wp_readAnswer_of_closed {allowGreeting verbose : Bool} (closes : .closed ∈ client.recvs) :
    wp (readAnswer allowGreeting verbose) (fun _ _ => True) client := by
  rw [readAnswer, wp_bind]
  refine wp_mono (wp_readLine_of_closed closes) ?_
  rintro (_ | line) client' remains
  · exact (wp_pure ..).mpr trivial
  · simp only [wp_ite, wp_bind]
    split
    · split
      · refine wp_mono (wp_readLine_of_closed (remains line rfl)) ?_
        rintro (_ | second) client'' remains'
        · exact (wp_pure ..).mpr trivial
        · exact wp_readResponse_of_closed (remains' second rfl)
      · simp [malformed, printErr]
    · exact wp_readResponse_of_closed (remains line rfl)

/-- A call that can send its command returns, unless the server keeps it waiting. -/
theorem SmcpCall.exists_run {call : SmcpCall} {wire : List UInt8} (verbose : Bool)
    (sends : call.wire = some wire) (takes : Takes client.sends wire)
    (closes : .closed ∈ client.recvs) :
    ∃ result client', call.run verbose client = .ok (result, client') := by
  rcases Option.bind_eq_some_iff.mp sends with ⟨command, built, framed⟩
  rcases takes.sendAllLoop_eq [] with ⟨unused, sent⟩
  have returns : wp (call.run verbose) (fun _ _ => True) client := by
    rw [call.run_eq, built]
    simp only [runBuilt, runCommand, framed, sendAll, wp_bind, wp_get, sent, wp_modify, wp_pure,
      Option.isNone_none, if_true, printOut]
    exact wp_readAnswer_of_closed closes
  rcases returns with ⟨result, client', ran, -⟩
  exact ⟨result, client', ran⟩

end

/-- Commands survive the wire. A call whose arguments are tokens sends the bytes of its command and
nothing else: all of them when `send()` takes them, whatever becomes of the response, and then it
returns unless the server keeps it waiting. On the server they come to one line, which is complete
at their end and not before, whatever lines came before it and however the bytes are cut up; its
words are the word of the command and the arguments. -/
theorem commands_survive_wire {call : SmcpCall} {wire : List UInt8}
    (tokens : ∀ arg ∈ call.args, smcpIsToken arg = true) (sent : call.wire = some wire) :
    (∀ verbose client result client', call.run verbose client = .ok (result, client') →
      ∃ front, client'.sent = client.sent ++ front ∧ front <+: wire ∧
        (Takes client.sends wire ∨ result ≠ .transportError → front = wire)) ∧
    (∀ verbose client, Takes client.sends wire → .closed ∈ client.recvs →
      ∃ result client', call.run verbose client = .ok (result, client')) ∧
    ∃ text : CString,
      (mgmtTokenize 5 text).map CString.bytes = ascii call.word :: call.args.map CString.bytes ∧
      ∀ (used : MgmtParser) (bodies : List (List UInt8)) (front back : List UInt8)
        (chunks : List Buffer), (∀ body ∈ bodies, LF ∉ body) → wire = front ++ back →
        streamOf chunks = Framing.join LF bodies ++ front →
          ∃ p, readChunks (mgmtParserReset used) chunks =
            some (bodies.map Line.classify ++ (if back = [] then [.ready text] else []), p) := by
  refine ⟨fun verbose client result client' ran => SmcpCall.sent_run sent ran,
    fun verbose client takes closes => SmcpCall.exists_run verbose sent takes closes, ?_⟩
  rcases SmcpCall.arrives tokens sent with ⟨command, text, rfl, unended, ready, words⟩
  refine ⟨text, words, fun used bodies front back chunks ended split stream => ?_⟩
  rcases readChunks_eq MgmtParser.holds_init (by simp) chunks with ⟨p, read, -⟩
  refine ⟨p, read.trans ?_⟩
  rw [List.nil_append, stream, Framing.cut_join LF ended, List.map_append]
  congr 3
  by_cases whole : back = []
  · rw [whole, List.append_nil] at split
    rw [if_pos whole, ← split, Framing.cut_body LF unended []]
    simp [Framing.cut, ready]
  · have within : front <+: command := by
      rcases List.prefix_concat_iff.mp ⟨back, split.symm⟩ with all | within
      · rw [← all, List.self_eq_append_right] at split
        exact absurd split whole
      · exact within
    rw [if_neg whole, Framing.cut_of_not_mem LF fun member => unended (within.subset member)]
    rfl

/-- A user that is added, by a client whose command goes out in two pieces and whose server closes
instead of answering. -/
theorem commands_survive_wire_for_addUser :
    (∃ result client', (SmcpCall.addUser ⟨ascii "ada", by decide⟩ ⟨ascii "secret", by decide⟩).run
      false ⟨[.taken 4, .interrupted, .taken 99], [.closed], [], [], []⟩ = .ok (result, client') ∧
        client'.sent = ascii "ADD-USER ada secret\n") ∧
    ∃ text : CString,
      (mgmtTokenize 5 text).map CString.bytes = [ascii "ADD-USER", ascii "ada", ascii "secret"] ∧
      ∀ (used : MgmtParser) (chunks : List Buffer),
        streamOf chunks = ascii "HELP\nADD-USER ada secret\n" →
          ∃ p, readChunks (mgmtParserReset used) chunks =
            some ([Line.classify (ascii "HELP"), .ready text], p) := by
  rcases @commands_survive_wire (.addUser ⟨ascii "ada", by decide⟩ ⟨ascii "secret", by decide⟩)
    (ascii "ADD-USER ada secret\n") (by decide) (by rfl) with ⟨sends, returns, text, words, arrives⟩
  have takes : Takes [.taken 4, .interrupted, .taken 99] (ascii "ADD-USER ada secret\n") :=
    .taken 4 (.interrupted (.taken 99 (.done [])))
  refine ⟨?_, text, words, fun used chunks stream => ?_⟩
  · rcases returns false ⟨_, [.closed], [], [], []⟩ takes (List.mem_singleton_self _) with
      ⟨result, client', ran⟩
    rcases sends _ _ _ _ ran with ⟨front, sent, -, whole⟩
    exact ⟨result, client', ran, by rw [sent, whole (.inl takes)]; rfl⟩
  · exact arrives used [ascii "HELP"] _ [] chunks (by decide) (List.append_nil _).symm stream

end SocksProxy
