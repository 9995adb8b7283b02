import SocksProxy.Management.Commands
import SocksProxy.Management.Sequential
import SocksProxy.Server.Startup

/-!
# The management service

All the sessions of the management service and what they share. The lines of
different sessions are handled one at a time, in any order, and between two of
them the proxy counts and logs what it does. `Reachable` are the states of a
service that `main()` has set up.
-/

namespace SocksProxy

/-- A session and what its client is to be sent. -/
structure Served where
  session : MgmtSession
  output : List UInt8
  closed : Bool

/-- The sessions, by the order in which they were opened, and what they share. -/
structure MgmtServer where
  sessions : Nat → Served
  deps : MgmtDeps

/-- What happens to the service: a line of a session, or something the proxy counts and logs; the
file of the log may have become readable or unreadable as well. -/
inductive ServiceEvent where
  | line (id : Nat) (line : Line)
  | proxy (metrics : Metrics) (accessLog : AccessLog) (logOpens : Bool)

namespace MgmtServer

/-- A service none of whose sessions has done anything. -/
def start (deps : MgmtDeps) : MgmtServer := ⟨fun _ => ⟨mgmtSessionInit, [], false⟩, deps⟩

/-- A session among the others. -/
def view (server : MgmtServer) (id : Nat) : Sequential :=
  let served := server.sessions id
  ⟨served.session, server.deps, served.output, served.closed⟩

def step (server : MgmtServer) : ServiceEvent → MgmtServer
  | .line id line =>
      let answered := (server.view id).answer line
      { sessions := Function.update server.sessions id
          ⟨answered.session, answered.output, answered.closed⟩
        deps := answered.deps }
  | .proxy metrics accessLog logOpens =>
      { server with deps := { server.deps with metrics, accessLog, logOpens } }

def run (server : MgmtServer) (events : List ServiceEvent) : MgmtServer := events.foldl step server

/-- The states of a service that was started by some command line that `parse_args` accepts. -/
def Reachable (server : MgmtServer) : Prop :=
  ∃ argv args accessLog events, parseArgs argv = some args ∧
    (start (mgmtDepsInit args accessLog)).run events = server

end MgmtServer

/-! ## What lines keep -/

/-- The store holds the accounts of some roster. -/
def Users.IsRoster (s : Users) : Prop := ∃ roster : Roster, s.Refines roster

theorem isRoster_usersInit : usersInit.IsRoster := ⟨OrderedMap.empty, rfl⟩

theorem Users.IsRoster.of_rel {s : Users} {after : Option Users} {model : Option Roster}
    (isRoster : s.IsRoster) (related : Option.Rel Users.Refines after model) :
    (after.getD s).IsRoster := by
  cases related with
  | none => exact isRoster
  | some refined => exact ⟨_, refined⟩

theorem isRoster_seedUsers {s : Users} (isRoster : s.IsRoster) (given : List User) :
    (seedUsers s given).IsRoster := by
  induction given generalizing s with
  | nil => exact isRoster
  | cons next given ih =>
      rcases isRoster with ⟨roster, refines⟩
      exact ih (Users.IsRoster.of_rel ⟨roster, refines⟩ (refines.add next.name next.pass))

/-- The words of a line. -/
def Line.tokens : Line → List CString
  | .ready text => mgmtTokenize 5 text
  | .tooLong | .invalid => []

section

variable {session : MgmtSession} {deps : MgmtDeps} {tokens : List CString} {r : LineResult}

theorem Line.settled (session : MgmtSession) (isRoster : deps.users.IsRoster) (line : Line) :
    Settled session deps line.tokens (line.answer session deps) := by
  cases line with
  | ready text =>
      rcases isRoster with ⟨roster, refines⟩
      exact settled_mgmtHandleLine refines text
  | tooLong | invalid => exact .refused (by decide)

theorem Effect.isRoster (effect : Effect session deps tokens r)
    (isRoster : deps.users.IsRoster) : r.deps.users.IsRoster := by
  rcases isRoster with ⟨roster, refines⟩
  cases effect with
  | quit | tell | auth | set | passwd => exact ⟨roster, refines⟩
  | @addUser _ name pass _ _ trusted word valid room fresh accounts =>
      have accepted : ValidAccount name.bytes pass.bytes ∧ roster.entries.length < USERS_MAX ∧
          name.bytes ∉ roster.keys := ⟨valid, refines.count_eq ▸ room, refines.names_eq ▸ fresh⟩
      refine ⟨(roster.insert? name.bytes pass.bytes).get ?_, ?_⟩
      · simp [OrderedMap.insert?, accepted]
      · rw [Users.Refines, accounts, refines]
        simp [OrderedMap.insert?, accepted]
  | @delUser _ name _ _ trusted word present accounts =>
      have member : name.bytes ∈ roster.keys := refines.names_eq ▸ present
      refine ⟨(roster.erase? name.bytes).get ?_, ?_⟩
      · simp [OrderedMap.erase?, member]
      · rw [Users.Refines, accounts, refines]
        simp [OrderedMap.erase?, member]

theorem Effect.admin_name (effect : Effect session deps tokens r) :
    r.deps.admin.name = deps.admin.name := by
  cases effect with
  | quit | tell | auth | addUser | delUser | set => rfl
  | passwd _ _ name => exact name

/-- A session is admitted by an administrator with a name. -/
theorem Effect.vouched (effect : Effect session deps tokens r)
    (admitted : r.session.authenticated = true) :
    session.authenticated = true ∨ deps.admin.name.text ≠ [] := by
  cases effect with
  | quit | tell => exact .inl admitted
  | addUser trusted | delUser trusted | set trusted | passwd trusted => exact .inl trusted
  | auth _ valid => exact .inr (adminCheck_iff.mp valid).1

end

theorem Sequential.answer_keeps {s : Sequential} (isRoster : s.deps.users.IsRoster) (line : Line) :
    (s.answer line).deps.users.IsRoster ∧ (s.answer line).deps.admin.name = s.deps.admin.name ∧
      ((s.answer line).session.authenticated = true →
        s.session.authenticated = true ∨ s.deps.admin.name.text ≠ []) := by
  unfold Sequential.answer
  split
  · exact ⟨isRoster, rfl, .inl⟩
  · rcases Line.settled s.session isRoster line with
      ⟨-, sameSession, sameDeps, -⟩ | ⟨effect, -⟩
    · simp only [sameSession, sameDeps]
      exact ⟨isRoster, trivial, .inl⟩
    · exact ⟨effect.isRoster isRoster, effect.admin_name, effect.vouched⟩

namespace MgmtServer

variable {server : MgmtServer}

/-- The store is a roster, and nobody was admitted without an administrator. -/
structure Sound (server : MgmtServer) : Prop where
  isRoster : server.deps.users.IsRoster
  vouched : ∀ id, (server.sessions id).session.authenticated = true →
    server.deps.admin.name.text ≠ []

theorem sound_start {deps : MgmtDeps} (isRoster : deps.users.IsRoster) : (start deps).Sound :=
  ⟨isRoster, fun _ admitted => nomatch admitted⟩

theorem Sound.step (sound : server.Sound) (event : ServiceEvent) : (server.step event).Sound := by
  cases event with
  | proxy metrics accessLog logOpens => exact ⟨sound.isRoster, sound.vouched⟩
  | line id line =>
      rcases Sequential.answer_keeps (s := server.view id) sound.isRoster line with
        ⟨isRoster, name, vouched⟩
      refine ⟨isRoster, fun other admitted => ?_⟩
      have same : (server.step (.line id line)).deps.admin.name = server.deps.admin.name := name
      rw [same]
      by_cases own : other = id
      · subst own
        simp only [MgmtServer.step, Function.update_self] at admitted
        exact (vouched admitted).elim (sound.vouched other) fun named => named
      · simp only [MgmtServer.step, Function.update_of_ne own] at admitted
        exact sound.vouched other admitted

theorem Sound.run (sound : server.Sound) (events : List ServiceEvent) :
    (server.run events).Sound := by
  induction events generalizing server with
  | nil => exact sound
  | cons event events ih => exact ih (sound.step event)

theorem Reachable.sound (reachable : server.Reachable) : server.Sound := by
  rcases reachable with ⟨argv, args, accessLog, events, -, rfl⟩
  exact (sound_start (isRoster_seedUsers isRoster_usersInit args.users)).run events

end MgmtServer

/-! ## Lines are atomic -/

theorem lower_eq_of_ieq {cmd : CString} {a b : String} (first : ieq cmd a = true)
    (second : ieq cmd b = true) : (ascii a).map toLower = (ascii b).map toLower := by
  rw [ieq, decide_eq_true_iff] at first second
  rw [← first, second]

theorem ieq_eq_false {cmd : CString} {a : String} (word : ieq cmd a = true) (name : String)
    (different : (ascii name).map toLower ≠ (ascii a).map toLower) : ieq cmd name = false := by
  rw [Bool.eq_false_iff]
  exact fun same => different (lower_eq_of_ieq same word)

/-- What a client can rely on when a line is handled with an empty output buffer. -/
structure Atomic (session : MgmtSession) (deps : MgmtDeps) (line : CString) (r : LineResult)
    (response : List UInt8) : Prop where
  begins : ascii "+OK" <+: response ∨ ascii "-ERR" <+: response
  refused : ascii "-ERR" <+: response →
    (∃ text, LF ∉ text ∧ response = text ++ [LF]) ∧ r.session = session ∧ r.deps = deps
  succeeded : ascii "+OK" <+: response → Effect session deps (mgmtTokenize 5 line) r
  /-- A value that was set is echoed, and shown from then on. -/
  shown : ascii "+OK" <+: response → ∀ cmd key value, mgmtTokenize 5 line = [cmd, key, value] →
    ieq cmd "SET" = true → ∃ (parameter : Parameter) (v : UInt32), ieq key parameter.key = true ∧
      response = ascii "+OK " ++ key.bytes ++ ascii " = " ++ decimal v.toNat ++ ascii "\n" ∧
      ∀ (asker : MgmtSession) (asking get : CString), asker.authenticated = true →
        ieq get "GET-CONFIG" = true → mgmtTokenize 5 asking = [get] →
          fieldText parameter.key v.toNat ∈ (mgmtHandleLine asker r.deps asking).printed
  /-- A password that was changed is the only one that admits a new session. -/
  changed : ascii "+OK" <+: response → ∀ cmd pass, mgmtTokenize 5 line = [cmd, pass] →
    ieq cmd "PASSWD" = true → ∀ asking auth name given, ieq auth "AUTH" = true →
      mgmtTokenize 5 asking = [auth, name, given] →
        ((mgmtHandleLine mgmtSessionInit r.deps asking).session.authenticated = true ↔
          name.bytes = deps.admin.name.text ∧ given.bytes = pass.bytes)
  closes : r.close = true ↔ ∃ cmd, mgmtTokenize 5 line = [cmd] ∧ ieq cmd "QUIT" = true

section

variable {session : MgmtSession} {deps : MgmtDeps} {cmd : CString} {r : LineResult}

theorem Effect.of_set {key value : CString} (effect : Effect session deps [cmd, key, value] r)
    (word : ieq cmd "SET" = true) :
    ∃ (parameter : Parameter) (v : UInt32), ieq key parameter.key = true ∧
      r.deps = { deps with config := parameter.write deps.config v } ∧
      r.printed = [ascii "+OK " ++ key.bytes ++ ascii " = " ++ decimal v.toNat ++ ascii "\n"] := by
  cases effect with
  | set _ _ named => exact ⟨_, _, named, rfl, rfl⟩
  | tell other =>
      simp only [tells, Bool.or_eq_true] at other
      rcases other with (((other | other) | other) | other) | other <;>
        exact absurd (lower_eq_of_ieq word other) (by decide)
  | auth other => exact absurd (lower_eq_of_ieq word other) (by decide)
  | addUser _ other => exact absurd (lower_eq_of_ieq word other) (by decide)

theorem Effect.of_passwd {pass : CString} (effect : Effect session deps [cmd, pass] r)
    (word : ieq cmd "PASSWD" = true) :
    session.authenticated = true ∧ r.deps.admin.name = deps.admin.name ∧
      r.deps.admin.pass.text = pass.bytes := by
  cases effect with
  | passwd trusted _ name secret => exact ⟨trusted, name, secret⟩
  | tell other =>
      simp only [tells, Bool.or_eq_true] at other
      rcases other with (((other | other) | other) | other) | other <;>
        exact absurd (lower_eq_of_ieq word other) (by decide)
  | delUser _ other => exact absurd (lower_eq_of_ieq word other) (by decide)

end

theorem mgmtHandleLine_getConfig {session : MgmtSession} {deps : MgmtDeps} {line get : CString}
    (trusted : session.authenticated = true) (word : ieq get "GET-CONFIG" = true)
    (words : mgmtTokenize 5 line = [get]) :
    (mgmtHandleLine session deps line).printed = cmdGetConfig deps := by
  have other := ieq_eq_false word
  simp [mgmtHandleLine, words, mgmtCommand, trusted, word, other "QUIT" (by decide),
    other "HELP" (by decide), other "AUTH" (by decide), other "METRICS" (by decide),
    other "LIST-USERS" (by decide), other "ADD-USER" (by decide), other "DEL-USER" (by decide)]

theorem fieldText_mem_cmdGetConfig (deps : MgmtDeps) (parameter : Parameter) :
    fieldText parameter.key (parameter.read deps.config).toNat ∈ cmdGetConfig deps := by
  cases parameter <;> simp [cmdGetConfig, Parameter.key, Parameter.read]

theorem mgmtHandleLine_auth {deps : MgmtDeps} {line auth name pass : CString}
    (word : ieq auth "AUTH" = true) (words : mgmtTokenize 5 line = [auth, name, pass]) :
    (mgmtHandleLine mgmtSessionInit deps line).session.authenticated =
      adminCheck deps.admin name pass := by
  have other := ieq_eq_false word
  simp only [mgmtHandleLine, words, word, other "QUIT" (by decide), other "HELP" (by decide),
    cmdAuth, mgmtSessionInit, Bool.or_self, Bool.false_eq_true, and_false, if_false, if_true]
  cases adminCheck deps.admin name pass <;> rfl

theorem not_refused_of_begins {response : List UInt8} (success : ascii "+OK" <+: response) :
    ¬ascii "-ERR" <+: response := by
  rintro ⟨rest, rfl⟩
  rcases success with ⟨rest', same⟩
  simp [ascii] at same

theorem line_of_isRefusal {text : List UInt8} (refusal : isRefusal text = true) :
    ascii "-ERR" <+: text ∧ LF ∉ text.dropLast ∧ text = text.dropLast ++ [LF] := by
  rw [isRefusal, Bool.and_eq_true, List.isPrefixOf_iff_prefix] at refusal
  rcases isShortLine_iff refusal.2 with ⟨ended, -, clean⟩
  refine ⟨?_, clean.1, ended⟩
  have begins : ascii "-ERR" <+: ascii "-ERR " := ⟨ascii " ", by decide⟩
  exact begins.trans (refusal.1.trans (List.dropLast_prefix text))

theorem Settled.atomic {session : MgmtSession} {deps : MgmtDeps} {line : CString}
    (settled : Settled session deps (mgmtTokenize 5 line) (mgmtHandleLine session deps line))
    (vouched : session.authenticated = true → deps.admin.name.text ≠ []) :
    Atomic session deps line (mgmtHandleLine session deps line)
      (mgmtHandleLine session deps line).printed.flatten := by
  rcases settled with ⟨-, sameSession, sameDeps, text, printed, refusal⟩ |
    ⟨effect, text, later, printed, begins⟩
  · rcases line_of_isRefusal refusal with ⟨error, single, ended⟩
    have response : (mgmtHandleLine session deps line).printed.flatten = text := by simp [printed]
    have impossible : ¬ascii "+OK" <+: (mgmtHandleLine session deps line).printed.flatten :=
      fun success => not_refused_of_begins success (response ▸ error)
    exact
      { begins := .inr (response ▸ error)
        refused := fun _ => ⟨⟨_, single, response.trans ended⟩, sameSession, sameDeps⟩
        succeeded := fun success => absurd success impossible
        shown := fun success => absurd success impossible
        changed := fun success => absurd success impossible
        closes := close_mgmtHandleLine_iff session deps line }
  · have success : ascii "+OK" <+: (mgmtHandleLine session deps line).printed.flatten := by
      have short : ascii "+OK" <+: ascii "+OK " := ⟨ascii " ", by decide⟩
      rw [printed, List.flatten_cons]
      exact (short.trans begins).trans (List.prefix_append _ _)
    refine
      { begins := .inl success
        refused := fun error => absurd error (not_refused_of_begins success)
        succeeded := fun _ => effect
        shown := ?_
        changed := ?_
        closes := close_mgmtHandleLine_iff session deps line }
    · intro _ cmd key value words word
      rw [words] at effect
      rcases effect.of_set word with ⟨parameter, v, named, written, echoed⟩
      refine ⟨parameter, v, named, by simp [echoed], ?_⟩
      intro asker asking get trusted asks askedWords
      rw [mgmtHandleLine_getConfig trusted asks askedWords]
      have shown := fieldText_mem_cmdGetConfig (mgmtHandleLine session deps line).deps parameter
      rw [written] at shown ⊢
      simpa [Parameter.read_write] using shown
    · intro _ cmd pass words word asking auth name given asks askedWords
      rw [words] at effect
      rcases effect.of_passwd word with ⟨trusted, sameName, secret⟩
      rw [mgmtHandleLine_auth asks askedWords, adminCheck_iff, sameName, secret,
        and_iff_right (vouched trusted)]

/-- Commands are all or nothing and touch only what they name. In every state the service can be in,
a line is answered with `+OK` or `-ERR`; an error is one line and leaves the session and everything
shared as they were, a success does what its command is for and no more, and the session is closed
exactly if the line is `QUIT`, in any letter case. -/
theorem MgmtServer.commands_are_atomic {server : MgmtServer} (reachable : server.Reachable)
    (id : Nat) (line : CString) (out : Buffer) (empty : out.contents = [])
    (size : out.limit = MGMT_OUTPUT_BUFFER_SIZE) :
    let session := (server.sessions id).session
    let r := mgmtHandleLine session server.deps line
    Atomic session server.deps line r (outPrintfAll out r.printed).contents := by
  intro session r
  have sound := reachable.sound
  rcases proper_mgmtHandleLine session server.deps line with ⟨answer, proper⟩
  have room : r.printed.flatten.length ≤ out.space := by
    rw [out.space_of_empty empty, size]
    exact proper.all
  have printed : (outPrintfAll out r.printed).contents = r.printed.flatten := by
    rw [(contents_outPrintfAll proper.each room).1, empty, List.nil_append]
  rw [printed]
  exact (Line.settled session sound.isRoster (.ready line)).atomic (sound.vouched id)

/-- The password is changed by a session that the configured administrator has opened. -/
theorem MgmtServer.commands_are_atomic_for_administrator :
    ∃ (server : MgmtServer) (r : LineResult), server.Reachable ∧
      (server.sessions 0).session.authenticated = true ∧
      r = mgmtHandleLine (server.sessions 0).session server.deps
        ⟨ascii "PASSWD new", by decide⟩ ∧
      r.printed = [ascii "+OK password changed\n"] ∧
      server.deps.admin.pass.text = ascii "old" ∧ r.deps.admin.pass.text = ascii "new" ∧
      Atomic (server.sessions 0).session server.deps ⟨ascii "PASSWD new", by decide⟩ r
        (outPrintfAll (Buffer.init MGMT_OUTPUT_BUFFER_SIZE) r.printed).contents := by
  let args : Socks5Args :=
    { defaultArgs with admin := some ⟨⟨ascii "root", by decide⟩, ⟨ascii "old", by decide⟩⟩ }
  let server := (start (mgmtDepsInit args ⟨true, []⟩)).run
    [.line 0 (.ready ⟨ascii "AUTH root old", by decide⟩)]
  have reachable : server.Reachable :=
    ⟨[⟨ascii "-a", by decide⟩, ⟨ascii "root:old", by decide⟩], args, ⟨true, []⟩, _, rfl, rfl⟩
  refine ⟨server, _, reachable, ?_, rfl, ?_, ?_, ?_,
    commands_are_atomic reachable 0 _ (Buffer.init MGMT_OUTPUT_BUFFER_SIZE) rfl rfl⟩
  · decide +kernel
  · decide +kernel
  · decide +kernel
  · decide +kernel

end SocksProxy
