import SocksProxy.Management.Responses

/-!
# What commands do

A line is refused, with one line that says why and nothing else done, or it is
answered and does what its command is for. `Effect` lists what that is, command
by command, in terms of the accounts, the parameters and the passwords that the
structures of the server stand for.
-/

namespace SocksProxy

/-- The parameters of the configuration that `SET` can name. -/
inductive Parameter where
  | connTimeout
  | ioBufferSize
  | maxConnections
  deriving DecidableEq, Repr

namespace Parameter

/-- The name of the parameter. -/
def key : Parameter → String
  | .connTimeout => "conn_timeout"
  | .ioBufferSize => "io_buffer_size"
  | .maxConnections => "max_connections"

/-- The value of the parameter. -/
def read (cfg : Config) : Parameter → UInt32
  | .connTimeout => cfg.connTimeout
  | .ioBufferSize => cfg.ioBufferSize
  | .maxConnections => cfg.maxConnections

/-- The configuration with another value of the parameter. -/
def write (cfg : Config) (v : UInt32) : Parameter → Config
  | .connTimeout => { cfg with connTimeout := v }
  | .ioBufferSize => { cfg with ioBufferSize := v }
  | .maxConnections => { cfg with maxConnections := v }

theorem read_write (cfg : Config) (v : UInt32) (written asked : Parameter) :
    asked.read (written.write cfg v) = if asked = written then v else asked.read cfg := by
  cases written <;> cases asked <;> rfl

end Parameter

/-- Whether a word is a command that only tells something. -/
def tells (cmd : CString) : Bool :=
  ieq cmd "HELP" || ieq cmd "METRICS" || ieq cmd "LIST-USERS" || ieq cmd "GET-CONFIG" ||
    ieq cmd "LOG"

/-- What a line that is answered with success does, by its words: what the session and the shared
resources are afterwards. -/
inductive Effect (session : MgmtSession) (deps : MgmtDeps) : List CString → LineResult → Prop where
  | quit {cmd : CString} {printed : List (List UInt8)} (word : ieq cmd "QUIT" = true) :
      Effect session deps [cmd] ⟨true, session, deps, printed⟩
  | tell {cmd : CString} {args : List CString} {printed : List (List UInt8)}
      (word : tells cmd = true) : Effect session deps (cmd :: args) ⟨false, session, deps, printed⟩
  | auth {cmd name pass : CString} {printed : List (List UInt8)} (word : ieq cmd "AUTH" = true)
      (valid : adminCheck deps.admin name pass = true) :
      Effect session deps [cmd, name, pass] ⟨false, ⟨true⟩, deps, printed⟩
  | addUser {cmd name pass : CString} {users : Users} {printed : List (List UInt8)}
      (trusted : session.authenticated = true) (word : ieq cmd "ADD-USER" = true)
      (valid : ValidAccount name.bytes pass.bytes) (room : deps.users.count < USERS_MAX)
      (fresh : name.bytes ∉ deps.users.names)
      (accounts : users.accounts = deps.users.accounts ++ [(name.bytes, pass.bytes)]) :
      Effect session deps [cmd, name, pass] ⟨false, session, { deps with users }, printed⟩
  | delUser {cmd name : CString} {users : Users} {printed : List (List UInt8)}
      (trusted : session.authenticated = true) (word : ieq cmd "DEL-USER" = true)
      (present : name.bytes ∈ deps.users.names)
      (accounts :
        users.accounts = deps.users.accounts.filter fun account => account.1 ≠ name.bytes) :
      Effect session deps [cmd, name] ⟨false, session, { deps with users }, printed⟩
  | set {cmd key value : CString} {parameter : Parameter} {v : UInt32}
      (trusted : session.authenticated = true) (word : ieq cmd "SET" = true)
      (named : ieq key parameter.key = true) :
      Effect session deps [cmd, key, value]
        ⟨false, session, { deps with config := parameter.write deps.config v },
          [ascii "+OK " ++ key.bytes ++ ascii " = " ++ decimal v.toNat ++ ascii "\n"]⟩
  | passwd {cmd pass : CString} {admin : AdminCreds} {printed : List (List UInt8)}
      (trusted : session.authenticated = true) (word : ieq cmd "PASSWD" = true)
      (name : admin.name = deps.admin.name)
      (secret : admin.pass.text = pass.bytes) :
      Effect session deps [cmd, pass] ⟨false, session, { deps with admin }, printed⟩

/-- Whether a text is one line with an error. -/
def isRefusal (text : List UInt8) : Bool :=
  (ascii "-ERR ").isPrefixOf text.dropLast && isShortLine text

/-- A line is refused with one line, or it is answered and has the effect of its command. -/
def Settled (session : MgmtSession) (deps : MgmtDeps) (tokens : List CString) (r : LineResult) :
    Prop :=
  (r.close = false ∧ r.session = session ∧ r.deps = deps ∧
      ∃ text, r.printed = [text] ∧ isRefusal text = true) ∨
    Effect session deps tokens r ∧ ∃ text later, r.printed = text :: later ∧ ascii "+OK " <+: text

section

variable {session : MgmtSession} {deps : MgmtDeps} {tokens : List CString} {r : LineResult}

theorem Settled.refused {text : List UInt8} (refusal : isRefusal text = true) :
    Settled session deps tokens ⟨false, session, deps, [text]⟩ :=
  .inl ⟨rfl, rfl, rfl, text, rfl, refusal⟩

theorem Settled.succeeded {text : List UInt8} {later : List (List UInt8)}
    (effect : Effect session deps tokens r) (printed : r.printed = text :: later)
    (begins : (ascii "+OK ").isPrefixOf text = true) : Settled session deps tokens r :=
  .inr ⟨effect, text, later, printed, List.isPrefixOf_iff_prefix.mp begins⟩

end

theorem adminCheck_iff {a : AdminCreds} {name pass : CString} :
    adminCheck a name pass = true ↔
      a.name.text ≠ [] ∧ name.bytes = a.name.text ∧ pass.bytes = a.pass.text := by
  unfold adminCheck
  split
  · next nobody => simp [nobody]
  · rename_i somebody
    rw [Bool.and_eq_true, decide_eq_true_iff, decide_eq_true_iff, and_iff_right somebody]
    exact and_congr eq_comm eq_comm

/-! ## Command by command -/

section

variable {session : MgmtSession} {deps : MgmtDeps} {cmd : CString} {roster : Roster}

theorem begins_countText (n : Nat) : (ascii "+OK ").isPrefixOf (countText n) = true := by
  rw [countText, List.append_assoc, List.isPrefixOf_iff_prefix]
  exact List.prefix_append _ _

theorem settled_cmdAddUser (trusted : session.authenticated = true)
    (word : ieq cmd "ADD-USER" = true) (args : List CString) :
    Settled session deps (cmd :: args)
      ⟨false, session, (cmdAddUser deps args).1, (cmdAddUser deps args).2⟩ := by
  unfold cmdAddUser
  split
  · split
    · exact .refused (by decide)
    · split
      · exact .refused (by decide)
      · split
        · rename_i added
          rcases Users.usersAdd_isSome.mp (Option.isSome_of_eq_some added) with
            ⟨⟨name, pass, shortName, shortPass⟩, room, fresh⟩
          exact .succeeded (.addUser trusted word ⟨⟨name, shortName⟩, pass, shortPass⟩ room fresh
            (Users.accounts_usersAdd added)) rfl (by decide)
        · exact .refused (by decide)
  · exact .refused (by decide)

theorem settled_cmdDelUser (refines : deps.users.Refines roster)
    (trusted : session.authenticated = true) (word : ieq cmd "DEL-USER" = true)
    (args : List CString) :
    Settled session deps (cmd :: args)
      ⟨false, session, (cmdDelUser deps args).1, (cmdDelUser deps args).2⟩ := by
  unfold cmdDelUser
  split
  · rename_i name
    split
    · rename_i users deleted
      have done := refines.del name
      rw [deleted, OrderedMap.erase?] at done
      split at done
      · rename_i present
        cases done with
        | some refined =>
            refine .succeeded (.delUser trusted word (refines.names_eq ▸ present) ?_) rfl
              (by decide)
            rw [refined, refines]
      · cases done
    · exact .refused (by decide)
  · exact .refused (by decide)

/-- The setter that `cmd_set` chooses is the one of the parameter it is given. -/
theorem configSet_eq_some {cfg config : Config} {key : CString} {v : UInt32}
    (known :
      (ieq key "conn_timeout" || ieq key "io_buffer_size" || ieq key "max_connections") = true)
    (accepted : configSet cfg key v = some config) :
    ∃ parameter : Parameter, ieq key parameter.key = true ∧ config = parameter.write cfg v := by
  unfold configSet configSetConnTimeout configSetIoBufferSize configSetMaxConnections at accepted
  split at accepted
  · rename_i same
    split at accepted <;> cases accepted
    exact ⟨.connTimeout, same, rfl⟩
  split at accepted
  · rename_i same
    split at accepted <;> cases accepted
    exact ⟨.ioBufferSize, same, rfl⟩
  · rename_i first second
    split at accepted <;> cases accepted
    rw [Bool.not_eq_true] at first second
    rw [first, second] at known
    exact ⟨.maxConnections, known, rfl⟩

theorem settled_cmdSet (trusted : session.authenticated = true) (word : ieq cmd "SET" = true)
    (args : List CString) :
    Settled session deps (cmd :: args)
      ⟨false, session, (cmdSet deps args).1, (cmdSet deps args).2⟩ := by
  unfold cmdSet
  split
  · split
    · rename_i known
      split
      · exact .refused (by decide)
      · split
        · rename_i accepted
          rcases configSet_eq_some known accepted with ⟨parameter, named, rfl⟩
          refine .succeeded (.set trusted word named) rfl ?_
          rw [List.isPrefixOf_iff_prefix]
          simp only [List.append_assoc]
          exact List.prefix_append _ _
        · exact .refused (by decide)
    · exact .refused (by decide)
  · exact .refused (by decide)

theorem settled_cmdLog (word : tells cmd = true) (args : List CString) :
    Settled session deps (cmd :: args) ⟨false, session, deps, cmdLog deps args⟩ := by
  unfold cmdLog
  split
  · exact .succeeded (.tell word) rfl (begins_countText _)
  · split
    · exact .refused (by decide)
    · exact .succeeded (.tell word) rfl (begins_countText _)
  · exact .refused (by decide)

/-- The password that is set is the whole of the one that is given. -/
theorem adminSetPass_eq_some {a admin : AdminCreds} {pass : CString}
    (accepted : adminSetPass a pass = some admin) :
    admin.name = a.name ∧ admin.pass.text = pass.bytes := by
  unfold adminSetPass at accepted
  split at accepted
  · cases accepted
  · rename_i fits
    cases accepted
    refine ⟨rfl, ?_⟩
    have short : pass.bytes.length ≤ USERS_NAME_MAX := by
      simp only [USERS_PASS_MAX, USERS_NAME_MAX, not_or, Nat.not_le] at fits ⊢
      omega
    simp [CharArray.print, CString.take, List.take_of_length_le short]

theorem settled_cmdPasswd (trusted : session.authenticated = true) (word : ieq cmd "PASSWD" = true)
    (args : List CString) :
    Settled session deps (cmd :: args)
      ⟨false, session, (cmdPasswd deps args).1, (cmdPasswd deps args).2⟩ := by
  unfold cmdPasswd
  split
  · split
    · rename_i accepted
      rcases adminSetPass_eq_some accepted with ⟨name, secret⟩
      exact .succeeded (.passwd trusted word name secret) rfl (by decide)
    · exact .refused (by decide)
  · exact .refused (by decide)

theorem settled_cmdAuth (word : ieq cmd "AUTH" = true) (args : List CString) :
    Settled session deps (cmd :: args)
      ⟨false, (cmdAuth session deps args).1, deps, (cmdAuth session deps args).2⟩ := by
  unfold cmdAuth
  split
  · exact .refused (by decide)
  · split
    · split
      · rename_i valid
        exact .succeeded (.auth word valid) rfl (by decide)
      · exact .refused (by decide)
    · exact .refused (by decide)

theorem settled_mgmtCommand (refines : deps.users.Refines roster)
    (trusted : session.authenticated = true) (args : List CString) :
    Settled session deps (cmd :: args)
      ⟨false, session, (mgmtCommand deps cmd args).1, (mgmtCommand deps cmd args).2⟩ := by
  unfold mgmtCommand
  split
  · exact .refused (by decide)
  split
  · next word => exact .succeeded (.tell (by simp [tells, word])) rfl (by decide)
  split
  · next word => exact .succeeded (.tell (by simp [tells, word])) rfl (begins_countText _)
  split
  · next word => exact settled_cmdAddUser trusted word args
  split
  · next word => exact settled_cmdDelUser refines trusted word args
  split
  · next word => exact .succeeded (.tell (by simp [tells, word])) rfl (by decide)
  split
  · next word => exact settled_cmdSet trusted word args
  split
  · next word => exact settled_cmdLog (by simp [tells, word]) args
  split
  · next word => exact settled_cmdPasswd trusted word args
  · exact .refused (by decide)

/-- Every line is refused or has the effect of its command. -/
theorem settled_mgmtHandleLine (refines : deps.users.Refines roster) (line : CString) :
    Settled session deps (mgmtTokenize 5 line) (mgmtHandleLine session deps line) := by
  unfold mgmtHandleLine
  split
  · exact .refused (by decide)
  · rename_i cmd args words
    rw [words]
    split
    · exact .refused (by decide)
    rename_i arity
    split
    · rename_i word
      obtain rfl : args = [] := by
        by_contra extra
        exact arity ⟨extra, by simp [word]⟩
      exact .succeeded (.quit word) rfl (by decide)
    split
    · next word => exact .succeeded (.tell (by simp [tells, word])) rfl (by decide)
    split
    · next word => exact settled_cmdAuth word args
    split
    · exact .refused (by decide)
    · rename_i trusted
      exact settled_mgmtCommand refines (Bool.not_eq_false _ ▸ trusted) args

end

theorem close_mgmtHandleLine_iff (session : MgmtSession) (deps : MgmtDeps) (line : CString) :
    (mgmtHandleLine session deps line).close = true ↔
      ∃ cmd, mgmtTokenize 5 line = [cmd] ∧ ieq cmd "QUIT" = true := by
  unfold mgmtHandleLine
  split
  · next words => simp [words]
  · rename_i cmd args words
    rw [words]
    split
    · rename_i arity
      simp only [Bool.false_eq_true, List.cons.injEq, false_iff, not_exists, not_and]
      rintro cmd' ⟨-, none⟩
      exact absurd none arity.1
    split
    · rename_i arity word
      have alone : args = [] := by
        by_contra extra
        exact arity ⟨extra, by simp [word]⟩
      simp [alone, word]
    · rename_i word
      have other : ¬∃ cmd', cmd :: args = [cmd'] ∧ ieq cmd' "QUIT" = true := by
        rintro ⟨cmd', same, quits⟩
        rw [(List.cons.inj same).1] at word
        exact word quits
      split
      · simpa using other
      split
      · simpa using other
      split <;> simpa using other

end SocksProxy
