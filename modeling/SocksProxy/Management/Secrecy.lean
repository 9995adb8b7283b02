import SocksProxy.Management.Service

/-!
# What management sessions cannot learn

Two runs of the service are compared. A session that was never admitted says the
same to its client whatever the server holds, and changes nothing. The passwords
of the proxy's users never show: services that differ in them alone say the same
to all of their clients, whatever commands these send.
-/

namespace SocksProxy

/-! ## Sessions that were not admitted -/

/-- The line is an `AUTH` with exactly the name and the password the administrator has, if there is
one. -/
def Line.Matches (deps : MgmtDeps) (line : Line) : Prop :=
  ∃ auth name pass, line.tokens = [auth, name, pass] ∧ ieq auth "AUTH" = true ∧
    deps.admin.name.text ≠ [] ∧ name.bytes = deps.admin.name.text ∧
      pass.bytes = deps.admin.pass.text

instance (deps : MgmtDeps) (line : Line) : Decidable (line.Matches deps) :=
  decidable_of_iff
    ((match line.tokens with
      | [auth, name, pass] => ieq auth "AUTH" && adminCheck deps.admin name pass
      | _ => false) = true) (by
    unfold Line.Matches
    split
    · next words => simp [words, adminCheck_iff]
    · next other =>
        simp only [Bool.false_eq_true, false_iff, not_exists, not_and]
        intro auth name pass words
        exact absurd words (other auth name pass))

/-- Without the administrator's credentials a line does nothing, and what is printed for it does not
depend on anything shared. -/
theorem Line.answer_of_not_matches {deps deps' : MgmtDeps} {line : Line}
    (unmatched : ¬line.Matches deps) (unmatched' : ¬line.Matches deps') :
    line.answer mgmtSessionInit deps =
      { line.answer mgmtSessionInit deps' with deps, session := mgmtSessionInit } := by
  cases line with
  | tooLong | invalid => rfl
  | ready text =>
      have check : ∀ {deps : MgmtDeps} {auth name pass : CString},
          ¬(Line.ready text).Matches deps → mgmtTokenize 5 text = [auth, name, pass] →
            ieq auth "AUTH" = true → adminCheck deps.admin name pass = false := by
        intro deps auth name pass unmatched words word
        rw [Bool.eq_false_iff]
        intro valid
        exact unmatched ⟨auth, name, pass, words, word, adminCheck_iff.mp valid⟩
      simp only [Line.answer, mgmtHandleLine]
      split
      · rfl
      · rename_i cmd args words
        split
        · rfl
        split
        · rfl
        split
        · rfl
        split
        · rename_i word
          unfold cmdAuth
          simp only [mgmtSessionInit, Bool.false_eq_true, if_false]
          split
          · rename_i name pass
            rw [check unmatched words word, check unmatched' words word]
            rfl
          · rfl
        · rfl

namespace Sequential

variable {s : Sequential} {items : List Occurrence}

/-- No line comes with the credentials that the administrator has when it is answered. -/
def Unmatched (s : Sequential) (items : List Occurrence) : Prop :=
  ∀ before line after, items = before ++ .line line :: after →
    ¬line.Matches (s.serve before).deps

theorem Unmatched.tail {item : Occurrence} (unmatched : s.Unmatched (item :: items)) :
    (s.next item).Unmatched items := by
  intro before line after split
  exact unmatched (item :: before) line after (by rw [split, List.cons_append])

theorem unmatched_nil (s : Sequential) : s.Unmatched [] := by
  intro before line after split
  simp at split

theorem unmatched_cons {item : Occurrence}
    (first : ∀ line, item = .line line → ¬line.Matches s.deps)
    (later : (s.next item).Unmatched items) : s.Unmatched (item :: items) := by
  intro before line after split
  cases before with
  | nil => exact first line (List.cons.inj split).1
  | cons item' before =>
      rcases List.cons.inj split with ⟨rfl, rest⟩
      exact later before line after rest

theorem Unmatched.of_append {before after : List Occurrence}
    (unmatched : s.Unmatched (before ++ after)) : s.Unmatched before := by
  intro front line back split
  refine unmatched front line (back ++ after) ?_
  rw [split, List.append_assoc, List.cons_append]

theorem answer_of_not_matches {line : Line} (session : s.session = mgmtSessionInit)
    (unmatched : ¬line.Matches s.deps) :
    (s.answer line).session = mgmtSessionInit ∧ (s.answer line).deps = s.deps := by
  have answered := Line.answer_of_not_matches unmatched unmatched
  unfold answer
  split
  · exact ⟨session, rfl⟩
  · simp only [session]
    rw [answered]
    exact ⟨rfl, rfl⟩

/-- A session that was not admitted says what it says on a server that has no administrator. -/
theorem Unmatched.serve (unmatched : s.Unmatched items) (session : s.session = mgmtSessionInit)
    (nobody : Sequential) (unadmitted : nobody.session = mgmtSessionInit)
    (vacant : nobody.deps.admin.name.text = []) (output : nobody.output = s.output)
    (closed : nobody.closed = s.closed) :
    (s.serve items).session = mgmtSessionInit ∧
      (s.serve items).output = (nobody.answerAll (Occurrence.lines items)).output := by
  induction items generalizing s nobody with
  | nil => exact ⟨session, output.symm⟩
  | cons item items ih =>
      cases item with
      | elsewhere change => exact ih unmatched.tail session nobody unadmitted vacant output closed
      | line line =>
          have own : ¬line.Matches s.deps := unmatched [] line items rfl
          have none : ¬line.Matches nobody.deps := by
            rintro ⟨_, _, _, -, -, somebody, -⟩
            exact somebody vacant
          have same := Line.answer_of_not_matches own none
          have kept := answer_of_not_matches session own
          have keptNobody := answer_of_not_matches unadmitted none
          refine ih unmatched.tail kept.1 (nobody.answer line) keptNobody.1
            (keptNobody.2 ▸ vacant) ?_ ?_
          · simp only [next, answer, closed, session, unadmitted, same]
            split
            · exact output
            · rw [output]
          · simp only [next, answer, closed, session, unadmitted, same]
            split
            · exact closed
            · rfl

end Sequential

/-- A session that was not admitted can neither change nor observe the server. As long as no line is
an `AUTH` with the name and password the administrator has at that moment, each line leaves the
session unauthenticated and everything that is shared as it was, whatever happens elsewhere; and the
client is told the same by any other server, with other changes made elsewhere. -/
theorem unauthenticated_session_is_blind (deps deps' : MgmtDeps) (items items' : List Occurrence)
    (sameLines : Occurrence.lines items = Occurrence.lines items')
    (unmatched : (Sequential.start deps).Unmatched items)
    (unmatched' : (Sequential.start deps').Unmatched items') :
    (∀ before line after, items = before ++ .line line :: after →
      let s := (Sequential.start deps).serve before
      s.session.authenticated = false ∧ (s.answer line).session = s.session ∧
        (s.answer line).deps = s.deps) ∧
      ((Sequential.start deps).serve items).session.authenticated = false ∧
      ((Sequential.start deps).serve items).output =
        ((Sequential.start deps').serve items').output := by
  let nobody := Sequential.start (mgmtDepsInit defaultArgs ⟨false, []⟩)
  have vacant : nobody.deps.admin.name.text = [] := by decide
  have blind := unmatched.serve rfl nobody rfl vacant rfl rfl
  have blind' := unmatched'.serve rfl nobody rfl vacant rfl rfl
  refine ⟨?_, by rw [blind.1]; rfl, by rw [blind.2, blind'.2, sameLines]⟩
  rintro before line after rfl
  have earlier := unmatched.of_append.serve rfl nobody rfl vacant rfl rfl
  have kept := Sequential.answer_of_not_matches earlier.1 (unmatched before line after rfl)
  exact ⟨by rw [earlier.1]; rfl, kept.1.trans earlier.1.symm, kept.2⟩

/-- A wrong password and a wrong name are answered alike by servers of different administrators. -/
theorem unauthenticated_session_is_blind_to_administrator :
    let deps := mgmtDepsInit
      { defaultArgs with admin := some ⟨⟨ascii "root", by decide⟩, ⟨ascii "old", by decide⟩⟩ }
      ⟨true, []⟩
    let deps' := mgmtDepsInit
      { defaultArgs with admin := some ⟨⟨ascii "boss", by decide⟩, ⟨ascii "old", by decide⟩⟩ }
      ⟨true, []⟩
    let items := [Occurrence.line (.ready ⟨ascii "AUTH root bad", by decide⟩),
      .line (.ready ⟨ascii "METRICS", by decide⟩)]
    ((Sequential.start deps).serve items).output =
      ((Sequential.start deps').serve items).output := by
  intro deps deps' items
  refine (unauthenticated_session_is_blind deps deps' items items rfl ?_ ?_).2.2
  all_goals
    refine Sequential.unmatched_cons ?_
      (Sequential.unmatched_cons ?_ (Sequential.unmatched_nil _))
    all_goals
      rintro line ⟨⟩
      decide +kernel

/-! ## Passwords of the proxy's users -/

/-- The shared resources are the same, but for the passwords in the store. -/
structure SameButPasswords (deps deps' : MgmtDeps) : Prop where
  names : deps.users.names = deps'.users.names
  metrics : deps.metrics = deps'.metrics
  config : deps.config = deps'.config
  accessLog : deps.accessLog = deps'.accessLog
  logOpens : deps.logOpens = deps'.logOpens
  admin : deps.admin = deps'.admin

namespace Users

variable {s s' after after' : Users} {name : CString}

theorem usersFind_eq_of_names (same : s.names = s'.names) :
    usersFind s name = usersFind s' name := by
  have count : s.count = s'.count := by rw [← length_names, same, length_names]
  have texts : ∀ i < s.count, (s.entries i).name.text = (s'.entries i).name.text := by
    intro i within
    have entry := (s.getElem?_names i).symm.trans (same ▸ s'.getElem?_names i)
    simpa [usersNameAt, within, count ▸ within] using entry
  apply Option.ext
  intro i
  rw [usersFind_eq_some_iff, usersFind_eq_some_iff, ← count]
  refine and_congr_right fun within => and_congr (by rw [texts i within]) ?_
  exact forall₂_congr fun j before => by rw [texts j (Nat.lt_trans before within)]

theorem names_usersDel_eq (same : s.names = s'.names) (deleted : usersDel s name = some after)
    (deleted' : usersDel s' name = some after') : after.names = after'.names := by
  rcases accounts_usersDel deleted with ⟨i, found, erased⟩
  rcases accounts_usersDel deleted' with ⟨i', found', erased'⟩
  rw [← usersFind_eq_of_names same, found, Option.some.injEq] at found'
  rw [names, erased, names, erased', ← List.eraseIdx_map, ← List.eraseIdx_map, ← found']
  exact congrArg (List.eraseIdx · i) same

theorem usersDel_isSome_eq (same : s.names = s'.names) (name : CString) :
    (usersDel s name).isSome = (usersDel s' name).isSome := by
  simp only [usersDel, usersFind_eq_of_names same]
  cases usersFind s' name <;> rfl

theorem usersAdd_isSome_eq (same : s.names = s'.names) (name pass : CString) :
    (usersAdd s name pass).isSome = (usersAdd s' name pass).isSome := by
  rw [Bool.eq_iff_iff, usersAdd_isSome, usersAdd_isSome, ← length_names, same, length_names]

end Users

namespace SameButPasswords

variable {deps deps' : MgmtDeps}

theorem count_eq (same : SameButPasswords deps deps') : deps.users.count = deps'.users.count := by
  rw [← Users.length_names, same.names, Users.length_names]

/-- Two results of a command differ in passwords only. -/
def Results (r r' : MgmtDeps × List (List UInt8)) : Prop :=
  r.2 = r'.2 ∧ SameButPasswords r.1 r'.1

theorem cmdListUsers (same : SameButPasswords deps deps') :
    SocksProxy.cmdListUsers deps = SocksProxy.cmdListUsers deps' := by
  simp only [SocksProxy.cmdListUsers, usersCount, ← Users.getElem?_names, same.names, same.count_eq]

theorem cmdMetrics (same : SameButPasswords deps deps') :
    SocksProxy.cmdMetrics deps = SocksProxy.cmdMetrics deps' := by
  simp only [SocksProxy.cmdMetrics, usersCount, same.metrics, same.count_eq]

theorem cmdLog (same : SameButPasswords deps deps') (args : List CString) :
    SocksProxy.cmdLog deps args = SocksProxy.cmdLog deps' args := by
  simp only [SocksProxy.cmdLog, logTexts, same.accessLog, same.logOpens]

theorem cmdAddUser (same : SameButPasswords deps deps') (args : List CString) :
    Results (SocksProxy.cmdAddUser deps args) (SocksProxy.cmdAddUser deps' args) := by
  unfold SocksProxy.cmdAddUser
  split
  · rename_i name pass
    have known : usersExists deps.users name = usersExists deps'.users name := by
      rw [usersExists, usersExists, Users.usersFind_eq_of_names same.names]
    rw [usersCount, usersCount, ← same.count_eq, ← known]
    split
    · exact ⟨rfl, same⟩
    split
    · exact ⟨rfl, same⟩
    have accepted := Users.usersAdd_isSome_eq same.names name pass
    cases added : usersAdd deps.users name pass with
    | none =>
        cases added' : usersAdd deps'.users name pass with
        | none => exact ⟨rfl, same⟩
        | some after' => simp [added, added'] at accepted
    | some after =>
        cases added' : usersAdd deps'.users name pass with
        | none => simp [added, added'] at accepted
        | some after' =>
            refine ⟨rfl, { same with names := ?_ }⟩
            simp only [Users.names, Users.accounts_usersAdd added, Users.accounts_usersAdd added',
              List.map_append]
            exact congrArg (· ++ _) same.names
  · exact ⟨rfl, same⟩

theorem cmdDelUser (same : SameButPasswords deps deps') (args : List CString) :
    Results (SocksProxy.cmdDelUser deps args) (SocksProxy.cmdDelUser deps' args) := by
  unfold SocksProxy.cmdDelUser
  split
  · rename_i name
    have accepted := Users.usersDel_isSome_eq same.names name
    cases deleted : usersDel deps.users name with
    | none =>
        cases deleted' : usersDel deps'.users name with
        | none => exact ⟨rfl, same⟩
        | some after' => simp [deleted, deleted'] at accepted
    | some after =>
        cases deleted' : usersDel deps'.users name with
        | none => simp [deleted, deleted'] at accepted
        | some after' =>
            exact ⟨rfl, { same with names := Users.names_usersDel_eq same.names deleted deleted' }⟩
  · exact ⟨rfl, same⟩

theorem cmdSet (same : SameButPasswords deps deps') (args : List CString) :
    Results (SocksProxy.cmdSet deps args) (SocksProxy.cmdSet deps' args) := by
  unfold SocksProxy.cmdSet
  split
  · split
    · split
      · exact ⟨rfl, same⟩
      · rw [← same.config]
        split
        · exact ⟨rfl, { same with config := rfl }⟩
        · exact ⟨rfl, same⟩
    · exact ⟨rfl, same⟩
  · exact ⟨rfl, same⟩

theorem cmdPasswd (same : SameButPasswords deps deps') (args : List CString) :
    Results (SocksProxy.cmdPasswd deps args) (SocksProxy.cmdPasswd deps' args) := by
  unfold SocksProxy.cmdPasswd
  rw [← same.admin]
  split
  · split
    · exact ⟨rfl, { same with admin := rfl }⟩
    · exact ⟨rfl, same⟩
  · exact ⟨rfl, same⟩

theorem mgmtCommand (same : SameButPasswords deps deps') (cmd : CString) (args : List CString) :
    Results (SocksProxy.mgmtCommand deps cmd args) (SocksProxy.mgmtCommand deps' cmd args) := by
  unfold SocksProxy.mgmtCommand
  split
  · exact ⟨rfl, same⟩
  split
  · exact ⟨same.cmdMetrics, same⟩
  split
  · exact ⟨same.cmdListUsers, same⟩
  split
  · exact same.cmdAddUser args
  split
  · exact same.cmdDelUser args
  split
  · exact ⟨by simp only [cmdGetConfig, same.config], same⟩
  split
  · exact same.cmdSet args
  split
  · exact ⟨same.cmdLog args, same⟩
  split
  · exact same.cmdPasswd args
  · exact ⟨rfl, same⟩

/-- A line is answered alike, and what it leaves is again the same but for passwords. -/
theorem answer (same : SameButPasswords deps deps') (session : MgmtSession) (line : Line) :
    let r := line.answer session deps
    let r' := line.answer session deps'
    r.close = r'.close ∧ r.session = r'.session ∧ r.printed = r'.printed ∧
      SameButPasswords r.deps r'.deps := by
  intro r r'
  cases line with
  | tooLong | invalid => exact ⟨rfl, rfl, rfl, same⟩
  | ready text =>
      simp only [r, r', Line.answer, mgmtHandleLine]
      split
      · exact ⟨rfl, rfl, rfl, same⟩
      split
      · exact ⟨rfl, rfl, rfl, same⟩
      split
      · exact ⟨rfl, rfl, rfl, same⟩
      split
      · exact ⟨rfl, rfl, rfl, same⟩
      split
      · simp only [cmdAuth, same.admin]
        exact ⟨trivial, trivial, trivial, same⟩
      split
      · exact ⟨rfl, rfl, rfl, same⟩
      · rename_i cmd args _ _ _ _ _ _
        have done := same.mgmtCommand cmd args
        exact ⟨rfl, rfl, done.1, done.2⟩

end SameButPasswords

/-- Two sessions on such servers go on alike. -/
theorem Sequential.answer_alike (s s' : Sequential) (session : s.session = s'.session)
    (output : s.output = s'.output) (closed : s.closed = s'.closed)
    (same : SameButPasswords s.deps s'.deps) (line : Line) :
    (s.answer line).session = (s'.answer line).session ∧
      (s.answer line).output = (s'.answer line).output ∧
      (s.answer line).closed = (s'.answer line).closed ∧
      SameButPasswords (s.answer line).deps (s'.answer line).deps := by
  rcases same.answer s'.session line with ⟨close, session', printed, deps⟩
  unfold Sequential.answer
  rw [closed, session, output]
  split
  · exact ⟨session, output, closed, same⟩
  · exact ⟨session', congrArg (s'.output ++ ·.flatten) printed, close, deps⟩

namespace MgmtServer

variable {server server' : MgmtServer}

/-- Two services whose clients were told the same. -/
def Alike (server server' : MgmtServer) : Prop :=
  server.sessions = server'.sessions ∧ SameButPasswords server.deps server'.deps

theorem Alike.step (alike : server.Alike server') (event : ServiceEvent) :
    (server.step event).Alike (server'.step event) := by
  rcases alike with ⟨sessions, same⟩
  cases event with
  | proxy metrics accessLog logOpens =>
      exact ⟨sessions, { same with metrics := rfl, accessLog := rfl, logOpens := rfl }⟩
  | line id line =>
      rcases Sequential.answer_alike (server.view id) (server'.view id)
        (by simp [view, sessions]) (by simp [view, sessions]) (by simp [view, sessions]) same line
        with ⟨session, output, closed, deps⟩
      exact ⟨by simp only [MgmtServer.step, sessions, session, output, closed], deps⟩

theorem Alike.run (alike : server.Alike server') (events : List ServiceEvent) :
    (server.run events).Alike (server'.run events) := by
  induction events generalizing server server' with
  | nil => exact alike
  | cons event events ih => exact ih (alike.step event)

/-- Passwords of the proxy's users never flow out through the management service. Services that are
equal but for the stored passwords say the same to each of their clients, whatever lines these send
in whatever order, and still have the same names in the same order afterwards. -/
theorem passwords_do_not_flow (server server' : MgmtServer)
    (sessions : server.sessions = server'.sessions)
    (same : SameButPasswords server.deps server'.deps) (events : List ServiceEvent) :
    (∀ id, ((server.run events).sessions id).output = ((server'.run events).sessions id).output) ∧
      (server.run events).deps.users.names = (server'.run events).deps.users.names := by
  have alike := Alike.run ⟨sessions, same⟩ events
  exact ⟨fun id => by rw [alike.1], alike.2.names⟩

/-- Two services whose only user has different passwords, and an administrator who lists them. -/
theorem passwords_do_not_flow_to_administrator :
    let shared := mgmtDepsInit
      { defaultArgs with admin := some ⟨⟨ascii "root", by decide⟩, ⟨ascii "old", by decide⟩⟩ }
      ⟨true, []⟩
    let one := seedUsers usersInit [⟨⟨ascii "ann", by decide⟩, ⟨ascii "one", by decide⟩⟩]
    let two := seedUsers usersInit [⟨⟨ascii "ann", by decide⟩, ⟨ascii "two", by decide⟩⟩]
    let events := [ServiceEvent.line 0 (.ready ⟨ascii "AUTH root old", by decide⟩),
      .line 0 (.ready ⟨ascii "LIST-USERS", by decide⟩)]
    one.accounts ≠ two.accounts ∧
      (((start { shared with users := one }).run events).sessions 0).output =
        (((start { shared with users := two }).run events).sessions 0).output := by
  intro shared one two events
  have names : one.names = two.names := by decide +kernel
  exact ⟨by decide +kernel, (passwords_do_not_flow (start { shared with users := one })
    (start { shared with users := two }) rfl ⟨names, rfl, rfl, rfl, rfl, rfl⟩ events).1 0⟩

end MgmtServer

end SocksProxy
