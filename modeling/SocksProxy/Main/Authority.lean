import SocksProxy.Main.Startup

/-!
# Where the authority of a client comes from

From a served client back to the command line. The decision to serve a client
was made by the user store of that moment; an account in the store was given
with `-u`, or an administrator has added it in a session; and a session is an
administrator's only after a line with the credentials of that moment.
-/

namespace SocksProxy

open History

section

variable {deps : MgmtDeps} {events : List ServiceEvent} {event : ServiceEvent} {id : Nat}

/-- The session was admitted: one of its lines had the administrator's name and password. -/
def LoggedIn (deps : MgmtDeps) (events : List ServiceEvent) (id : Nat) : Prop :=
  ∃ before line after, events = before ++ .line id line :: after ∧
    ∃ cmd name pass, line.tokens = [cmd, name, pass] ∧ ieq cmd "AUTH" = true ∧
      adminCheck (service deps before).deps.admin name pass = true

/-- The account was added by a line of a session that had been admitted. -/
def Added (deps : MgmtDeps) (events : List ServiceEvent) (account : List UInt8 × List UInt8) :
    Prop :=
  ∃ before id line after, events = before ++ .line id line :: after ∧ LoggedIn deps before id ∧
    ∃ cmd name pass, line.tokens = [cmd, name, pass] ∧ ieq cmd "ADD-USER" = true ∧
      account = (name.bytes, pass.bytes)

theorem LoggedIn.later (admitted : LoggedIn deps events id) (more : List ServiceEvent) :
    LoggedIn deps (events ++ more) id := by
  rcases admitted with ⟨before, line, after, rfl, authenticates⟩
  exact ⟨before, line, after ++ more, by simp, authenticates⟩

theorem Added.later {account : List UInt8 × List UInt8} (added : Added deps events account)
    (more : List ServiceEvent) : Added deps (events ++ more) account := by
  rcases added with ⟨before, id, line, after, rfl, adds⟩
  exact ⟨before, id, line, after ++ more, by simp, adds⟩

theorem service_concat : service deps (events ++ [event]) = (service deps events).step event := by
  rw [service, MgmtServer.run_append]
  rfl

/-- What a line does to its session and to the store, as far as authority goes. -/
theorem Sequential.authority {s : Sequential} (isRoster : s.deps.users.IsRoster) (line : Line) :
    ((s.answer line).session.authenticated = true → s.session.authenticated = true ∨
      ∃ cmd name pass, line.tokens = [cmd, name, pass] ∧ ieq cmd "AUTH" = true ∧
        adminCheck s.deps.admin name pass = true) ∧
    ∀ account ∈ (s.answer line).deps.users.accounts, account ∈ s.deps.users.accounts ∨
      (s.session.authenticated = true ∧ ∃ cmd name pass, line.tokens = [cmd, name, pass] ∧
        ieq cmd "ADD-USER" = true ∧ account = (name.bytes, pass.bytes)) := by
  unfold Sequential.answer
  split
  · exact ⟨.inl, fun _ => .inl⟩
  rcases Line.settled s.session isRoster line with ⟨-, sameSession, sameDeps, -⟩ | ⟨effect, -⟩
  · simp only [sameSession, sameDeps]
    exact ⟨.inl, fun _ => .inl⟩
  generalize answered : line.answer s.session s.deps = r at effect
  generalize told : line.tokens = tokens at effect
  cases effect with
  | quit | tell | set | passwd => exact ⟨.inl, fun _ => .inl⟩
  | auth word valid => exact ⟨fun _ => .inr ⟨_, _, _, rfl, word, valid⟩, fun _ => .inl⟩
  | addUser trusted word valid room fresh accounts =>
      refine ⟨.inl, fun account member => ?_⟩
      rw [accounts, List.mem_append, List.mem_singleton] at member
      exact member.imp_right fun same => ⟨trusted, _, _, _, rfl, word, same⟩
  | delUser trusted word present accounts =>
      refine ⟨.inl, fun account member => .inl ?_⟩
      rw [accounts] at member
      exact List.mem_of_mem_filter member

theorem sound_service (isRoster : deps.users.IsRoster) : (service deps events).Sound :=
  (MgmtServer.sound_start isRoster).run events

theorem admitted_of_authenticated (isRoster : deps.users.IsRoster)
    (authenticated : ((service deps events).sessions id).session.authenticated = true) :
    LoggedIn deps events id := by
  induction events using List.reverseRecOn with
  | nil => cases authenticated
  | append_singleton events event ih =>
      rw [service_concat] at authenticated
      cases event with
      | proxy metrics accessLog logOpens => exact (ih authenticated).later _
      | line other line =>
          by_cases own : id = other
          · subst own
            have sound : (service deps events).Sound := sound_service isRoster
            rcases (Sequential.authority (s := (service deps events).view id) sound.isRoster
              line).1 (by simpa [MgmtServer.step] using authenticated) with before | authenticates
            · exact (ih before).later _
            · exact ⟨events, line, [], rfl, authenticates⟩
          · exact (ih (by simpa [MgmtServer.step, own] using authenticated)).later _

/-- An account was there from the start, or an administrator has added it. -/
theorem account_origin (isRoster : deps.users.IsRoster) {account : List UInt8 × List UInt8}
    (member : account ∈ (service deps events).deps.users.accounts) :
    account ∈ deps.users.accounts ∨ Added deps events account := by
  induction events using List.reverseRecOn with
  | nil => exact .inl member
  | append_singleton events event ih =>
      rw [service_concat] at member
      cases event with
      | proxy metrics accessLog logOpens => exact (ih member).imp_right (·.later _)
      | line id line =>
          have sound : (service deps events).Sound := sound_service isRoster
          rcases (Sequential.authority (s := (service deps events).view id) sound.isRoster
            line).2 account member with before | ⟨authenticated, adds⟩
          · exact (ih before).imp_right (·.later _)
          · exact .inr ⟨events, id, line, [], rfl,
              admitted_of_authenticated isRoster authenticated, adds⟩

end

theorem mem_given_of_seeded {s : Users} {given : List User} {account : List UInt8 × List UInt8}
    (member : account ∈ (seedUsers s given).accounts) :
    account ∈ s.accounts ∨ ∃ pair ∈ given, account = (pair.name.bytes, pair.pass.bytes) := by
  induction given generalizing s with
  | nil => exact .inl member
  | cons next given ih =>
      rcases ih member with before | ⟨pair, listed, same⟩
      · cases added : usersAdd s next.name next.pass with
        | none =>
            rw [added] at before
            exact .inl before
        | some s' =>
            rw [added, Option.getD_some, Users.accounts_usersAdd added, List.mem_append,
              List.mem_singleton] at before
            exact before.imp_right fun same => ⟨next, by simp, same⟩
      · exact .inr ⟨pair, by simp [listed], same⟩

/-- Why a client may be served, traced back to the command line. `events` is what has happened to
the management service. The first decisions about the client were made by the store that the service
had after `earlier`. -/
inductive Entitled (args : Socks5Args) (deps : MgmtDeps) (events : List ServiceEvent)
    (h : List Obs) : Prop where
  | unprotected (earlier : List ServiceEvent) (moment : earlier <+: events)
      (decided : [.chose SOCKS5_METHOD_NOAUTH (service deps earlier).deps.users] <:+ decisions h)
      (greeting rest methods : List UInt8) (stream : received h = greeting ++ rest)
      (greeted : IsGreeting greeting methods) (offered : SOCKS5_METHOD_NOAUTH ∈ methods)
      (nobody : (service deps earlier).deps.users.accounts = [])
  | account (earlier : List ServiceEvent) (moment : earlier <+: events) (before : Users)
      (decided : [.validated SOCKS5_AUTH_OK (service deps earlier).deps.users,
        .chose SOCKS5_METHOD_USERPASS before] <:+ decisions h)
      (greeting message rest methods user password : List UInt8)
      (stream : received h = greeting ++ message ++ rest) (greeted : IsGreeting greeting methods)
      (offered : SOCKS5_METHOD_USERPASS ∈ methods)
      (credentials : IsCredentials message user password)
      (valid : (user, password) ∈ (service deps earlier).deps.users.accounts)
      (origin : (∃ pair ∈ args.users, (user, password) = (pair.name.bytes, pair.pass.bytes)) ∨
        Added deps earlier (user, password))

namespace Process

theorem Stands.entitled {args : Socks5Args} {log : AccessLog} {events : List ServiceEvent}
    {p : Process} (stands : p.Stands (mgmtDepsInit args log) events) {k : ConnId} {cell : Cell}
    {what : Obs} (found : p.world.heap k = some cell) (happened : what ∈ cell.conn.hist)
    (admission : what.isAdmission = true) :
    Entitled args (mgmtDepsInit args log) events cell.conn.hist := by
  rcases (stands.sessions k cell found).warranted happened admission with ⟨ds, first, warranted⟩
  have decided : ∀ what ∈ ds, what ∈ cell.conn.hist := fun what member =>
    List.mem_of_mem_filter (first.subset member)
  have isRoster : (mgmtDepsInit args log).users.IsRoster :=
    isRoster_seedUsers isRoster_usersInit args.users
  cases warranted with
  | noauth store greeting rest methods stream greeted offered empty =>
      have chosen : Obs.chose SOCKS5_METHOD_NOAUTH store ∈ cell.conn.hist := decided _ (by simp)
      rcases stands.informed k cell found _ chosen store rfl with ⟨earlier, moment, rfl⟩
      exact .unprotected earlier moment first greeting rest methods stream greeted offered empty
  | userpass before store greeting message rest methods user password stream greeted offered
      credentials account =>
      have validated : Obs.validated SOCKS5_AUTH_OK store ∈ cell.conn.hist :=
        decided _ (by simp)
      rcases stands.informed k cell found _ validated store rfl with ⟨earlier, moment, rfl⟩
      refine .account earlier moment before first greeting message rest methods user password
        stream greeted offered credentials account ?_
      refine (account_origin isRoster account).imp_left fun seeded => ?_
      rcases mem_given_of_seeded seeded with nobody | given
      · cases nobody
      · exact given

/-- Every client that any run of `main()` serves is entitled to it, by the command line or through
an administrator. The lines of the management service are those that its clients have sent, and the
store of the process is at any time what they have made of it. -/
theorem clients_are_entitled (args : Socks5Args) (log : AccessLog) (now : Int)
    (calendar : CalendarTime) (answers : StartAnswers) (happens : List ProcessEvent) :
    ∃ p events, main args log now calendar answers happens = .ok p ∧
      (∀ id, linesOf id events <+: (Framing.cut LF (p.heard id)).1.map Line.classify) ∧
      p.world.sh.users = (service (mgmtDepsInit args log) events).deps.users ∧
      ∀ k cell what, p.world.heap k = some cell → what ∈ cell.conn.hist →
        what.isAdmission = true → Entitled args (mgmtDepsInit args log) events cell.conn.hist := by
  rcases main_stands args log now calendar answers happens with ⟨p, events, ran, stands⟩
  refine ⟨p, events, ran, stands.heard, stands.users,
    fun k cell what found happened admission => ?_⟩
  exact stands.entitled found happened admission

end Process

end SocksProxy
