import SocksProxy.Accounting.Moves
import SocksProxy.Guarantees.Connections
import SocksProxy.Management.Service

/-!
# Credentials of the command line

From the arguments of the process to what its clients are asked for. `parse_args`
collects the pairs of `-u` and the pair of `-a`, `main()` hands them to the user
store and to the administrator's entry, and neither says when it cannot hold
them. `Storable` command lines have only pairs that they can hold; for those, and
for no others, the store has every pair, and nobody is served unasked before an
account is deleted. The user store changes only where an administrator asks for
it, and a method is chosen by the store of that moment.
-/

namespace SocksProxy

/-! ## What parse_args collects -/

/-- The pair an option gives, if it is the option `letter`. -/
def Getopt.pair (letter : UInt8) : Getopt → Option User
  | .option other optarg => if other = letter then user optarg else none
  | .flag _ | .invalid => none

/-- The pairs given with the option `letter`, in order. -/
def pairsGiven (letter : UInt8) (argv : List CString) : List User :=
  (getoptLong none argv).1.filterMap (Getopt.pair letter)

def OPT_USER : UInt8 := 0x75

def OPT_ADMIN : UInt8 := 0x61

section

variable {args args' : Socks5Args}

theorem users_addUserArg {optarg : CString} (added : addUserArg args optarg = some args') :
    args'.users = args.users ++ (user optarg).toList ∧ args'.admin = args.admin := by
  unfold addUserArg at added
  split at added
  · rcases Option.map_eq_some_iff.mp added with ⟨given, parted, rfl⟩
    simp [parted]
  · cases added

/-- One option adds its own pair and no other. -/
theorem parseOption_pairs {option : Getopt} (parsed : parseOption args option = some args') :
    args'.users = args.users ++ (option.pair OPT_USER).toList ∧
      args'.admin = (option.pair OPT_ADMIN).or args.admin := by
  cases option with
  | flag letter | invalid => cases parsed
  | option letter optarg =>
      have plain (other : letter ≠ OPT_USER ∧ letter ≠ OPT_ADMIN) (users : args'.users = args.users)
          (admin : args'.admin = args.admin) :
          args'.users = args.users ++ ((Getopt.option letter optarg).pair OPT_USER).toList ∧
            args'.admin = ((Getopt.option letter optarg).pair OPT_ADMIN).or args.admin := by
        simp [Getopt.pair, other, users, admin]
      simp only [parseOption] at parsed
      split at parsed
      · next same =>
          cases parsed
          exact plain (by subst same; decide) rfl rfl
      split at parsed
      · next same =>
          cases parsed
          exact plain (by subst same; decide) rfl rfl
      split at parsed
      · next same =>
          rcases Option.map_eq_some_iff.mp parsed with ⟨_, -, rfl⟩
          exact plain (by subst same; decide) rfl rfl
      split at parsed
      · next same =>
          rcases Option.map_eq_some_iff.mp parsed with ⟨_, -, rfl⟩
          exact plain (by subst same; decide) rfl rfl
      split at parsed
      · next same =>
          subst same
          exact users_addUserArg parsed
      split at parsed
      · next same =>
          subst same
          rcases Option.map_eq_some_iff.mp parsed with ⟨given, parted, rfl⟩
          simp [Getopt.pair, OPT_USER, OPT_ADMIN, parted]
      split at parsed
      · next same =>
          cases parsed
          exact plain (by subst same; decide) rfl rfl
      · cases parsed

theorem foldlM_parseOption {options : List Getopt}
    (parsed : options.foldlM parseOption args = some args') :
    args'.users = args.users ++ options.filterMap (Getopt.pair OPT_USER) ∧
      args'.admin = (options.filterMap (Getopt.pair OPT_ADMIN)).getLast?.or args.admin := by
  induction options generalizing args with
  | nil =>
      cases parsed
      simp
  | cons option options ih =>
      rcases Option.bind_eq_some_iff.mp parsed with ⟨next, first, later⟩
      rcases parseOption_pairs first with ⟨users, admin⟩
      rcases ih later with ⟨laterUsers, laterAdmin⟩
      constructor
      · rw [laterUsers, users, List.append_assoc]
        cases given : option.pair OPT_USER <;> simp [given]
      · rw [laterAdmin, admin]
        cases given : option.pair OPT_ADMIN with
        | none => simp [given]
        | some pair =>
            simp only [List.filterMap_cons, given, List.getLast?_cons]
            cases (options.filterMap (Getopt.pair OPT_ADMIN)).getLast? <;> rfl

/-- `parse_args` keeps the pairs of every `-u`, and the one of the last `-a`. -/
theorem parseArgs_pairs {argv : List CString} (parsed : parseArgs argv = some args) :
    args.users = pairsGiven OPT_USER argv ∧ args.admin = (pairsGiven OPT_ADMIN argv).getLast? := by
  simp only [parseArgs] at parsed
  split at parsed
  · cases parsed
  · next folded =>
      split at parsed
      · cases parsed
        simpa [defaultArgs, pairsGiven] using foldlM_parseOption folded
      · cases parsed

end

/-! ## What main() seeds -/

section

variable {s : Users} {given : List User}

/-- A pair the store can hold is in it once `users_add` was called, whatever that returned. -/
theorem mem_accounts_seed {name pass : CString} (valid : ValidAccount name.bytes pass.bytes)
    (room : s.count < USERS_MAX)
    (agree : ∀ account ∈ s.accounts, account.1 = name.bytes → account.2 = pass.bytes) :
    (name.bytes, pass.bytes) ∈ ((usersAdd s name pass).getD s).accounts := by
  cases added : usersAdd s name pass with
  | some s' => simp [Users.accounts_usersAdd added]
  | none =>
      have taken : name.bytes ∈ s.names := by
        by_contra fresh
        have accepted := Users.usersAdd_isSome.mpr
          ⟨⟨valid.1.1, valid.2.1, valid.1.2, valid.2.2⟩, room, fresh⟩
        rw [added] at accepted
        cases accepted
      rcases List.mem_map.mp taken with ⟨⟨name', pass'⟩, held, same⟩
      have kept := agree _ held same
      simp only at same kept
      rw [← same, ← kept]
      exact held

theorem count_add (s : Users) (name pass : CString) :
    s.count ≤ ((usersAdd s name pass).getD s).count ∧
      ((usersAdd s name pass).getD s).count ≤ s.count + 1 := by
  cases added : usersAdd s name pass with
  | none => simp
  | some s' =>
      have grown := congrArg List.length (Users.accounts_usersAdd added)
      rw [List.length_append, Users.length_accounts, Users.length_accounts] at grown
      rw [Option.getD_some, grown]
      simp

theorem accounts_subset_add (s : Users) (name pass : CString) :
    s.accounts ⊆ ((usersAdd s name pass).getD s).accounts := by
  cases added : usersAdd s name pass with
  | none => exact List.Subset.refl _
  | some s' => simp [Users.accounts_usersAdd added]

theorem accounts_subset_seedUsers (s : Users) (given : List User) :
    s.accounts ⊆ (seedUsers s given).accounts := by
  induction given generalizing s with
  | nil => exact List.Subset.refl _
  | cons next given ih => exact List.Subset.trans (accounts_subset_add s _ _) (ih _)

/-- Pairs that the store can hold and that do not contradict each other are all in it. -/
theorem mem_accounts_seedUsers (room : s.count + given.length ≤ USERS_MAX)
    (valid : ∀ pair ∈ given, ValidAccount pair.name.bytes pair.pass.bytes)
    (agree : ∀ pair ∈ given, ∀ other ∈ given, pair.name = other.name → pair.pass = other.pass)
    (held : ∀ pair ∈ given, ∀ account ∈ s.accounts,
      account.1 = pair.name.bytes → account.2 = pair.pass.bytes) :
    ∀ pair ∈ given, (pair.name.bytes, pair.pass.bytes) ∈ (seedUsers s given).accounts := by
  induction given generalizing s with
  | nil => simp
  | cons next given ih =>
      rw [List.length_cons] at room
      intro pair member
      rcases List.mem_cons.mp member with rfl | later
      · refine accounts_subset_seedUsers _ given ?_
        exact mem_accounts_seed (valid _ List.mem_cons_self) (by omega)
          (held _ List.mem_cons_self)
      · have count := (count_add s next.name next.pass).2
        refine ih (by omega) (fun pair later => valid pair (.tail _ later))
          (fun pair later other too => agree pair (.tail _ later) other (.tail _ too)) ?_ pair later
        intro pair later account stored named
        cases added : usersAdd s next.name next.pass with
        | none =>
            rw [added] at stored
            exact held pair (.tail _ later) account stored named
        | some s' =>
            rw [added, Option.getD_some, Users.accounts_usersAdd added, List.mem_append,
              List.mem_singleton] at stored
            rcases stored with earlier | rfl
            · exact held pair (.tail _ later) account earlier named
            · have same : next.name = pair.name := by
                cases hn : next.name
                cases hp : pair.name
                simp_all
              rw [agree next List.mem_cons_self pair (.tail _ later) same]

end

/-! ## The proxy asks for credentials -/

theorem authRequired_iff {users : Users} : authRequired users = true ↔ 0 < users.count :=
  decide_eq_true_iff

theorem negotiationMethod_ne_noauth (p : NegotiationParser) :
    negotiationMethod p true ≠ SOCKS5_METHOD_NOAUTH := by
  unfold negotiationMethod
  simp only [if_true]
  split <;> decide

/-- Nobody was admitted without credentials. -/
def Challenged (h : List Obs) : Prop := ∀ store, .chose SOCKS5_METHOD_NOAUTH store ∉ h

theorem Challenged.cons {h : List Obs} {what : Obs} (asked : Challenged h)
    (other : ∀ store, what ≠ .chose SOCKS5_METHOD_NOAUTH store) : Challenged (what :: h) := by
  intro store member
  rcases List.mem_cons.mp member with same | earlier
  · exact other store same.symm
  · exact asked store earlier

/-- While there are users, a turn admits nobody without credentials. -/
theorem Turn.challenged {own : Fd → Prop} {l l' : Local} (turn : Turn own l l')
    (required : authRequired l.sh.users = true) (asked : Challenged l.cell.conn.hist) :
    Challenged l'.cell.conn.hist := by
  cases turn with
  | act act =>
      cases act with
      | @conn id c c' sh hist =>
          simp only [Cell.conn] at asked ⊢
          rw [hist]
          exact asked
      | shared | resume | deactivate | free => exact asked
      | @observe id c sh what fits =>
          refine asked.cons ?_
          rintro store rfl
          simp [Obs.isPlain, Obs.isInput] at fits
      | @choose id c sh p =>
          refine asked.cons ?_
          rintro store same
          injection same with method
          rw [required] at method
          exact negotiationMethod_ne_noauth p method
      | @relay id c sh fromClient =>
          refine asked.cons ?_
          cases fromClient <;> simp
      | validate | log => exact asked.cons (by simp)
  | @move id c sh next =>
      simp only [Cell.conn] at asked ⊢
      split
      · exact asked
      · exact asked.cons (by simp)
  | openRelay => exact (asked.cons (by simp)).cons (by simp)

namespace World

/-- An account is deleted. -/
def Deletes (w : World) : Event → Prop
  | .admin (.delUser name) => (usersDel w.sh.users name).isSome = true
  | _ => False

/-- There are users, and nobody was admitted without credentials. -/
structure Guarded (w : World) : Prop where
  required : authRequired w.sh.users = true
  asked : ∀ k cell, w.heap k = some cell → Challenged cell.conn.hist

section

variable {w w' : World}

theorem Guarded.idle (guarded : w.Guarded) (idle : Idle w w') (users : w'.sh.users = w.sh.users) :
    w'.Guarded := by
  refine ⟨?_, ?_⟩
  · rw [users]
    exact guarded.required
  · rw [idle.heap]
    exact guarded.asked

theorem Guarded.serves (guarded : w.Guarded) (serves : Serves w w') : w'.Guarded := by
  cases serves with
  | idle idle users => exact guarded.idle idle users
  | @turn k cell l found turn =>
      have users : l.sh.users = w.sh.users := turn.spares.users
      refine ⟨?_, fun other cell' now => ?_⟩
      · simp only [put]
        rw [users]
        exact guarded.required
      · by_cases mine : other = k
        · subst mine
          simp only [put, Function.update_self, Option.some.injEq] at now
          subst now
          exact turn.challenged guarded.required (guarded.asked other cell found)
        · simp only [put, Function.update_of_ne mine] at now
          exact guarded.asked other cell' now

theorem Guarded.admits (guarded : w.Guarded) (admits : Admits w w') : w'.Guarded := by
  cases admits with
  | idle idle users => exact guarded.idle idle users
  | accept client size now _ _ users =>
      refine ⟨?_, fun other cell' known => ?_⟩
      · simp only
        rw [users]
        exact guarded.required
      · by_cases new : other = w.nextId
        · subst new
          simp only [Function.update_self, Option.some.injEq] at known
          subst known
          simp [Challenged, Cell.conn, newConn]
        · simp only [Function.update_of_ne new] at known
          exact guarded.asked other cell' known

/-- Of all commands only one that deletes an account makes the users fewer. -/
theorem Guarded.admin (guarded : w.Guarded) (command : AdminCommand)
    (allowed : ¬w.Deletes (.admin command)) :
    Guarded { w with sh := applyAdmin w.sh command } := by
  refine ⟨?_, guarded.asked⟩
  have required := guarded.required
  cases command with
  | setConnTimeout | setIoBufferSize | setMaxConnections => exact required
  | delUser name =>
      simp only [Deletes, Bool.not_eq_true, Option.isSome_eq_false_iff, Option.isNone_iff_eq_none]
        at allowed
      simpa [applyAdmin, allowed] using required
  | addUser name pass =>
      rw [authRequired_iff] at required ⊢
      exact Nat.lt_of_lt_of_le required (count_add w.sh.users name pass).1

theorem Guarded.moves {event : Event} (guarded : w.Guarded) (allowed : ¬w.Deletes event)
    (moves : Moves event w w') : w'.Guarded := by
  have served {v v' : World} (guarded : v.Guarded) (serves : Relation.ReflTransGen Serves v v') :
      v'.Guarded := by
    induction serves with
    | refl => exact guarded
    | tail _ serves ih => exact ih.serves serves
  cases moves with
  | serve serves => exact served guarded serves
  | accept admits =>
      induction admits with
      | refl => exact guarded
      | tail _ admits ih => exact ih.admits admits
  | admin command asked =>
      subst asked
      exact guarded.admin command allowed
  | @shutdown m _ mode before after =>
      have middle := served guarded before
      exact served (v := { m with mode }) ⟨middle.required, middle.asked⟩ after

/-- As long as no account is deleted, a process that started with users admits nobody without
credentials. -/
theorem guarded_of_run {users : Users} {log : AccessLog} {now : Int} {calendar : CalendarTime}
    {events : List Event} (required : authRequired users = true)
    (ran : (initial users log now calendar).run events = .ok w)
    (kept : ∀ before event after m, events = before ++ event :: after →
      (initial users log now calendar).run before = .ok m → ¬m.Deletes event) : w.Guarded := by
  refine run_keeps_while (fun event _ _ allowed guarded moves => guarded.moves allowed moves) ?_
    kept ran
  exact ⟨required, fun k cell found => nomatch found⟩

end

end World

/-! ## The administrator -/

theorem CharArray.text_print (array : CharArray) (source : CString) :
    (array.print source).text = source.bytes.take USERS_NAME_MAX :=
  CharArray.text_copy _ _ _

/-- A `PASSWD` succeeds. -/
def Sequential.ChangesPassword (s : Sequential) (line : Line) : Prop :=
  s.closed = false ∧ (∃ cmd pass, line.tokens = [cmd, pass] ∧ ieq cmd "PASSWD" = true) ∧
    ascii "+OK" <+: (line.answer s.session s.deps).printed.flatten

/-- Nothing but a successful `PASSWD` changes the administrator's entry. -/
theorem Sequential.admin_answer {s : Sequential} {line : Line} (isRoster : s.deps.users.IsRoster)
    (kept : ¬s.ChangesPassword line) : (s.answer line).deps.admin = s.deps.admin := by
  unfold Sequential.answer
  split
  · rfl
  · next going =>
      rcases Line.settled s.session isRoster line with
        ⟨-, -, same, -⟩ | ⟨effect, text, later, printed, begins⟩
      · exact congrArg MgmtDeps.admin same
      · have success : ascii "+OK" <+: (line.answer s.session s.deps).printed.flatten := by
          have short : ascii "+OK" <+: ascii "+OK " := ⟨ascii " ", by decide⟩
          rw [printed, List.flatten_cons]
          exact (short.trans begins).trans (List.prefix_append _ _)
        have other : ¬∃ cmd pass, line.tokens = [cmd, pass] ∧ ieq cmd "PASSWD" = true :=
          fun asked => kept ⟨by simpa using going, asked, success⟩
        generalize line.tokens = tokens at effect other
        generalize line.answer _ _ = r at effect
        cases effect with
        | quit | tell | auth | addUser | delUser | set => rfl
        | passwd trusted word name secret => exact absurd ⟨_, _, rfl, word⟩ other

namespace MgmtServer

/-- A `PASSWD` of some session succeeds. -/
def ChangesPassword (server : MgmtServer) : ServiceEvent → Prop
  | .line id line => (server.view id).ChangesPassword line
  | .proxy _ _ _ => False

theorem admin_step {server : MgmtServer} (sound : server.Sound) {event : ServiceEvent}
    (kept : ¬server.ChangesPassword event) :
    (server.step event).deps.admin = server.deps.admin := by
  cases event with
  | proxy metrics accessLog logOpens => rfl
  | line id line =>
      exact Sequential.admin_answer (s := server.view id) sound.isRoster kept

/-- As long as no `PASSWD` succeeds, the administrator's entry is the one that was configured. -/
theorem admin_run {server : MgmtServer} {events : List ServiceEvent} (sound : server.Sound)
    (kept : ∀ before event after, events = before ++ event :: after →
      ¬(server.run before).ChangesPassword event) :
    (server.run events).deps.admin = server.deps.admin := by
  induction events generalizing server with
  | nil => rfl
  | cons event events ih =>
      have later : ((server.step event).run events).deps.admin = (server.step event).deps.admin :=
        ih (sound.step event) fun before next after split =>
          kept (event :: before) next after (by rw [split, List.cons_append])
      exact later.trans (admin_step sound (kept [] event events rfl))

end MgmtServer

theorem CString.bytes_inj {s t : CString} : s.bytes = t.bytes ↔ s = t := by
  cases s
  cases t
  simp

theorem adminCheck_adminInit {a : AdminCreds} {given : User} (named : given.name.bytes ≠ [])
    (name : given.name.bytes.length ≤ USERS_NAME_MAX)
    (pass : given.pass.bytes.length ≤ USERS_PASS_MAX) (name' pass' : CString) :
    adminCheck (adminInit a (some given.name) (some given.pass)) name' pass' = true ↔
      name' = given.name ∧ pass' = given.pass := by
  rw [adminCheck_iff]
  simp only [adminInit, Option.getD_some, CharArray.text_print]
  rw [List.take_of_length_le name,
    List.take_of_length_le (show given.pass.bytes.length ≤ USERS_NAME_MAX from pass),
    CString.bytes_inj, CString.bytes_inj]
  exact and_iff_right named

/-- An entry that accepts the pair it was filled with can hold it. -/
theorem fits_of_adminCheck {a : AdminCreds} {given : User}
    (accepted : adminCheck (adminInit a (some given.name) (some given.pass)) given.name
      given.pass = true) :
    given.name.bytes ≠ [] ∧ given.name.bytes.length ≤ USERS_NAME_MAX ∧
      given.pass.bytes.length ≤ USERS_PASS_MAX := by
  rw [adminCheck_iff] at accepted
  simp only [adminInit, Option.getD_some, CharArray.text_print] at accepted
  rcases accepted with ⟨named, name, pass⟩
  exact ⟨name ▸ named, List.take_eq_self_iff _ |>.mp name.symm,
    List.take_eq_self_iff _ |>.mp pass.symm⟩

/-! ## From the command line on -/

/-- The store and the administrator's entry can hold the pairs of a command line: names and
passwords have a length they accept, and no two pairs contradict each other. -/
structure Storable (argv : List CString) : Prop where
  users : ∀ pair ∈ pairsGiven OPT_USER argv, ValidAccount pair.name.bytes pair.pass.bytes
  agree : ∀ pair ∈ pairsGiven OPT_USER argv, ∀ other ∈ pairsGiven OPT_USER argv,
    pair.name = other.name → pair.pass = other.pass
  admin : ∀ pair ∈ pairsGiven OPT_ADMIN argv, pair.name.bytes ≠ [] ∧
    pair.name.bytes.length ≤ USERS_NAME_MAX ∧ pair.pass.bytes.length ≤ USERS_PASS_MAX
  single : ∀ pair ∈ pairsGiven OPT_ADMIN argv, ∀ other ∈ pairsGiven OPT_ADMIN argv, pair = other

/-- Whether the method without credentials was chosen. -/
def opensFreely : Obs → Bool
  | .chose method _ => method = SOCKS5_METHOD_NOAUTH
  | _ => false

theorem chose_of_opensFreely {what : Obs} (passed : opensFreely what = true) :
    ∃ store, what = .chose SOCKS5_METHOD_NOAUTH store := by
  cases what with
  | chose method store =>
      obtain rfl : method = SOCKS5_METHOD_NOAUTH := of_decide_eq_true passed
      exact ⟨store, rfl⟩
  | _ => cases passed

/-- An empty password is accepted by `parse_args` and refused by the store, without a word: the only
user that was configured does not exist, and a client is served without credentials. -/
theorem user_dropped_with_empty_password :
    let argv : List CString := [⟨ascii "-u", by decide⟩, ⟨ascii "bob:", by decide⟩]
    ∃ args, parseArgs argv = some args ∧
      pairsGiven OPT_USER argv = [⟨⟨ascii "bob", by decide⟩, CString.empty⟩] ∧
      usersValidate (seedUsers usersInit args.users) (ascii "bob") [] = false ∧
      authRequired (seedUsers usersInit args.users) = false ∧
      ∃ (w : World) (cell : Cell) (store : Users),
        (World.initial (seedUsers usersInit args.users) ⟨true, []⟩ 0 ⟨2026, 7, 9, 14, 22, 1⟩).run
          (World.arrival ++ World.request) = .ok w ∧
        w.heap 0 = some cell ∧ .chose SOCKS5_METHOD_NOAUTH store ∈ cell.conn.hist := by
  intro argv
  have chosen : World.endsWith (World.arrival ++ World.request)
      (World.histTest 0 fun h => h.any opensFreely) = true := by
    decide +kernel
  refine ⟨{ defaultArgs with
    users := [⟨⟨ascii "bob", by decide⟩, CString.empty⟩]
    users_le := by decide }, rfl, rfl, rfl, rfl, ?_⟩
  rcases World.run_of_endsWith chosen with ⟨w, ran, passed⟩
  rcases World.exists_of_histTest passed with ⟨cell, found, some⟩
  rcases List.any_eq_true.mp some with ⟨what, happened, free⟩
  rcases chose_of_opensFreely free with ⟨store, rfl⟩
  exact ⟨w, cell, store, ran, found, happened⟩

/-- No pair of the command line is dropped or altered: every pair of `-u` validates once the store
is seeded; with one of them the proxy asks for credentials, and no connection chooses the method
without any before an account is deleted; and the administrator is who `-a` says, and nobody else,
before a `PASSWD` succeeds. -/
structure CredentialsHold (argv : List CString) (args : Socks5Args) : Prop where
  validates : ∀ pair ∈ pairsGiven OPT_USER argv,
    usersValidate (seedUsers usersInit args.users) pair.name.bytes pair.pass.bytes = true
  required : pairsGiven OPT_USER argv ≠ [] →
    authRequired (seedUsers usersInit args.users) = true ∧
    ∀ log now calendar events w,
      (World.initial (seedUsers usersInit args.users) log now calendar).run events = .ok w →
      (∀ before event after m, events = before ++ event :: after →
        (World.initial (seedUsers usersInit args.users) log now calendar).run before = .ok m →
          ¬m.Deletes event) →
      authRequired w.sh.users = true ∧
        ∀ k cell, w.heap k = some cell →
          ∀ store, .chose SOCKS5_METHOD_NOAUTH store ∉ cell.conn.hist
  administers : ∀ pair ∈ pairsGiven OPT_ADMIN argv, ∀ log events,
    (∀ before event after, events = before ++ event :: after →
      ¬((MgmtServer.start (mgmtDepsInit args log)).run before).ChangesPassword event) →
    ∀ name pass,
      adminCheck ((MgmtServer.start (mgmtDepsInit args log)).run events).deps.admin name pass =
        true ↔ name = pair.name ∧ pass = pair.pass

section

variable {argv : List CString} {args : Socks5Args}

theorem validates_seedUsers_iff (given : List User) (pair : User) :
    usersValidate (seedUsers usersInit given) pair.name.bytes pair.pass.bytes = true ↔
      (pair.name.bytes, pair.pass.bytes) ∈ (seedUsers usersInit given).accounts := by
  rcases isRoster_seedUsers isRoster_usersInit given with ⟨roster, refines⟩
  rw [refines.validate_iff, OrderedMap.lookup_eq_some_iff, ← refines]

/-- What the store holds it was able to hold, and a name has one password in it. -/
theorem valid_of_mem_seedUsers {given : List User} {pair : User}
    (held : (pair.name.bytes, pair.pass.bytes) ∈ (seedUsers usersInit given).accounts) :
    ValidAccount pair.name.bytes pair.pass.bytes ∧
      ∀ other : User, (other.name.bytes, other.pass.bytes) ∈
        (seedUsers usersInit given).accounts → pair.name = other.name → pair.pass = other.pass := by
  rcases isRoster_seedUsers isRoster_usersInit given with ⟨roster, refines⟩
  rw [refines] at held ⊢
  refine ⟨roster.valid _ held, fun other too same => CString.bytes_inj.mp ?_⟩
  rw [← OrderedMap.lookup_eq_some_iff] at held too
  rw [same, too] at held
  exact (Option.some.inj held).symm

theorem admin_eq_some (parsed : parseArgs argv = some args)
    (someone : pairsGiven OPT_ADMIN argv ≠ []) :
    ∃ last ∈ pairsGiven OPT_ADMIN argv, args.admin = some last := by
  rcases Option.isSome_iff_exists.mp (List.getLast?_isSome.mpr someone) with ⟨last, latest⟩
  exact ⟨last, List.mem_of_getLast? latest, (parseArgs_pairs parsed).2.trans latest⟩

theorem Storable.credentialsHold (storable : Storable argv) (parsed : parseArgs argv = some args) :
    CredentialsHold argv args := by
  have users := (parseArgs_pairs parsed).1
  have room : usersInit.count + args.users.length ≤ USERS_MAX :=
    (Nat.zero_add _).le.trans (args.users_le.trans (by decide))
  have seeded : ∀ pair ∈ pairsGiven OPT_USER argv,
      (pair.name.bytes, pair.pass.bytes) ∈ (seedUsers usersInit args.users).accounts := by
    rw [← users]
    exact mem_accounts_seedUsers room (users ▸ storable.users) (users ▸ storable.agree) (by simp)
  refine ⟨fun pair given => ?_, fun someone => ?_, fun pair given log events kept name pass => ?_⟩
  · exact (validates_seedUsers_iff args.users pair).mpr (seeded pair given)
  · have required : authRequired (seedUsers usersInit args.users) = true := by
      rcases List.exists_mem_of_ne_nil _ someone with ⟨pair, given⟩
      rw [authRequired_iff, ← Users.length_accounts]
      exact List.length_pos_of_mem (seeded pair given)
    refine ⟨required, fun log now calendar events w ran kept => ?_⟩
    have guarded := World.guarded_of_run required ran kept
    exact ⟨guarded.required, guarded.asked⟩
  · have sound : (MgmtServer.start (mgmtDepsInit args log)).Sound :=
      MgmtServer.sound_start (isRoster_seedUsers isRoster_usersInit args.users)
    rcases admin_eq_some parsed (List.ne_nil_of_mem given) with ⟨last, among, latest⟩
    obtain rfl : last = pair := storable.single last among pair given
    rcases storable.admin last given with ⟨named, fitsName, fitsPass⟩
    rw [MgmtServer.admin_run sound kept]
    simp only [MgmtServer.start, mgmtDepsInit, latest, Option.map_some]
    exact adminCheck_adminInit named fitsName fitsPass name pass

/-- Credentials that hold were storable: already the store and the entry that `main()` fills show
it. -/
theorem CredentialsHold.storable (hold : CredentialsHold argv args)
    (parsed : parseArgs argv = some args) : Storable argv := by
  have seeded : ∀ pair ∈ pairsGiven OPT_USER argv,
      (pair.name.bytes, pair.pass.bytes) ∈ (seedUsers usersInit args.users).accounts :=
    fun pair given => (validates_seedUsers_iff args.users pair).mp (hold.validates pair given)
  have entry : ∀ pair ∈ pairsGiven OPT_ADMIN argv, ∃ last, args.admin = some last ∧ pair = last ∧
      last.name.bytes ≠ [] ∧ last.name.bytes.length ≤ USERS_NAME_MAX ∧
        last.pass.bytes.length ≤ USERS_PASS_MAX := by
    intro pair given
    rcases admin_eq_some parsed (List.ne_nil_of_mem given) with ⟨last, among, latest⟩
    have checked := fun pair given =>
      hold.administers pair given ⟨false, []⟩ [] (by simp)
    simp only [MgmtServer.start, MgmtServer.run, List.foldl_nil, mgmtDepsInit, latest,
      Option.map_some] at checked
    refine ⟨last, latest, ?_, fits_of_adminCheck ((checked last among _ _).mpr ⟨rfl, rfl⟩)⟩
    -- The entry accepts the pair, and of all pairs only the last one.
    rcases (checked last among _ _).mp ((checked pair given _ _).mpr ⟨rfl, rfl⟩) with ⟨name, pass⟩
    cases pair
    cases last
    simp_all
  refine ⟨fun pair given => ?_, fun pair given other too => ?_, fun pair given => ?_,
    fun pair given other too => ?_⟩
  · exact (valid_of_mem_seedUsers (seeded pair given)).1
  · exact (valid_of_mem_seedUsers (seeded pair given)).2 other (seeded other too)
  · rcases entry pair given with ⟨last, -, rfl, fits⟩
    exact fits
  · rcases entry pair given with ⟨last, latest, rfl, -⟩
    rcases entry other too with ⟨last', latest', rfl, -⟩
    exact Option.some.inj (latest.symm.trans latest')

/-- The credentials of a command line hold exactly if there is a place for all of them. -/
theorem commandLine_credentials_hold (parsed : parseArgs argv = some args) :
    CredentialsHold argv args ↔ Storable argv :=
  ⟨fun hold => hold.storable parsed, fun storable => storable.credentialsHold parsed⟩

end

/-- A user and an administrator. -/
theorem commandLine_credentials_hold_for_user_and_administrator :
    let argv : List CString := [⟨ascii "-u", by decide⟩, ⟨ascii "bob:secret", by decide⟩,
      ⟨ascii "-a", by decide⟩, ⟨ascii "root:old", by decide⟩]
    ∃ args, parseArgs argv = some args ∧ Storable argv ∧
      usersValidate (seedUsers usersInit args.users) (ascii "bob") (ascii "secret") = true ∧
      authRequired (seedUsers usersInit args.users) = true ∧
      ∀ name pass, adminCheck (mgmtDepsInit args ⟨true, []⟩).admin name pass = true ↔
        name = ⟨ascii "root", by decide⟩ ∧ pass = ⟨ascii "old", by decide⟩ := by
  intro argv
  let bob : User := ⟨⟨ascii "bob", by decide⟩, ⟨ascii "secret", by decide⟩⟩
  let root : User := ⟨⟨ascii "root", by decide⟩, ⟨ascii "old", by decide⟩⟩
  let args : Socks5Args :=
    { defaultArgs with
      users := [bob]
      admin := some root
      users_le := by decide }
  have users : pairsGiven OPT_USER argv = [bob] := rfl
  have admin : pairsGiven OPT_ADMIN argv = [root] := rfl
  have storable : Storable argv := by
    refine ⟨?_, ?_, ?_, ?_⟩
    · rw [users]
      decide
    · rw [users]
      decide
    · rw [admin]
      decide
    · rw [admin]
      decide
  have parsed : parseArgs argv = some args := rfl
  rcases (commandLine_credentials_hold parsed).mpr storable with ⟨valid, required, checked⟩
  refine ⟨args, parsed, storable, ?_, ?_, ?_⟩
  · exact valid bob (by simp [users])
  · exact (required (by simp [users])).1
  · exact checked root (by simp [admin]) ⟨true, []⟩ [] (by simp)

end SocksProxy
