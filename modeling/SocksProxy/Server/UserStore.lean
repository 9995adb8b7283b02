import SocksProxy.Library.OrderedMap
import SocksProxy.Server.Auth
import SocksProxy.Server.Users

/-!
# The user store as an ordered map

What the table of `users.c` is for: it maps names to passwords and remembers in
which order the names were added. `Roster` is that map; each operation of the
table does to `Users.accounts` what the operation of the map does to its
entries, whatever bytes earlier entries have left behind. Credentials arrive as
bytes with a length, which may contain NUL; they are compared with terminated
strings, and agree with the map all the same.
-/

namespace SocksProxy

namespace Users

variable {s s' : Users} {name pass : CString}

/-- The names, in the order of the entries. -/
def names (s : Users) : List (List UInt8) := s.accounts.map Prod.fst

@[simp]
theorem accounts_usersInit : usersInit.accounts = [] := rfl

@[simp]
theorem length_names (s : Users) : s.names.length = s.count := by
  simp [names, length_accounts]

theorem getElem?_names (s : Users) (i : Nat) : s.names[i]? = usersNameAt s i := by
  by_cases within : i < s.count
  · simp [names, accounts, usersNameAt, within]
  · simp [names, accounts, usersNameAt, within]

theorem usersFind_eq_some_iff {i : Nat} :
    usersFind s name = some i ↔
      i < s.count ∧ (s.entries i).name.text = name.bytes ∧
        ∀ j < i, (s.entries j).name.text ≠ name.bytes := by
  rw [usersFind, List.find?_range_eq_some]
  simp [and_left_comm]

theorem usersExists_iff : usersExists s name = true ↔ name.bytes ∈ s.names := by
  simp [usersExists, usersFind, names, accounts]

theorem usersAdd_isSome :
    (usersAdd s name pass).isSome = true ↔
      (name.bytes ≠ [] ∧ pass.bytes ≠ [] ∧ name.bytes.length ≤ USERS_NAME_MAX ∧
        pass.bytes.length ≤ USERS_PASS_MAX) ∧ s.count < USERS_MAX ∧ name.bytes ∉ s.names := by
  rw [← usersExists_iff]
  simp only [usersAdd, ← List.length_pos_iff, Nat.pos_iff_ne_zero]
  split_ifs <;> simp only [Option.isSome_none, Option.isSome_some, Bool.false_eq_true] <;> tauto

theorem accounts_usersAdd (added : usersAdd s name pass = some s') :
    s'.accounts = s.accounts ++ [(name.bytes, pass.bytes)] := by
  unfold usersAdd at added
  split at added
  · split at added
    · split at added
      · cases added
      · cases added
        simp only [accounts, List.range_succ, List.map_append, List.map_cons, List.map_nil,
          Function.update_self, CharArray.text_copy]
        congr 1
        · apply List.map_congr_left
          intro i member
          rw [Function.update_of_ne (Nat.ne_of_lt (List.mem_range.mp member))]
        · exact congrArg (fun text => [(name.bytes, text)]) (CharArray.text_copy _ _ _)
    · cases added
  · cases added

theorem shiftEntries_apply (entries : Nat → UserEntry) (i n j : Nat) :
    shiftEntries entries i n j = if i ≤ j ∧ j < i + n then entries (j + 1) else entries j := by
  induction n generalizing entries i with
  | zero =>
      rw [shiftEntries, if_neg (by omega)]
  | succ n ih =>
      rw [shiftEntries, ih]
      rcases Nat.lt_trichotomy j i with before | rfl | after
      · rw [if_neg (by omega), if_neg (by omega), Function.update_of_ne (by omega)]
      · rw [if_neg (by omega), if_pos (by omega), Function.update_self]
      · rw [Function.update_of_ne (by omega), Function.update_of_ne (by omega)]
        exact if_congr (by omega) rfl rfl

/-- The entry that is deleted is taken out, whatever the table holds. -/
theorem accounts_usersDel (deleted : usersDel s name = some s') :
    ∃ i, usersFind s name = some i ∧ s'.accounts = s.accounts.eraseIdx i := by
  unfold usersDel at deleted
  split at deleted
  · cases deleted
  · rename_i index found
    cases deleted
    refine ⟨index, found, ?_⟩
    have within := (usersFind_eq_some_iff.mp found).1
    apply List.ext_getElem
    · simp [accounts, List.length_eraseIdx, within]
    · intro i inside _
      simp only [length_accounts] at inside
      simp only [accounts, List.getElem_map, List.getElem_range, List.getElem_eraseIdx,
        shiftEntries_apply]
      by_cases before : i < index
      · rw [if_neg (by omega), dif_pos before]
      · rw [if_pos (by omega), dif_neg before]

/-- A store judges credentials by its accounts alone. -/
theorem usersValidate_iff {user password : List UInt8} :
    usersValidate s user password = true ↔
      user ≠ [] ∧ password ≠ [] ∧
        (s.accounts.find? fun account => account.1 = user).map Prod.snd = some password := by
  have compares : (fun i => sameBytes (s.entries i).name user) =
      fun i => decide ((s.entries i).name.text = user) := by
    funext i
    rw [Bool.eq_iff_iff, sameBytes_iff, decide_eq_true_iff]
  have scanned : (s.accounts.find? fun account => account.1 = user).map Prod.snd =
      ((List.range s.count).find? fun i => sameBytes (s.entries i).name user).map
        fun i => (s.entries i).pass.text := by
    rw [accounts, List.find?_map, Option.map_map, compares]
    rfl
  rw [scanned, usersValidate]
  by_cases empty : user.length = 0 ∨ password.length = 0
  · rw [if_pos empty]
    simp only [List.length_eq_zero_iff] at empty
    simp only [Bool.false_eq_true, false_iff, not_and]
    intro someone something
    exact absurd empty (not_or.mpr ⟨someone, something⟩)
  · rw [if_neg empty]
    simp only [List.length_eq_zero_iff, not_or] at empty
    cases (List.range s.count).find? fun i => sameBytes (s.entries i).name user with
    | none => simp
    | some i => simp [empty, sameBytes_iff]

end Users

/-- What `users_add` accepts as a name and a password. -/
def ValidAccount (name pass : List UInt8) : Prop :=
  (name ≠ [] ∧ name.length ≤ USERS_NAME_MAX) ∧ pass ≠ [] ∧ pass.length ≤ USERS_PASS_MAX

instance (name pass : List UInt8) : Decidable (ValidAccount name pass) :=
  inferInstanceAs (Decidable (_ ∧ _))

/-- What the user store is for: the accounts, in the order in which they were added. -/
abbrev Roster := OrderedMap (List UInt8) (List UInt8) ValidAccount USERS_MAX

/-- A call that may change the store. -/
inductive UserCall where
  | add (name pass : CString)
  | del (name : CString)

namespace UserCall

/-- What the call does to the table, where it returns `true`. -/
def onUsers : UserCall → Users → Option Users
  | .add name pass, s => usersAdd s name pass
  | .del name, s => usersDel s name

/-- What the call is for. -/
def onRoster : UserCall → Roster → Option Roster
  | .add name pass, m => m.insert? name.bytes pass.bytes
  | .del name, m => m.erase? name.bytes

/-- A call that is refused changes nothing. -/
def settle {σ : Type} (effect : σ → Option σ) (state : σ) : σ × Bool :=
  match effect state with
  | some state' => (state', true)
  | none => (state, false)

/-- A sequence of calls: what it leaves, and what each call returned. -/
def runAll {σ : Type} (effect : UserCall → σ → Option σ) : List UserCall → σ → σ × List Bool
  | [], state => (state, [])
  | call :: calls, state =>
      let (state', returned) := settle (effect call) state
      let (final, results) := runAll effect calls state'
      (final, returned :: results)

end UserCall

/-- The table holds the accounts of the roster. -/
def Users.Refines (s : Users) (m : Roster) : Prop := s.accounts = m.entries

namespace Users.Refines

open UserCall

variable {s : Users} {m : Roster}

theorem names_eq (refines : s.Refines m) : s.names = m.keys := by
  rw [names, refines, OrderedMap.keys]

theorem count_eq (refines : s.Refines m) : s.count = m.entries.length := by
  rw [← s.length_accounts, refines]

theorem add (refines : s.Refines m) (name pass : CString) :
    Option.Rel Users.Refines (usersAdd s name pass) (m.insert? name.bytes pass.bytes) := by
  have accepted : (usersAdd s name pass).isSome = true ↔
      ValidAccount name.bytes pass.bytes ∧ m.entries.length < USERS_MAX ∧
        name.bytes ∉ m.keys := by
    rw [usersAdd_isSome, refines.names_eq, refines.count_eq, ValidAccount]
    tauto
  cases added : usersAdd s name pass with
  | none =>
      rw [added] at accepted
      rw [OrderedMap.insert?, dif_neg (mt accepted.mpr (by simp))]
      exact .none
  | some s' =>
      rw [added] at accepted
      rw [OrderedMap.insert?, dif_pos (accepted.mp rfl)]
      refine .some ?_
      rw [Users.Refines, accounts_usersAdd added, refines]

/-- An account is deleted from the table where the roster has it. -/
theorem del (refines : s.Refines m) (name : CString) :
    Option.Rel Users.Refines (usersDel s name) (m.erase? name.bytes) := by
  cases deleted : usersDel s name with
  | none =>
      have absent : name.bytes ∉ m.keys := by
        rw [← refines.names_eq, ← usersExists_iff, usersExists]
        unfold usersDel at deleted
        split at deleted
        · rename_i missing
          simp [missing]
        · cases deleted
      rw [OrderedMap.erase?, if_neg absent]
      exact .none
  | some s' =>
      rcases accounts_usersDel deleted with ⟨i, found, erased⟩
      have present : name.bytes ∈ m.keys := by
        rw [← refines.names_eq, ← usersExists_iff, usersExists, found]
        rfl
      rw [OrderedMap.erase?, if_pos present]
      refine .some ?_
      rcases usersFind_eq_some_iff.mp found with ⟨within, named, -⟩
      have inside : i < m.entries.length := refines.count_eq ▸ within
      have key : (m.entries.get ⟨i, inside⟩).1 = name.bytes := by
        have entries : m.entries = s.accounts := refines.symm
        simp only [List.get_eq_getElem, entries]
        simpa [accounts] using named
      rw [Users.Refines, erased, refines, OrderedMap.eraseIdx_eq_filter m.distinct inside, key]

theorem call (refines : s.Refines m) (call : UserCall) :
    Option.Rel Users.Refines (call.onUsers s) (call.onRoster m) := by
  cases call with
  | add name pass => exact refines.add name pass
  | del name => exact refines.del name

/-- Along any sequence of calls the table holds the accounts of the roster, and each call returns
what it returns on the roster. -/
theorem runAll (refines : s.Refines m) (calls : List UserCall) :
    (UserCall.runAll onUsers calls s).1.Refines (UserCall.runAll onRoster calls m).1 ∧
      (UserCall.runAll onUsers calls s).2 = (UserCall.runAll onRoster calls m).2 := by
  induction calls generalizing s m with
  | nil => exact ⟨refines, rfl⟩
  | cons call calls ih =>
      have done := refines.call call
      simp only [UserCall.runAll, settle]
      cases onTable : call.onUsers s with
      | none =>
          rw [onTable] at done
          cases onMap : call.onRoster m with
          | none => exact ⟨(ih refines).1, congrArg _ (ih refines).2⟩
          | some m' => rw [onMap] at done; cases done
      | some s' =>
          rw [onTable] at done
          cases onMap : call.onRoster m with
          | none => rw [onMap] at done; cases done
          | some m' =>
              rw [onMap] at done
              cases done with
              | some refined => exact ⟨(ih refined).1, congrArg _ (ih refined).2⟩

/-- Credentials validate exactly if the roster maps the name to the password. -/
theorem validate_iff (refines : s.Refines m) (user password : List UInt8) :
    usersValidate s user password = true ↔ m.lookup user = some password := by
  rw [usersValidate_iff, refines, OrderedMap.lookup]
  refine ⟨fun valid => valid.2.2, fun mapped => ?_⟩
  have account := m.valid _ ((m.lookup_eq_some_iff user password).mp mapped)
  exact ⟨account.1.1, account.2.1, mapped⟩

end Users.Refines

/-- The store as SOCKS authentication and the management commands see it: after any calls it holds
the accounts of the ordered map, every call has returned what it returns on the map, and a parsed
RFC 1929 message validates exactly if the map has its name under its password. -/
theorem users_refines_ordered_map (calls : List UserCall) :
    let table := UserCall.runAll UserCall.onUsers calls usersInit
    let roster := UserCall.runAll UserCall.onRoster calls OrderedMap.empty
    table.1.accounts = roster.1.entries ∧ table.2 = roster.2 ∧
      (∀ name : CString, usersExists table.1 name = true ↔ name.bytes ∈ roster.1.keys) ∧
      usersCount table.1 = roster.1.entries.length ∧
      (∀ i, usersNameAt table.1 i = roster.1.keys[i]?) ∧
      ∀ (old : Socks5Auth) (user password : AuthField) (rest : List UInt8) (b : Buffer),
        b.contents = credentialsMessage user password ++ rest →
          (authParserFeed (authParserInit old) b).1.state = .done ∧
            (authParserFeed (authParserInit old) b).2.contents = rest ∧
            (usersValidate table.1 (authParserFeed (authParserInit old) b).1.user
                (authParserFeed (authParserInit old) b).1.password = true ↔
              roster.1.lookup user.bytes = some password.bytes) := by
  intro table roster
  have start : usersInit.Refines (OrderedMap.empty : Roster) := rfl
  rcases start.runAll calls with ⟨refines, returned⟩
  refine ⟨refines, returned, ?_, refines.count_eq, ?_, ?_⟩
  · intro name
    rw [Users.usersExists_iff, ← refines.names_eq]
  · intro i
    rw [← Users.getElem?_names, ← refines.names_eq]
  · intro old user password rest b message
    rcases Socks5Auth.consume_credentialsMessage old user password rest with
      ⟨p, consumed, complete, name, secret⟩
    rw [authParserFeed, Buffer.feed_state, Buffer.feed_contents, message, consumed]
    refine ⟨complete, rfl, ?_⟩
    rw [name, secret]
    exact refines.validate_iff user.bytes password.bytes

end SocksProxy
