import Mathlib.Data.List.Basic
import Mathlib.Data.List.TakeWhile
import Mathlib.Logic.Function.Basic
import Mathlib.Tactic.Common

/-!
# The user store

`users.c`: the proxy's user/password table, kept as the source keeps it, in
fixed `char[256]` arrays inside a fixed array of entries. Cells past the
terminator of a name and entries past `count` hold whatever earlier operations
left there.

`Users.accounts` reads the table as a list of name and password pairs, in the
order of the entries; the results here relate the C string operations to it.
-/

namespace SocksProxy

def USERS_MAX : Nat := 100

def USERS_NAME_MAX : Nat := 255

def USERS_PASS_MAX : Nat := 255

/-- A C string: its bytes up to the terminator. -/
structure CString where
  bytes : List UInt8
  nulFree : 0 ∉ bytes
  deriving DecidableEq

/-- A `char[256]` array holding a terminated string. -/
structure CharArray where
  cells : List UInt8
  length_eq : cells.length = USERS_NAME_MAX + 1
  terminated : 0 ∈ cells

namespace CharArray

/-- The array as static storage leaves it. -/
def zero : CharArray where
  cells := List.replicate (USERS_NAME_MAX + 1) 0
  length_eq := List.length_replicate
  terminated := by decide

/-- The string the array holds: its bytes before the first NUL. -/
def text (array : CharArray) : List UInt8 := array.cells.takeWhile fun byte => byte != 0

/-- `strlen`. -/
def strlen (array : CharArray) : Nat := array.text.length

/-- `memcpy(array, source, strlen(source) + 1)` for a source that fits. -/
def copy (array : CharArray) (source : CString) (fits : source.bytes.length ≤ USERS_NAME_MAX) :
    CharArray where
  cells := source.bytes ++ 0 :: array.cells.drop (source.bytes.length + 1)
  length_eq := by
    have := array.length_eq
    simp only [List.length_append, List.length_cons, List.length_drop]
    omega
  terminated := by simp

@[simp]
theorem text_copy (array : CharArray) (source : CString)
    (fits : source.bytes.length ≤ USERS_NAME_MAX) :
    (array.copy source fits).text = source.bytes := by
  have clean : ∀ byte ∈ source.bytes, (byte != 0) = true := by
    intro byte member
    rw [bne_iff_ne]
    intro nul
    exact source.nulFree (nul ▸ member)
  simp only [text, copy]
  rw [List.takeWhile_append_of_pos clean]
  simp

theorem nul_not_mem_text (array : CharArray) : 0 ∉ array.text := by
  intro member
  have := List.mem_takeWhile_imp member
  simp at this

theorem length_text_le (array : CharArray) : array.text.length ≤ USERS_NAME_MAX := by
  have prefixLength := (List.takeWhile_prefix (l := array.cells) (fun byte => byte != 0)).length_le
  have whole := array.length_eq
  by_contra longer
  have full : array.text.length = array.cells.length := by
    simp only [text] at longer prefixLength ⊢
    omega
  have same : array.text = array.cells :=
    (List.takeWhile_prefix _).eq_of_length full
  exact array.nul_not_mem_text (same ▸ array.terminated)

end CharArray

/-- An entry of `struct Users`. -/
structure UserEntry where
  name : CharArray
  pass : CharArray

/-- `struct Users`; entries past `USERS_MAX` do not exist and are never reached. -/
structure Users where
  count : Nat
  entries : Nat → UserEntry
  count_le : count ≤ USERS_MAX

/-- `users_init`. -/
def usersInit : Users where
  count := 0
  entries := fun _ => ⟨CharArray.zero, CharArray.zero⟩
  count_le := Nat.zero_le _

/-- `users_find`: the first entry with that name. -/
def usersFind (s : Users) (name : CString) : Option Nat :=
  (List.range s.count).find? fun i => (s.entries i).name.text = name.bytes

/-- `users_count`. -/
def usersCount (s : Users) : Nat := s.count

/-- `users_exists`. -/
def usersExists (s : Users) (name : CString) : Bool := (usersFind s name).isSome

/-- `users_add`: `none` where the source returns `false`. -/
def usersAdd (s : Users) (name pass : CString) : Option Users :=
  if fits : name.bytes.length ≠ 0 ∧ pass.bytes.length ≠ 0 ∧
      name.bytes.length ≤ USERS_NAME_MAX ∧ pass.bytes.length ≤ USERS_PASS_MAX then
    if room : s.count < USERS_MAX then
      if usersExists s name then none
      else
        some
          { count := s.count + 1
            entries := Function.update s.entries s.count
              ⟨(s.entries s.count).name.copy name fits.2.2.1,
                (s.entries s.count).pass.copy pass fits.2.2.2⟩
            count_le := room }
    else none
  else none

/-- The shift of `users_del`: `entries[i] = entries[i + 1]` for `n` consecutive indices. -/
def shiftEntries (entries : Nat → UserEntry) : Nat → Nat → (Nat → UserEntry)
  | _, 0 => entries
  | i, n + 1 => shiftEntries (Function.update entries i (entries (i + 1))) (i + 1) n

/-- `users_del`: `none` where the source returns `false`. -/
def usersDel (s : Users) (name : CString) : Option Users :=
  match usersFind s name with
  | none => none
  | some index =>
      some
        { count := s.count - 1
          entries := shiftEntries s.entries index (s.count - 1 - index)
          count_le := Nat.le_trans (Nat.sub_le _ _) s.count_le }

/-- `strlen(array) == bytes.length && memcmp(array, bytes, bytes.length) == 0`. -/
def sameBytes (array : CharArray) (bytes : List UInt8) : Bool :=
  array.strlen = bytes.length && array.cells.take bytes.length = bytes

/-- `users_validate`: the first entry with that name decides. -/
def usersValidate (s : Users) (user pass : List UInt8) : Bool :=
  if user.length = 0 ∨ pass.length = 0 then false
  else
    match (List.range s.count).find? fun i => sameBytes (s.entries i).name user with
    | none => false
    | some i => sameBytes (s.entries i).pass pass

/-- `users_name_at`. -/
def usersNameAt (s : Users) (i : Nat) : Option (List UInt8) :=
  if i < s.count then some (s.entries i).name.text else none

namespace Users

/-- The store read as a list of name and password pairs. -/
def accounts (s : Users) : List (List UInt8 × List UInt8) :=
  (List.range s.count).map fun i => ((s.entries i).name.text, (s.entries i).pass.text)

theorem sameBytes_iff (array : CharArray) (bytes : List UInt8) :
    sameBytes array bytes = true ↔ array.text = bytes := by
  have textPrefix := List.takeWhile_prefix (l := array.cells) (fun byte => byte != 0)
  rw [sameBytes, Bool.and_eq_true, decide_eq_true_iff, decide_eq_true_iff]
  constructor
  · rintro ⟨length, compared⟩
    rw [← compared, ← length]
    exact List.prefix_iff_eq_take.mp textPrefix
  · intro same
    subst same
    exact ⟨rfl, (List.prefix_iff_eq_take.mp textPrefix).symm⟩

/-- Credentials that validate are those of an account of the store. -/
theorem mem_accounts_of_validate {s : Users} {user pass : List UInt8}
    (valid : usersValidate s user pass = true) : (user, pass) ∈ s.accounts := by
  unfold usersValidate at valid
  split at valid
  · cases valid
  · split at valid
    · cases valid
    · rename_i i found
      have member := List.mem_of_find?_eq_some found
      have name := List.find?_some found
      rw [sameBytes_iff] at name valid
      exact List.mem_map.mpr ⟨i, member, by rw [name, valid]⟩

theorem length_accounts (s : Users) : s.accounts.length = s.count := by
  simp [accounts]

end Users

end SocksProxy
