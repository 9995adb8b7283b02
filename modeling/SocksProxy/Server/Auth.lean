import Mathlib.Logic.Function.Basic
import SocksProxy.Shared.Buffer

/-!
# User/password authentication

`auth.c`: the parser of the RFC 1929 message `VER ULEN UNAME PLEN PASSWD` and
its two-byte reply. Zero-length fields take the shortcuts of the source.

The arrays `uname[256]` and `passwd[256]` are tables indexed by a byte, which
is the type of the counters that index them.
-/

namespace SocksProxy

def SOCKS5_AUTH_VERSION : UInt8 := 0x01

def SOCKS5_AUTH_OK : UInt8 := 0x00

def SOCKS5_AUTH_FAIL : UInt8 := 0x01

/-- A `uint8_t[256]` array. -/
abbrev ByteTable := UInt8 → UInt8

namespace ByteTable

/-- The array as `calloc` leaves it. -/
def zero : ByteTable := fun _ => 0

/-- `table[index] = value`. -/
def set (table : ByteTable) (index value : UInt8) : ByteTable := Function.update table index value

/-- The first `n` bytes of the array. -/
def take (table : ByteTable) (n : Nat) : List UInt8 :=
  (List.range n).map fun i => table (UInt8.ofNat i)

@[simp]
theorem length_take (table : ByteTable) (n : Nat) : (table.take n).length = n := by
  simp [take]

theorem take_set_of_le (table : ByteTable) (index value : UInt8) {n : Nat}
    (beyond : n ≤ index.toNat) : (table.set index value).take n = table.take n := by
  apply List.map_congr_left
  intro i member
  have before : i < n := List.mem_range.mp member
  have small := index.toNat_lt
  apply Function.update_of_ne
  intro same
  have := congrArg UInt8.toNat same
  rw [UInt8.toNat_ofNat', Nat.mod_eq_of_lt (by omega)] at this
  omega

theorem take_succ_set (table : ByteTable) (index value : UInt8) :
    (table.set index value).take (index.toNat + 1) = table.take index.toNat ++ [value] := by
  rw [← take_set_of_le table index value (Nat.le_refl _)]
  unfold take
  rw [List.range_succ, List.map_append]
  simp [set]

end ByteTable

/-- `auth_state`. -/
inductive AuthState where
  | ver
  | ulen
  | uname
  | plen
  | passwd
  | done
  | error
  deriving DecidableEq, Repr

/-- `struct socks5_auth`. -/
structure Socks5Auth where
  state : AuthState
  ulen : UInt8
  uname : ByteTable
  unameRead : UInt8
  plen : UInt8
  passwd : ByteTable
  passwdRead : UInt8

/-- `auth_parser_init`: the arrays keep whatever they held, except for their first byte. -/
def authParserInit (p : Socks5Auth) : Socks5Auth :=
  { p with
    state := .ver
    ulen := 0
    unameRead := 0
    uname := p.uname.set 0 0
    plen := 0
    passwdRead := 0
    passwd := p.passwd.set 0 0 }

namespace Socks5Auth

/-- The structure as `calloc` leaves it. -/
def zero : Socks5Auth where
  state := .ver
  ulen := 0
  uname := ByteTable.zero
  unameRead := 0
  plen := 0
  passwd := ByteTable.zero
  passwdRead := 0

/-- `p->uname[p->uname_read++] = c`, closing the name once it is complete. -/
def pushUname (p : Socks5Auth) (c : UInt8) : Socks5Auth :=
  let q := { p with uname := p.uname.set p.unameRead c, unameRead := p.unameRead + 1 }
  if q.unameRead = q.ulen then { q with uname := q.uname.set q.ulen 0, state := .plen } else q

/-- `p->passwd[p->passwd_read++] = c`, closing the password once it is complete. -/
def pushPasswd (p : Socks5Auth) (c : UInt8) : Socks5Auth :=
  let q := { p with passwd := p.passwd.set p.passwdRead c, passwdRead := p.passwdRead + 1 }
  if q.passwdRead = q.plen then { q with passwd := q.passwd.set q.plen 0, state := .done } else q

/-- The body of the `switch` in `auth_parser_feed`. -/
def step (p : Socks5Auth) (c : UInt8) : Socks5Auth :=
  match p.state with
  | .ver => { p with state := if c = SOCKS5_AUTH_VERSION then .ulen else .error }
  | .ulen =>
      if c = 0 then { p with ulen := c, unameRead := 0, uname := p.uname.set 0 0, state := .plen }
      else { p with ulen := c, unameRead := 0, state := .uname }
  | .uname => p.pushUname c
  | .plen =>
      if c = 0 then
        { p with plen := c, passwdRead := 0, passwd := p.passwd.set 0 0, state := .done }
      else { p with plen := c, passwdRead := 0, state := .passwd }
  | .passwd => p.pushPasswd c
  | .done | .error => p

/-- The loop of `auth_parser_feed` stops on a complete or an invalid message. -/
def stopped (p : Socks5Auth) : Bool := p.state = .done || p.state = .error

/-- The credential parser as a byte consumer. -/
def consumer : Consumer Socks5Auth UInt8 where
  step := step
  final := stopped

/-- The user name received: `ulen` bytes of `uname`. -/
def user (p : Socks5Auth) : List UInt8 := p.uname.take p.ulen.toNat

/-- The password received: `plen` bytes of `passwd`. -/
def password (p : Socks5Auth) : List UInt8 := p.passwd.take p.plen.toNat

end Socks5Auth

/-- `auth_parser_feed`. -/
def authParserFeed (p : Socks5Auth) (b : Buffer) : Socks5Auth × Buffer :=
  b.feed Socks5Auth.consumer p

/-- `fill_auth_reply`. -/
def fillAuthReply (b : Buffer) (status : UInt8) : Buffer :=
  (b.writeByte SOCKS5_AUTH_VERSION).writeByte status

/-- The RFC 1929 message carrying a user name and a password. -/
def IsCredentials (message user password : List UInt8) : Prop :=
  ∃ ulen plen : UInt8,
    message = SOCKS5_AUTH_VERSION :: ulen :: user ++ plen :: password ∧
      user.length = ulen.toNat ∧ password.length = plen.toNat

namespace Socks5Auth

/-- What each parser state says about the bytes consumed so far. -/
def Consumed (p : Socks5Auth) (used : List UInt8) : Prop :=
  match p.state with
  | .ver => used = []
  | .ulen => used = [SOCKS5_AUTH_VERSION]
  | .uname =>
      used = SOCKS5_AUTH_VERSION :: p.ulen :: p.uname.take p.unameRead.toNat ∧
        p.unameRead.toNat < p.ulen.toNat
  | .plen => used = SOCKS5_AUTH_VERSION :: p.ulen :: p.user
  | .passwd =>
      used = SOCKS5_AUTH_VERSION :: p.ulen :: p.user ++ p.plen :: p.passwd.take p.passwdRead.toNat ∧
        p.passwdRead.toNat < p.plen.toNat
  | .done => used = SOCKS5_AUTH_VERSION :: p.ulen :: p.user ++ p.plen :: p.password
  | .error => True

theorem toNat_succ_of_lt {counter bound : UInt8} (below : counter.toNat < bound.toNat) :
    (counter + 1).toNat = counter.toNat + 1 := by
  have small := bound.toNat_lt
  rw [UInt8.toNat_add]
  exact Nat.mod_eq_of_lt (by simp; omega)

theorem toNat_pos_of_ne_zero {c : UInt8} (nonzero : c ≠ 0) : 0 < c.toNat := by
  rw [Nat.pos_iff_ne_zero]
  intro zero
  exact nonzero (UInt8.toNat_inj.mp (by simpa using zero))

theorem consumed_pushUname {p : Socks5Auth} (c : UInt8) (state : p.state = .uname)
    (room : p.unameRead.toNat < p.ulen.toNat) :
    (p.pushUname c).Consumed
      (SOCKS5_AUTH_VERSION :: p.ulen :: (p.uname.take p.unameRead.toNat ++ [c])) := by
  have advanced := toNat_succ_of_lt room
  rw [← ByteTable.take_succ_set]
  by_cases complete : p.unameRead + 1 = p.ulen
  · have length : p.ulen.toNat = p.unameRead.toNat + 1 := by rw [← complete, advanced]
    simp only [pushUname, complete, if_true, Consumed, user]
    rw [ByteTable.take_set_of_le _ _ _ (Nat.le_refl _), length]
  · have different : p.unameRead.toNat + 1 ≠ p.ulen.toNat := by
      intro same
      exact complete (UInt8.toNat_inj.mp (by rw [advanced, same]))
    simp only [pushUname, complete, if_false, Consumed, state]
    rw [advanced]
    exact ⟨rfl, by omega⟩

theorem consumed_pushPasswd {p : Socks5Auth} (c : UInt8) (state : p.state = .passwd)
    (room : p.passwdRead.toNat < p.plen.toNat) :
    (p.pushPasswd c).Consumed
      (SOCKS5_AUTH_VERSION :: p.ulen :: p.user ++
        p.plen :: (p.passwd.take p.passwdRead.toNat ++ [c])) := by
  have advanced := toNat_succ_of_lt room
  rw [← ByteTable.take_succ_set]
  by_cases complete : p.passwdRead + 1 = p.plen
  · have length : p.plen.toNat = p.passwdRead.toNat + 1 := by rw [← complete, advanced]
    simp only [pushPasswd, complete, if_true, Consumed, user, password]
    rw [ByteTable.take_set_of_le _ _ _ (Nat.le_refl _), length]
  · have different : p.passwdRead.toNat + 1 ≠ p.plen.toNat := by
      intro same
      exact complete (UInt8.toNat_inj.mp (by rw [advanced, same]))
    simp only [pushPasswd, complete, if_false, Consumed, state, user]
    rw [advanced]
    exact ⟨rfl, by omega⟩

theorem consumed_step (p : Socks5Auth) (used : List UInt8) (c : UInt8)
    (running : consumer.final p = false) (before : p.Consumed used) :
    (p.step c).Consumed (used ++ [c]) := by
  unfold Consumed at before
  unfold step
  cases current : p.state with
  | ver =>
      rw [current] at before
      subst before
      by_cases version : c = SOCKS5_AUTH_VERSION <;> simp [Consumed, version]
  | ulen =>
      rw [current] at before
      subst before
      by_cases empty : c = 0
      · simp [Consumed, user, empty, ByteTable.take]
      · simp [Consumed, empty, ByteTable.take, toNat_pos_of_ne_zero empty]
  | uname =>
      rw [current] at before
      rcases before with ⟨rfl, room⟩
      simpa using consumed_pushUname c current room
  | plen =>
      rw [current] at before
      subst before
      by_cases empty : c = 0
      · simp [Consumed, user, password, empty, ByteTable.take]
      · simp [Consumed, user, empty, ByteTable.take, toNat_pos_of_ne_zero empty]
  | passwd =>
      rw [current] at before
      rcases before with ⟨rfl, room⟩
      simpa using consumed_pushPasswd c current room
  | done => simp [consumer, stopped, current] at running
  | error => simp [consumer, stopped, current] at running

/-- A completed parser has consumed the message that carries its two fields. -/
theorem credentials_of_done {initial p : Socks5Auth} {used : List UInt8}
    (consumed : consumer.consume (authParserInit initial) used = (p, []))
    (complete : p.state = .done) : IsCredentials used p.user p.password := by
  have initially : (authParserInit initial).Consumed [] := by simp [Consumed, authParserInit]
  have reached := consumer.consumed_invariant consumed_step initially consumed
  simp only [List.nil_append, Consumed, complete] at reached
  exact ⟨p.ulen, p.plen, reached, by simp [user], by simp [password]⟩

/-- Only the first byte can make a message invalid. -/
def Begun (p : Socks5Auth) (used : List UInt8) : Prop :=
  (p.state = .ver ↔ used = []) ∧
    (p.state = .error → ∃ c, used = [c] ∧ c ≠ SOCKS5_AUTH_VERSION)

theorem begun_step (p : Socks5Auth) (used : List UInt8) (c : UInt8)
    (running : consumer.final p = false) (before : p.Begun used) :
    (p.step c).Begun (used ++ [c]) := by
  cases current : p.state with
  | ver =>
      obtain rfl := before.1.mp current
      by_cases version : c = SOCKS5_AUTH_VERSION <;> simp [Begun, step, current, version]
  | ulen => by_cases empty : c = 0 <;> simp [Begun, step, current, empty]
  | uname =>
      simp only [Begun, step, current, pushUname]
      split <;> simp
  | plen => by_cases empty : c = 0 <;> simp [Begun, step, current, empty]
  | passwd =>
      simp only [Begun, step, current, pushPasswd]
      split <;> simp
  | done => simp [consumer, stopped, current] at running
  | error => simp [consumer, stopped, current] at running

end Socks5Auth

/-- A user name or a password as it travels: up to 255 bytes, whatever they are. -/
structure AuthField where
  bytes : List UInt8
  length_le : bytes.length ≤ 255

namespace AuthField

/-- The byte that announces the field. -/
def size (field : AuthField) : UInt8 := UInt8.ofNat field.bytes.length

@[simp]
theorem toNat_size (field : AuthField) : field.size.toNat = field.bytes.length := by
  have := field.length_le
  rw [size, UInt8.toNat_ofNat']
  exact Nat.mod_eq_of_lt (by omega)

end AuthField

/-- The RFC 1929 message for a user name and a password. -/
def credentialsMessage (user password : AuthField) : List UInt8 :=
  SOCKS5_AUTH_VERSION :: user.size :: user.bytes ++ password.size :: password.bytes

namespace Socks5Auth

theorem not_consumed_of_running {p : Socks5Auth} (running : consumer.final p = false)
    (user password : AuthField) : ¬ p.Consumed (credentialsMessage user password) := by
  intro consumed
  have nameSize := user.toNat_size
  have passwordSize := password.toNat_size
  cases current : p.state with
  | ver => simp [Consumed, current, credentialsMessage] at consumed
  | ulen => simp [Consumed, current, credentialsMessage] at consumed
  | uname =>
      simp only [Consumed, current, credentialsMessage, List.cons_append, List.cons.injEq,
        true_and] at consumed
      rcases consumed with ⟨⟨announced, name⟩, short⟩
      have lengths := congrArg List.length name
      simp only [List.length_append, List.length_cons, ByteTable.length_take] at lengths
      rw [announced] at nameSize
      omega
  | plen =>
      simp only [Consumed, current, credentialsMessage, List.cons_append, List.cons.injEq,
        true_and] at consumed
      rcases consumed with ⟨announced, name⟩
      have lengths := congrArg List.length name
      simp only [List.length_append, List.length_cons, Socks5Auth.user,
        ByteTable.length_take] at lengths
      rw [announced] at nameSize
      omega
  | passwd =>
      simp only [Consumed, current, credentialsMessage, List.cons_append, List.cons.injEq,
        true_and] at consumed
      rcases consumed with ⟨⟨announced, fields⟩, short⟩
      rw [announced] at nameSize
      have secret := (List.append_inj fields (by simp [Socks5Auth.user, nameSize])).2
      rw [List.cons.injEq] at secret
      have lengths := congrArg List.length secret.2
      rw [ByteTable.length_take] at lengths
      rw [secret.1] at passwordSize
      omega
  | done => simp [consumer, stopped, current] at running
  | error => simp [consumer, stopped, current] at running

/-- A parser that has completed a message at the beginning of the input has taken just that. -/
theorem fields_of_consumed {p : Socks5Auth} {used left : List UInt8} (complete : p.state = .done)
    (consumed : p.Consumed used) {user password : AuthField}
    (split : credentialsMessage user password = used ++ left) :
    p.user = user.bytes ∧ p.password = password.bytes ∧ left = [] := by
  simp only [Consumed, complete] at consumed
  subst consumed
  simp only [credentialsMessage, List.cons_append, List.append_assoc, List.cons.injEq,
    true_and] at split
  rcases split with ⟨announced, fields⟩
  have nameSize := user.toNat_size
  have passwordSize := password.toNat_size
  rw [announced] at nameSize
  rcases List.append_inj fields (by simp [Socks5Auth.user, nameSize]) with ⟨name, secret⟩
  rw [List.cons.injEq] at secret
  rw [secret.1] at passwordSize
  have whole : password.bytes ++ [] = p.password ++ left := by simpa using secret.2
  rcases List.append_inj whole (by simp [Socks5Auth.password, passwordSize]) with ⟨same, nothing⟩
  exact ⟨name.symm, same.symm, nothing.symm⟩

/-- The message is taken whole, and its fields are those of the message. -/
theorem consume_credentialsMessage (initial : Socks5Auth) (user password : AuthField)
    (rest : List UInt8) :
    ∃ p, consumer.consume (authParserInit initial) (credentialsMessage user password ++ rest) =
        (p, rest) ∧
      p.state = .done ∧ p.user = user.bytes ∧ p.password = password.bytes := by
  rcases consumer.exists_consumed (authParserInit initial) (credentialsMessage user password) with
    ⟨used, split, consumed⟩
  have begun := consumer.consumed_invariant begun_step
    (show (authParserInit initial).Begun [] by simp [Begun, authParserInit]) consumed
  have reached := consumer.consumed_invariant consumed_step
    (show (authParserInit initial).Consumed [] by simp [Consumed, authParserInit]) consumed
  rw [List.nil_append] at begun reached
  have stops : consumer.final
      (consumer.consume (authParserInit initial) (credentialsMessage user password)).1 = true := by
    by_contra waits
    have running := Bool.eq_false_iff.mpr waits
    rw [consumer.rest_eq_nil_of_running running, List.append_nil] at split
    exact not_consumed_of_running running user password (split ▸ reached)
  have final := stops
  simp only [consumer, stopped, Bool.or_eq_true, decide_eq_true_eq] at final
  rcases final with complete | invalid
  · rcases fields_of_consumed complete reached split with ⟨name, secret, nothing⟩
    rw [nothing, List.append_nil] at split
    rw [← split] at consumed
    exact ⟨_, consumer.consume_append_of_final consumed stops rest, complete, name, secret⟩
  · rcases begun.2 invalid with ⟨c, rfl, other⟩
    injection split with version
    exact absurd version.symm other

end Socks5Auth

end SocksProxy
