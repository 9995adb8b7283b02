import Mathlib.Algebra.Group.Nat.Defs
import Mathlib.Data.List.Basic
import Mathlib.Tactic.Common

/-!
# Text output

The pieces of `printf` and `inet_ntop` the server uses, as byte lists: literal
text, decimal and hexadecimal numbers, and the presentation form of IPv4 and
IPv6 addresses.
-/

namespace SocksProxy

/-- The bytes of an ASCII string literal. -/
def ascii (s : String) : List UInt8 := s.toList.map fun c => UInt8.ofNat c.toNat

/-- `%u` and `%llu`. -/
def decimal (n : Nat) : List UInt8 := (Nat.toDigits 10 n).map fun c => UInt8.ofNat c.toNat

/-- `%02d` for a calendar field. -/
def decimal2 (n : Nat) : List UInt8 := if n < 10 then ascii "0" ++ decimal n else decimal n

/-- `%x`. -/
def hexadecimal (n : Nat) : List UInt8 := (Nat.toDigits 16 n).map fun c => UInt8.ofNat c.toNat

/-- `inet_ntop` for `AF_INET`, on the four address bytes. -/
def inetNtop4 (addr : List UInt8) : List UInt8 :=
  ((addr.take 4).map fun byte => decimal byte.toNat).intersperse (ascii ".") |>.flatten

/-- The eight 16-bit words of an IPv6 address. -/
def words6 (addr : List UInt8) : List Nat :=
  (List.range 8).map fun i => (addr.getD (2 * i) 0).toNat * 256 + (addr.getD (2 * i + 1) 0).toNat

/-- Length of the run of zero words starting at index `i`. -/
def zeroRun (words : List Nat) (i : Nat) : Nat := ((words.drop i).takeWhile (· == 0)).length

/-- The first longest run of at least two zero words, as base and length. -/
def bestRun (words : List Nat) : Option (Nat × Nat) :=
  (List.range 8).foldl
    (fun best i =>
      let run := zeroRun words i
      let longest := match best with
        | none => 1
        | some (_, length) => length
      if longest < run then some (i, run) else best)
    none

/-- The text of word `i`, with its separator; words of the compressed run print `::` once. -/
def word6Text (words : List Nat) (best : Option (Nat × Nat)) (i : Nat) : List UInt8 :=
  match best with
  | some (base, length) =>
      if base ≤ i ∧ i < base + length then (if i = base then ascii ":" else [])
      else (if i ≠ 0 then ascii ":" else []) ++ hexadecimal (words.getD i 0)
  | none => (if i ≠ 0 then ascii ":" else []) ++ hexadecimal (words.getD i 0)

/-- An IPv4-mapped or IPv4-compatible address prints its last four bytes in dotted form. -/
def embedsIPv4 (words : List Nat) (best : Option (Nat × Nat)) : Bool :=
  best = some (0, 6) || (best = some (0, 5) && words.getD 5 0 = 0xffff)

/-- `inet_ntop` for `AF_INET6`, on the sixteen address bytes. -/
def inetNtop6 (addr : List UInt8) : List UInt8 :=
  let words := words6 addr
  let best := bestRun words
  if embedsIPv4 words best then
    ((List.range 6).map (word6Text words best)).flatten ++ ascii ":" ++ inetNtop4 (addr.drop 12)
  else
    ((List.range 8).map (word6Text words best)).flatten ++
      match best with
      | some (base, length) => if base + length = 8 then ascii ":" else []
      | none => []

/-- `isspace` in the C locale. -/
def isSpace (c : UInt8) : Bool := c = 0x20 || (0x09 ≤ c && c ≤ 0x0D)

/-- `isdigit`. -/
def isDigit (c : UInt8) : Bool := 0x30 ≤ c && c ≤ 0x39

/-- The number some decimal digits denote. -/
def digitsValue (digits : List UInt8) : Nat :=
  digits.foldl (fun n digit => n * 10 + (digit.toNat - 0x30)) 0

/-- What `strtoul` gives: the value, the text at `end`, and whether it set `errno` to `ERANGE`. -/
structure Strtoul where
  value : Nat
  rest : List UInt8
  outOfRange : Bool
  deriving DecidableEq, Repr

/-- `strtoul(s, &end, 10)` for a 64-bit `unsigned long`: leading white space and a sign are
accepted, a negative number wraps around, and without a digit nothing is used. -/
def strtoul (s : List UInt8) : Strtoul :=
  let body := s.dropWhile isSpace
  let negative := body.head? = some 0x2D
  let unsigned := if negative ∨ body.head? = some 0x2B then body.drop 1 else body
  let digits := unsigned.takeWhile isDigit
  let rest := unsigned.dropWhile isDigit
  if digits = [] then ⟨0, s, false⟩
  else if 2 ^ 64 ≤ digitsValue digits then ⟨2 ^ 64 - 1, rest, true⟩
  else if negative then ⟨(2 ^ 64 - digitsValue digits) % 2 ^ 64, rest, false⟩
  else ⟨digitsValue digits, rest, false⟩

/-! ## Decimal numbers -/

theorem decimal_ne_nil (n : Nat) : decimal n ≠ [] := by
  simp [decimal]

theorem toNat_of_isDigit {c : Char} (digit : c.isDigit = true) :
    0x30 ≤ c.toNat ∧ c.toNat ≤ 0x39 := by
  simp only [Char.isDigit, ge_iff_le, Bool.and_eq_true, decide_eq_true_eq,
    UInt32.le_iff_toNat_le] at digit
  exact digit

theorem toNat_ofNat_of_isDigit {c : Char} (digit : c.isDigit = true) :
    (UInt8.ofNat c.toNat).toNat = c.toNat := by
  have := toNat_of_isDigit digit
  rw [UInt8.toNat_ofNat', Nat.mod_eq_of_lt (by omega)]

theorem isDigit_of_mem_decimal {n : Nat} {c : UInt8} (member : c ∈ decimal n) :
    isDigit c = true := by
  rcases List.mem_map.mp member with ⟨char, digit, rfl⟩
  have isDigit := Nat.isDigit_of_mem_toDigits (by decide) (by decide) digit
  have bounds := toNat_of_isDigit isDigit
  rw [← toNat_ofNat_of_isDigit isDigit] at bounds
  simpa [SocksProxy.isDigit, UInt8.le_iff_toNat_le] using bounds

theorem length_decimal_le {n k : Nat} (positive : 0 < k) (small : n < 10 ^ k) :
    (decimal n).length ≤ k := by
  rw [decimal, List.length_map]
  exact (Nat.length_toDigits_le_iff (by decide) positive).mpr small

theorem digitsValue_decimal (n : Nat) : digitsValue (decimal n) = n := by
  have value : ∀ (chars : List Char) (start : Nat), (∀ c ∈ chars, c.isDigit = true) →
      (chars.map fun c => UInt8.ofNat c.toNat).foldl
        (fun n digit => n * 10 + (digit.toNat - 0x30)) start = Nat.ofDigitChars 10 chars start := by
    intro chars
    induction chars with
    | nil => intro start digits; rfl
    | cons c chars ih =>
        intro start digits
        rw [List.forall_mem_cons] at digits
        rw [List.map_cons, List.foldl_cons, ih _ digits.2, toNat_ofNat_of_isDigit digits.1,
          Nat.mul_comm]
        rfl
  rw [digitsValue, decimal, value _ _ fun c => Nat.isDigit_of_mem_toDigits (by decide) (by decide)]
  exact Nat.ofDigitChars_ten_toDigits

/-! ## Printable text -/

/-- Every byte is a printable ASCII character. -/
def Printable (bytes : List UInt8) : Prop := ∀ c ∈ bytes, 0x20 ≤ c ∧ c ≤ 0x7e

instance (bytes : List UInt8) : Decidable (Printable bytes) :=
  List.decidableBAll _ bytes

theorem Printable.append {front back : List UInt8} (first : Printable front)
    (second : Printable back) : Printable (front ++ back) := by
  intro c member
  exact (List.mem_append.mp member).elim (first c) (second c)

theorem printable_decimal (n : Nat) : Printable (decimal n) := by
  intro c member
  have digit := isDigit_of_mem_decimal member
  simp only [isDigit, Bool.and_eq_true, decide_eq_true_eq] at digit
  exact ⟨UInt8.le_trans (by decide) digit.1, UInt8.le_trans digit.2 (by decide)⟩

end SocksProxy
