import SocksProxy.Management.Lines
import SocksProxy.Management.Service

/-!
# Parameters and numbers

What `SET` takes and what the configuration can become. A numeric argument is
read by `strtoul`, which takes more than numbers: white space and a sign before
the digits, and a negative number modulo `2 ^ 64`. An argument that is `Disguised`
in this way is taken for a number that fits into 32 bits; every other one is taken
for a number exactly if it is one.

The ranges of the parameters are those of the protocol document. Setters and
lines keep the configuration in them, if it starts in them; a selector with room
for half a connection has a limit of zero from the start, and no value is
accepted for it.
-/

namespace SocksProxy

/-! ## Numeric arguments -/

/-- The text is the decimal representation of a 32-bit number, perhaps with leading zeros. -/
def Denotes (s : List UInt8) (n : Nat) : Prop :=
  s ≠ [] ∧ (∀ c ∈ s, isDigit c = true) ∧ digitsValue s = n ∧ n < 2 ^ 32

/-- What may stand before the digits, for `strtoul`. -/
inductive Sign where
  | none
  | plus
  | minus
  deriving DecidableEq, Repr

namespace Sign

def text : Sign → List UInt8
  | .none => []
  | .plus => [0x2B]
  | .minus => [0x2D]

/-- What `strtoul` makes of a number behind the sign. -/
def apply (n : Nat) : Sign → Nat
  | .none | .plus => n
  | .minus => (2 ^ 64 - n) % 2 ^ 64

end Sign

/-- White space, a sign and digits, as `strtoul` reads them. -/
structure Numeral (s spaces : List UInt8) (sign : Sign) (digits : List UInt8) : Prop where
  parts : s = spaces ++ (sign.text ++ digits)
  blank : ∀ c ∈ spaces, isSpace c = true
  some : digits ≠ []
  decimal : ∀ c ∈ digits, isDigit c = true

/-- Carriage returns or a sign stand before digits, and what `strtoul` makes of them fits into 32
bits. -/
def Disguised (s : List UInt8) : Prop :=
  ∃ returns sign digits, s = returns ++ (Sign.text sign ++ digits) ∧ (∀ c ∈ returns, c = CR) ∧
    (returns ≠ [] ∨ sign ≠ .none) ∧ digits ≠ [] ∧ (∀ c ∈ digits, isDigit c = true) ∧
    digitsValue digits < 2 ^ 64 ∧ sign.apply (digitsValue digits) < 2 ^ 32

theorem isSpace_of_isDigit {c : UInt8} (digit : isDigit c = true) : isSpace c = false := by
  simp only [isDigit, isSpace, Bool.and_eq_true, decide_eq_true_eq, Bool.or_eq_false_iff,
    Bool.and_eq_false_iff, decide_eq_false_iff_not, UInt8.le_iff_toNat_le, ← UInt8.toNat_inj,
    UInt8.reduceToNat] at digit ⊢
  omega

section

variable {s spaces digits : List UInt8} {sign : Sign}

/-- All of the text is read, and its digits are the number as long as it fits into 64 bits. -/
theorem Numeral.strtoul_eq (numeral : Numeral s spaces sign digits) :
    strtoul s =
      if 2 ^ 64 ≤ digitsValue digits then ⟨2 ^ 64 - 1, [], true⟩
      else ⟨sign.apply (digitsValue digits), [], false⟩ := by
  rcases numeral with ⟨rfl, blank, some, decimal⟩
  have all := List.takeWhile_eq_self_iff.mpr decimal
  have left := List.dropWhile_eq_nil_iff.mpr decimal
  rcases List.exists_cons_of_ne_nil some with ⟨c, rest, rfl⟩
  have digit := decimal c List.mem_cons_self
  have unsigned : c ≠ 0x2D ∧ c ≠ 0x2B := by
    constructor <;> rintro rfl <;> exact absurd digit (by decide)
  rw [strtoul, List.dropWhile_append_of_pos blank]
  cases sign with
  | none =>
      simp only [Sign.text, List.nil_append, List.dropWhile_cons, isSpace_of_isDigit digit,
        List.head?_cons, Option.some.injEq, unsigned.1, unsigned.2, or_self, if_false, all, left,
        Sign.apply, some, Bool.false_eq_true]
  | plus =>
      simp [Sign.text, Sign.apply, show isSpace 0x2B = false from rfl, all, left]
  | minus =>
      simp [Sign.text, Sign.apply, show isSpace 0x2D = false from rfl, all, left]

theorem exists_numeral_of_rest (nonempty : s ≠ []) (read : (strtoul s).rest = []) :
    ∃ spaces sign digits, Numeral s spaces sign digits := by
  have whole := (List.takeWhile_append_dropWhile (p := isSpace) (l := s)).symm
  have blank : ∀ c ∈ s.takeWhile isSpace, isSpace c = true := fun _ => List.mem_takeWhile_imp
  have signed : ∃ sign : Sign, s.dropWhile isSpace = sign.text ++
      (if (s.dropWhile isSpace).head? = some 0x2D ∨ (s.dropWhile isSpace).head? = some 0x2B then
        (s.dropWhile isSpace).drop 1 else s.dropWhile isSpace) := by
    by_cases minus : (s.dropWhile isSpace).head? = some 0x2D
    · refine ⟨.minus, ?_⟩
      rw [if_pos (.inl minus), List.drop_one]
      exact (List.cons_head?_tail minus).symm
    · by_cases plus : (s.dropWhile isSpace).head? = some 0x2B
      · refine ⟨.plus, ?_⟩
        rw [if_pos (.inr plus), List.drop_one]
        exact (List.cons_head?_tail plus).symm
      · exact ⟨.none, by rw [if_neg (not_or.mpr ⟨minus, plus⟩)]; rfl⟩
  rcases signed with ⟨sign, signed⟩
  simp only [strtoul] at read
  generalize (if (s.dropWhile isSpace).head? = some 0x2D ∨
      (s.dropWhile isSpace).head? = some 0x2B then (s.dropWhile isSpace).drop 1
      else s.dropWhile isSpace) = unsigned at signed read
  by_cases none : unsigned.takeWhile isDigit = []
  · rw [if_pos none] at read
    exact absurd read nonempty
  · have left : unsigned.dropWhile isDigit = [] := by
      rw [if_neg none] at read
      split at read
      · exact read
      · split at read <;> exact read
    have decimal := List.dropWhile_eq_nil_iff.mp left
    refine ⟨_, sign, unsigned, signed ▸ whole, blank, ?_, decimal⟩
    rintro rfl
    exact none rfl

end

/-- An argument is accepted exactly if it is a numeral, as the 32-bit number `strtoul` makes of
it. -/
theorem parseU32_iff (s : CString) (v : UInt32) :
    parseU32 s = some v ↔ ∃ spaces sign digits, Numeral s.bytes spaces sign digits ∧
      digitsValue digits < 2 ^ 64 ∧ sign.apply (digitsValue digits) = v.toNat := by
  have bound := v.toNat_lt
  unfold parseU32
  constructor
  · intro accepted
    split at accepted
    · cases accepted
    · next nonempty =>
        split at accepted
        · cases accepted
        · next fits =>
            rw [not_or, not_not, Nat.not_le] at fits
            rcases exists_numeral_of_rest nonempty fits.1 with ⟨spaces, sign, digits, numeral⟩
            have value := fits.2
            have same := Option.some.inj accepted
            rw [numeral.strtoul_eq] at value same
            refine ⟨spaces, sign, digits, numeral, ?_⟩
            split at value
            · exact absurd value (by decide)
            · next small =>
                rw [if_neg small] at same
                rw [← same, UInt32.toNat_ofNat_of_lt' value]
                exact ⟨Nat.lt_of_not_le small, rfl⟩
  · rintro ⟨spaces, sign, digits, numeral, small, value⟩
    have nonempty : s.bytes ≠ [] := by
      rw [numeral.parts]
      simp [numeral.some]
    have fits : ¬2 ^ 32 ≤ v.toNat := Nat.not_le.mpr bound
    simp only [numeral.strtoul_eq, if_neg (Nat.not_le.mpr small), value, nonempty, fits, ne_eq,
      not_true_eq_false, or_self, if_false, UInt32.ofNat_toNat]

theorem Denotes.parsed {s : CString} {n : Nat} (denotes : Denotes s.bytes n) :
    parseU32 s = some (UInt32.ofNat n) := by
  rcases denotes with ⟨nonempty, digits, rfl, small⟩
  refine (parseU32_iff s _).mpr ⟨[], .none, s.bytes, ⟨rfl, by simp, nonempty, digits⟩, by omega, ?_⟩
  rw [UInt32.toNat_ofNat_of_lt' small]
  rfl

theorem Disguised.parsed {s : CString} (disguised : Disguised s.bytes) :
    ∃ v, parseU32 s = some v := by
  rcases disguised with ⟨returns, sign, digits, parts, blank, -, some, decimal, small, fits⟩
  refine ⟨UInt32.ofNat (sign.apply (digitsValue digits)), (parseU32_iff s _).mpr
    ⟨returns, sign, digits, ⟨parts, fun c member => ?_, some, decimal⟩, small, ?_⟩⟩
  · rw [blank c member]
    rfl
  · rw [UInt32.toNat_ofNat_of_lt' fits]

/-- What is disguised is not a number: something in it is no digit. -/
theorem Disguised.not_denotes {s : List UInt8} (disguised : Disguised s) (n : Nat) :
    ¬Denotes s n := by
  rintro ⟨-, digits, -⟩
  rcases disguised with ⟨returns, sign, value, rfl, blank, worn, -⟩
  rcases worn with carriage | signed
  · rcases List.exists_mem_of_ne_nil _ carriage with ⟨c, member⟩
    have digit := digits c (List.mem_append_left _ member)
    rw [blank c member] at digit
    exact absurd digit (by decide)
  · cases sign with
    | none => exact signed rfl
    | plus => exact absurd (digits 0x2B (by simp [Sign.text])) (by decide)
    | minus => exact absurd (digits 0x2D (by simp [Sign.text])) (by decide)

/-! ## Tokens -/

theorem isLineByte_of_ready {content : List UInt8} {text : CString}
    (ready : Line.classify content = .ready text) : ∀ c ∈ text.bytes, isLineByte c = true := by
  unfold Line.classify at ready
  split at ready
  · next clean =>
      split at ready
      · next short =>
          cases ready
          intro c member
          rw [Line.spoilt, List.take_of_length_le (Nat.le_of_lt short), List.any_eq_false] at clean
          have inside : c ∈ content := by
            unfold Line.chomp at member
            split at member
            · exact (List.dropLast_sublist _).subset member
            · exact member
          simpa using clean c inside
      · cases ready
  · cases ready

theorem mem_mgmtTokenize {n : Nat} {line token : CString} (member : token ∈ mgmtTokenize n line) :
    token.bytes ≠ [] ∧ ∀ c ∈ token.bytes, c ∈ line.bytes ∧ c ≠ SP := by
  induction n generalizing line with
  | zero => simp [mgmtTokenize] at member
  | succ n ih =>
      unfold mgmtTokenize at member
      split at member
      · simp at member
      · next more =>
          rcases List.mem_cons.mp member with rfl | later
          · refine ⟨?_, fun c inside => ⟨?_, ?_⟩⟩
            · intro none
              have some : 0 < (line.bytes.dropWhile fun byte => byte == SP).length :=
                List.length_pos_iff.mpr more
              refine List.takeWhile_eq_nil_iff.mp none some ?_
              have first := List.dropWhile_get_zero_not (fun byte => byte == SP) line.bytes some
              simpa [CString.skip] using first
            · exact (List.dropWhile_suffix _).subset ((List.takeWhile_prefix _).subset inside)
            · simpa using List.mem_takeWhile_imp inside
          · rcases ih later with ⟨nonempty, inside⟩
            refine ⟨nonempty, fun c among => ⟨?_, (inside c among).2⟩⟩
            exact (List.dropWhile_suffix _).subset ((List.dropWhile_suffix _).subset
              ((List.drop_suffix 1 _).subset (inside c among).1))

/-- The only white space in a word of a line are carriage returns. -/
theorem carriage_of_isSpace {content : List UInt8} {text token : CString}
    (ready : Line.classify content = .ready text) (member : token ∈ mgmtTokenize 5 text) {c : UInt8}
    (inside : c ∈ token.bytes) (space : isSpace c = true) : c = CR := by
  rcases (mem_mgmtTokenize member).2 c inside with ⟨among, visible⟩
  rcases Line.isLineByte_iff.mp (isLineByte_of_ready ready c among) with carriage | printable
  · exact carriage
  · have least := UInt8.le_iff_toNat_le.mp printable.1
    simp only [isSpace, Bool.or_eq_true, Bool.and_eq_true, decide_eq_true_eq,
      UInt8.le_iff_toNat_le, UInt8.reduceToNat] at space least
    rcases space with blank | control
    · exact absurd blank visible
    · omega

/-- A word of a line that is not disguised is accepted exactly if it is a number. -/
theorem parseU32_iff_denotes {content : List UInt8} {text s : CString}
    (ready : Line.classify content = .ready text) (token : s ∈ mgmtTokenize 5 text)
    (plain : ¬Disguised s.bytes) (v : UInt32) : parseU32 s = some v ↔ Denotes s.bytes v.toNat := by
  constructor
  · intro accepted
    rcases (parseU32_iff s v).mp accepted with ⟨spaces, sign, digits, numeral, small, value⟩
    have fits := v.toNat_lt
    have bare : spaces = [] ∧ sign = .none := by
      by_contra worn
      refine plain ⟨spaces, sign, digits, numeral.parts, fun c member => ?_,
        not_and_or.mp worn, numeral.some, numeral.decimal, small, value ▸ fits⟩
      have inside : c ∈ s.bytes := numeral.parts ▸ List.mem_append_left _ member
      exact carriage_of_isSpace ready token inside (numeral.blank c member)
    rcases bare with ⟨rfl, rfl⟩
    have same : s.bytes = digits := numeral.parts
    rw [same]
    exact ⟨numeral.some, numeral.decimal, value, fits⟩
  · intro denotes
    rw [denotes.parsed, UInt32.ofNat_toNat]

/-! ## Ranges -/

namespace Parameter

/-- The least and the greatest value of a parameter, as the protocol document gives them. -/
def range (cfg : Config) : Parameter → Nat × Nat
  | .connTimeout => (1, 3600)
  | .ioBufferSize => (512, 65536)
  | .maxConnections => (1, cfg.maxConnectionsHard.toNat)

/-- A value that the document allows. -/
def Allows (parameter : Parameter) (cfg : Config) (n : Nat) : Prop :=
  (parameter.range cfg).1 ≤ n ∧ n ≤ (parameter.range cfg).2

instance (parameter : Parameter) (cfg : Config) (n : Nat) : Decidable (parameter.Allows cfg n) :=
  inferInstanceAs (Decidable (_ ∧ _))

/-- The setter of a parameter. -/
def set (cfg : Config) (v : UInt32) : Parameter → Option Config
  | .connTimeout => configSetConnTimeout cfg v
  | .ioBufferSize => configSetIoBufferSize cfg v
  | .maxConnections => configSetMaxConnections cfg v

/-- A setter accepts what the document allows, and writes its own parameter. -/
theorem set_eq (parameter : Parameter) (cfg : Config) (v : UInt32) :
    parameter.set cfg v =
      if parameter.Allows cfg v.toNat then some (parameter.write cfg v) else none := by
  have setter {least greatest : UInt32} {changed : Config} :
      (if v < least ∨ greatest < v then none else some changed) =
        if least.toNat ≤ v.toNat ∧ v.toNat ≤ greatest.toNat then some changed else none := by
    split
    · next outside =>
        rw [UInt32.lt_iff_toNat_lt, UInt32.lt_iff_toNat_lt] at outside
        rw [if_neg (by omega)]
    · next inside =>
        rw [UInt32.lt_iff_toNat_lt, UInt32.lt_iff_toNat_lt] at inside
        rw [if_pos (by omega)]
  cases parameter <;> exact setter

theorem configSet_eq (parameter : Parameter) {key : CString}
    (named : ieq key parameter.key = true) (cfg : Config) (v : UInt32) :
    configSet cfg key v = parameter.set cfg v := by
  have other : ∀ name : String, (ascii name).map toLower ≠ (ascii parameter.key).map toLower →
      ¬ieq key name = true := fun name different same => different (lower_eq_of_ieq same named)
  unfold configSet
  cases parameter with
  | connTimeout => exact if_pos named
  | ioBufferSize => rw [if_neg (other _ (by decide))]; exact if_pos named
  | maxConnections => rw [if_neg (other _ (by decide)), if_neg (other _ (by decide))]; rfl

end Parameter

section

variable {parameter : Parameter} {key value : CString} {deps : MgmtDeps}

theorem known_of_named (named : ieq key parameter.key = true) :
    (ieq key "conn_timeout" || ieq key "io_buffer_size" || ieq key "max_connections") = true := by
  cases parameter <;> simp_all [Parameter.key]

theorem cmdSet_of_allows {v : UInt32} (named : ieq key parameter.key = true)
    (parsed : parseU32 value = some v) (allowed : parameter.Allows deps.config v.toNat) :
    cmdSet deps [key, value] =
      ({ deps with config := parameter.write deps.config v },
        [ascii "+OK " ++ key.bytes ++ ascii " = " ++ decimal v.toNat ++ ascii "\n"]) := by
  simp only [cmdSet, known_of_named named, if_true, parsed, parameter.configSet_eq named,
    Parameter.set_eq, if_pos allowed]

theorem cmdSet_of_not_allows (named : ieq key parameter.key = true)
    (refused : ∀ v, parseU32 value = some v → ¬parameter.Allows deps.config v.toNat) :
    cmdSet deps [key, value] = (deps, [ascii "-ERR invalid value\n"]) := by
  simp only [cmdSet, known_of_named named, if_true]
  split
  · rfl
  · next v parsed =>
      simp only [parameter.configSet_eq named, Parameter.set_eq, if_neg (refused v parsed)]

end

theorem mgmtHandleLine_set {session : MgmtSession} {deps : MgmtDeps} {line cmd key value : CString}
    (trusted : session.authenticated = true) (word : ieq cmd "SET" = true)
    (words : mgmtTokenize 5 line = [cmd, key, value]) :
    mgmtHandleLine session deps line =
      ⟨false, session, (cmdSet deps [key, value]).1, (cmdSet deps [key, value]).2⟩ := by
  have other := ieq_eq_false word
  simp [mgmtHandleLine, words, mgmtCommand, trusted, word, other "QUIT" (by decide),
    other "HELP" (by decide), other "AUTH" (by decide), other "METRICS" (by decide),
    other "LIST-USERS" (by decide), other "ADD-USER" (by decide), other "DEL-USER" (by decide),
    other "GET-CONFIG" (by decide)]

/-- `strtoul` takes a sign: a number that no document allows is accepted, and even a negative one
that comes to a positive number modulo `2 ^ 64`. -/
theorem set_accepts_signs :
    let session : MgmtSession := ⟨true⟩
    let deps := mgmtDepsInit defaultArgs ⟨true, []⟩
    (Line.classify (ascii "SET conn_timeout +90") =
        .ready ⟨ascii "SET conn_timeout +90", by decide⟩ ∧
      mgmtTokenize 5 ⟨ascii "SET conn_timeout +90", by decide⟩ =
        [⟨ascii "SET", by decide⟩, ⟨ascii "conn_timeout", by decide⟩, ⟨ascii "+90", by decide⟩] ∧
      (¬∃ n, Denotes (ascii "+90") n) ∧ parseU32 ⟨ascii "+90", by decide⟩ = some 90 ∧
      (mgmtHandleLine session deps ⟨ascii "SET conn_timeout +90", by decide⟩).printed =
        [ascii "+OK conn_timeout = 90\n"] ∧
      (mgmtHandleLine session deps
        ⟨ascii "SET conn_timeout +90", by decide⟩).deps.config.connTimeout = 90) ∧
    (¬∃ n, Denotes (ascii "-18446744073709551526") n) ∧
      parseU32 ⟨ascii "-18446744073709551526", by decide⟩ = some 90 := by
  have signed {s : List UInt8} (c : UInt8) (member : c ∈ s) (sign : isDigit c = false) :
      ¬∃ n, Denotes s n := by
    rintro ⟨n, -, digits, -⟩
    rw [digits c member] at sign
    cases sign
  refine ⟨⟨rfl, rfl, signed 0x2B (by decide) rfl, rfl, rfl, rfl⟩, ?_, rfl⟩
  exact signed 0x2D (by decide) rfl

/-- The word `s` of the line `text` is taken for a number exactly if it consists of digits and fits
into 32 bits, as the number it denotes; and a parameter is set exactly to a number in its range,
anything else being an invalid value that changes nothing. -/
structure ReadAsNumber (text s : CString) : Prop where
  value : ∀ v, parseU32 s = some v ↔ Denotes s.bytes v.toNat
  accepted : (parseU32 s).isSome = true ↔ ∃ n, Denotes s.bytes n
  set : ∀ (session : MgmtSession) (deps : MgmtDeps) (cmd key : CString) (parameter : Parameter),
    session.authenticated = true → mgmtTokenize 5 text = [cmd, key, s] →
    ieq cmd "SET" = true → ieq key parameter.key = true →
    let r := mgmtHandleLine session deps text
    (ascii "+OK" <+: r.printed.flatten ↔
      ∃ n, Denotes s.bytes n ∧ parameter.Allows deps.config n) ∧
    (∀ v : UInt32, Denotes s.bytes v.toNat → parameter.Allows deps.config v.toNat →
      r.deps = { deps with config := parameter.write deps.config v }) ∧
    ((¬∃ n, Denotes s.bytes n ∧ parameter.Allows deps.config n) →
      r.printed = [ascii "-ERR invalid value\n"] ∧ r.deps = deps)

theorem readAsNumber_of_value {text s : CString}
    (parses : ∀ v, parseU32 s = some v ↔ Denotes s.bytes v.toNat) : ReadAsNumber text s := by
  refine ⟨parses, ?_, ?_⟩
  · rw [Option.isSome_iff_exists]
    constructor
    · rintro ⟨v, parsed⟩
      exact ⟨v.toNat, (parses v).mp parsed⟩
    · rintro ⟨n, denotes⟩
      exact ⟨_, denotes.parsed⟩
  · intro session deps cmd key parameter trusted words set named r
    have handled : r = _ := mgmtHandleLine_set trusted set words
    by_cases valid : ∃ n, Denotes s.bytes n ∧ parameter.Allows deps.config n
    · rcases valid with ⟨n, denotes, allowed⟩
      have parsed := denotes.parsed
      have value : (UInt32.ofNat n).toNat = n := UInt32.toNat_ofNat_of_lt' denotes.2.2.2
      rw [cmdSet_of_allows named parsed (value.symm ▸ allowed)] at handled
      refine ⟨⟨fun _ => ⟨n, denotes, allowed⟩, fun _ => ?_⟩, fun v same _ => ?_, fun invalid => ?_⟩
      · have short : ascii "+OK" <+: ascii "+OK " := ⟨ascii " ", by decide⟩
        rw [handled, List.flatten_singleton]
        simp only [List.append_assoc]
        exact short.trans (List.prefix_append _ _)
      · rw [handled, Option.some.inj (parsed.symm.trans ((parses v).mpr same))]
      · exact absurd ⟨n, denotes, allowed⟩ invalid
    · rw [cmdSet_of_not_allows named fun v parsed allowed =>
        valid ⟨v.toNat, (parses v).mp parsed, allowed⟩] at handled
      refine ⟨⟨fun success => ?_, fun some => absurd some valid⟩, fun v denotes allowed => ?_,
        fun _ => ?_⟩
      · have error : ¬ascii "+OK" <+: [ascii "-ERR invalid value\n"].flatten := by decide
        rw [handled] at success
        exact absurd success error
      · exact absurd ⟨_, denotes, allowed⟩ valid
      · rw [handled]
        exact ⟨rfl, rfl⟩

/-- Numeric arguments are numbers exactly if they are not disguised. -/
theorem numeric_arguments_are_numbers {content : List UInt8} {text s : CString}
    (ready : Line.classify content = .ready text) (token : s ∈ mgmtTokenize 5 text) :
    ReadAsNumber text s ↔ ¬Disguised s.bytes := by
  constructor
  · intro number disguised
    rcases disguised.parsed with ⟨v, parsed⟩
    exact disguised.not_denotes _ ((number.value v).mp parsed)
  · intro plain
    exact readAsNumber_of_value (parseU32_iff_denotes ready token plain)

/-- The time of inactivity is set to half an hour, but not to a negative number. -/
theorem numeric_arguments_are_numbers_for_timeout :
    let valid : CString := ⟨ascii "SET conn_timeout 1800", by decide⟩
    let negative : CString := ⟨ascii "SET conn_timeout -5", by decide⟩
    let deps := mgmtDepsInit defaultArgs ⟨true, []⟩
    ascii "+OK" <+: (mgmtHandleLine ⟨true⟩ deps valid).printed.flatten ∧
      (mgmtHandleLine ⟨true⟩ deps negative).printed = [ascii "-ERR invalid value\n"] := by
  intro valid negative deps
  have words : mgmtTokenize 5 valid = [⟨ascii "SET", by decide⟩, ⟨ascii "conn_timeout", by decide⟩,
      ⟨ascii "1800", by decide⟩] := rfl
  have words' : mgmtTokenize 5 negative = [⟨ascii "SET", by decide⟩,
      ⟨ascii "conn_timeout", by decide⟩, ⟨ascii "-5", by decide⟩] := rfl
  have denotes : Denotes (ascii "1800") 1800 :=
    ⟨by decide, List.all_eq_true.mp (by decide), by decide, by decide⟩
  have plain : ¬Disguised (ascii "-5") := by
    intro disguised
    rcases disguised.parsed (s := ⟨ascii "-5", by decide⟩) with ⟨v, parsed⟩
    cases parsed
  have read := (numeric_arguments_are_numbers
    (show Line.classify (ascii "SET conn_timeout 1800") = .ready valid from rfl)
    (s := ⟨ascii "1800", by decide⟩) (by rw [words]; simp)).mpr
    fun disguised => disguised.not_denotes _ denotes
  have refused := (numeric_arguments_are_numbers
    (show Line.classify (ascii "SET conn_timeout -5") = .ready negative from rfl)
    (s := ⟨ascii "-5", by decide⟩) (by rw [words']; simp)).mpr plain
  refine ⟨(read.set ⟨true⟩ deps _ _ .connTimeout rfl words rfl rfl).1.mpr
    ⟨1800, denotes, by decide⟩, ?_⟩
  refine ((refused.set ⟨true⟩ deps _ _ .connTimeout rfl words' rfl rfl).2.2 ?_).1
  rintro ⟨n, ⟨-, digits, -⟩, -⟩
  exact absurd (digits 0x2D (by decide)) (by decide)

/-! ## The configuration stays in range -/

/-- Every parameter has a value that the document allows. -/
def Config.InRange (cfg : Config) : Prop :=
  ∀ parameter : Parameter, parameter.Allows cfg (parameter.read cfg).toNat

/-- Something that may change the configuration: a setter is called, or a session has a line
handled while everything else is as `deps` says. -/
inductive Adjustment where
  | call (parameter : Parameter) (v : UInt32)
  | line (session : MgmtSession) (deps : MgmtDeps) (text : CString)

/-- What becomes of the configuration. -/
def Adjustment.apply (cfg : Config) : Adjustment → Config
  | .call parameter v => (parameter.set cfg v).getD cfg
  | .line session deps text =>
      (mgmtHandleLine session { deps with config := cfg } text).deps.config

/-- The configuration is left alone, or a setter has accepted a value. -/
inductive Config.Adjusts (cfg : Config) : Config → Prop where
  | same : Config.Adjusts cfg cfg
  | set {cfg' : Config} (parameter : Parameter) (v : UInt32)
      (accepted : parameter.set cfg v = some cfg') : Config.Adjusts cfg cfg'

section

variable {cfg cfg' : Config}

/-- Of all commands only `SET` reaches the configuration, and only through a setter. -/
theorem adjusts_cmdSet (deps : MgmtDeps) (args : List CString) :
    deps.config.Adjusts (cmdSet deps args).1.config := by
  unfold cmdSet
  split
  · split
    · next known =>
        split
        · exact .same
        · next v _ =>
            split
            · next config accepted =>
                rw [Bool.or_eq_true, Bool.or_eq_true] at known
                rcases known with (named | named) | named
                · exact .set .connTimeout v (Parameter.connTimeout.configSet_eq named _ _ ▸
                    accepted)
                · exact .set .ioBufferSize v (Parameter.ioBufferSize.configSet_eq named _ _ ▸
                    accepted)
                · exact .set .maxConnections v (Parameter.maxConnections.configSet_eq named _ _ ▸
                    accepted)
            · exact .same
    · exact .same
  · exact .same

theorem adjusts_mgmtCommand (deps : MgmtDeps) (cmd : CString) (args : List CString) :
    deps.config.Adjusts (mgmtCommand deps cmd args).1.config := by
  have addUser : (cmdAddUser deps args).1.config = deps.config := by
    unfold cmdAddUser
    repeat' split
    all_goals rfl
  have delUser : (cmdDelUser deps args).1.config = deps.config := by
    unfold cmdDelUser
    repeat' split
    all_goals rfl
  have passwd : (cmdPasswd deps args).1.config = deps.config := by
    unfold cmdPasswd
    repeat' split
    all_goals rfl
  unfold mgmtCommand
  split
  · exact .same
  split
  · exact .same
  split
  · exact .same
  split
  · exact addUser ▸ .same
  split
  · exact delUser ▸ .same
  split
  · exact .same
  split
  · exact adjusts_cmdSet deps args
  split
  · exact .same
  split
  · exact passwd ▸ .same
  · exact .same

theorem adjusts_mgmtHandleLine (session : MgmtSession) (deps : MgmtDeps) (line : CString) :
    deps.config.Adjusts (mgmtHandleLine session deps line).deps.config := by
  unfold mgmtHandleLine
  split
  · exact .same
  · split
    · exact .same
    split
    · exact .same
    split
    · exact .same
    split
    · exact .same
    split
    · exact .same
    · exact adjusts_mgmtCommand deps _ _

theorem Adjustment.adjusts (adjustment : Adjustment) : cfg.Adjusts (adjustment.apply cfg) := by
  cases adjustment with
  | line session deps text => exact adjusts_mgmtHandleLine session { deps with config := cfg } text
  | call parameter v =>
      simp only [Adjustment.apply]
      cases accepted : parameter.set cfg v with
      | none => exact .same
      | some changed => exact .set parameter v accepted

theorem Parameter.hard_write (parameter : Parameter) (cfg : Config) (v : UInt32) :
    (parameter.write cfg v).maxConnectionsHard = cfg.maxConnectionsHard := by
  cases parameter <;> rfl

theorem Config.Adjusts.hard (adjusts : cfg.Adjusts cfg') :
    cfg'.maxConnectionsHard = cfg.maxConnectionsHard := by
  cases adjusts with
  | same => rfl
  | set parameter v accepted =>
      rw [Parameter.set_eq] at accepted
      split at accepted
      · cases accepted
        exact parameter.hard_write cfg v
      · cases accepted

theorem Parameter.allows_congr (same : cfg'.maxConnectionsHard = cfg.maxConnectionsHard)
    (parameter : Parameter) (n : Nat) : parameter.Allows cfg' n ↔ parameter.Allows cfg n := by
  cases parameter with
  | connTimeout | ioBufferSize => exact Iff.rfl
  | maxConnections => rw [Allows, Allows, range, range, same]

theorem Config.Adjusts.inRange (adjusts : cfg.Adjusts cfg') (inRange : cfg.InRange) :
    cfg'.InRange := by
  intro asked
  rw [Parameter.allows_congr adjusts.hard]
  cases adjusts with
  | same => exact inRange asked
  | set parameter v accepted =>
      rw [Parameter.set_eq] at accepted
      split at accepted
      · next allowed =>
          cases accepted
          rw [Parameter.read_write]
          split
          · next written => exact written ▸ allowed
          · exact inRange asked
      · cases accepted

/-- Whatever happens to a configuration, it stays in range and keeps its limit. -/
theorem inRange_foldl_apply (inRange : cfg.InRange) (adjustments : List Adjustment) :
    (adjustments.foldl Adjustment.apply cfg).InRange ∧
      (adjustments.foldl Adjustment.apply cfg).maxConnectionsHard = cfg.maxConnectionsHard := by
  induction adjustments generalizing cfg with
  | nil => exact ⟨inRange, rfl⟩
  | cons adjustment adjustments ih =>
      have adjusts : cfg.Adjusts (adjustment.apply cfg) := adjustment.adjusts
      rcases ih (adjusts.inRange inRange) with ⟨later, hard⟩
      exact ⟨later, hard.trans adjusts.hard⟩

end

theorem toNat_maxConnectionsForSelector (capacity : UInt32) :
    (maxConnectionsForSelector capacity).toNat =
      if capacity.toNat ≤ 24 then 1 else (capacity.toNat - 24) / 2 := by
  have reserve : capacity ≤ CONFIG_SELECTOR_FD_RESERVE ↔ capacity.toNat ≤ 24 :=
    UInt32.le_iff_toNat_le
  unfold maxConnectionsForSelector
  by_cases small : capacity ≤ CONFIG_SELECTOR_FD_RESERVE
  · rw [if_pos small, if_pos (reserve.mp small)]
    rfl
  · have large := mt reserve.mpr small
    have enough : CONFIG_SELECTOR_FD_RESERVE ≤ capacity :=
      UInt32.le_iff_toNat_le.mpr (Nat.le_of_lt (Nat.lt_of_not_le large))
    rw [if_neg small, if_neg large, UInt32.toNat_div, UInt32.toNat_sub_of_le _ _ enough]
    rfl

/-- A configuration starts in range, unless the selector has room for half a connection. -/
theorem inRange_configInit {capacity : UInt32} (room : capacity ≠ 25) :
    (configInit capacity).InRange := by
  have other : capacity.toNat ≠ 25 := fun same => room (UInt32.toNat_inj.mp same)
  have limit := toNat_maxConnectionsForSelector capacity
  intro parameter
  cases parameter with
  | connTimeout =>
      have default : 1 ≤ CONFIG_CONN_TIMEOUT_DEFAULT.toNat ∧
          CONFIG_CONN_TIMEOUT_DEFAULT.toNat ≤ 3600 := by decide
      exact default
  | ioBufferSize =>
      have default : 512 ≤ CONFIG_IO_BUFFER_SIZE_DEFAULT.toNat ∧
          CONFIG_IO_BUFFER_SIZE_DEFAULT.toNat ≤ 65536 := by decide
      exact default
  | maxConnections =>
      refine ⟨?_, Nat.le_refl _⟩
      simp only [Parameter.range, Parameter.read, configInit]
      rw [limit]
      split <;> omega

/-- With one descriptor above the reserve the limit is zero, and no value is accepted. -/
theorem no_connections_at_reserve :
    (configInit 25).maxConnections = 0 ∧ (configInit 25).maxConnectionsHard = 0 ∧
      ¬(configInit 25).InRange ∧ ∀ v, configSetMaxConnections (configInit 25) v = none := by
  have zero : (configInit 25).maxConnectionsHard = 0 := by decide
  refine ⟨by decide, zero, fun inRange => ?_, fun v => ?_⟩
  · exact absurd (inRange .maxConnections) (by decide)
  · have refused : ¬Parameter.maxConnections.Allows (configInit 25) v.toNat := by
      rintro ⟨least, greatest⟩
      simp only [Parameter.range, zero] at least greatest
      exact absurd (Nat.le_trans least greatest) (by decide)
    exact (Parameter.maxConnections.set_eq _ v).trans (if_neg refused)

/-- The configuration stays in its ranges. Whatever the capacity of the selector, unless it exceeds
the reserve by one descriptor, and whatever setters are called and lines are handled later, every
parameter is in the range of the document; the limit never changes and leaves room for two
descriptors for each connection; and the number of connections that is set can be set again. -/
theorem configuration_stays_in_range (capacity : UInt32) (room : capacity ≠ 25)
    (adjustments : List Adjustment) :
    let cfg := adjustments.foldl Adjustment.apply (configInit capacity)
    (1 ≤ cfg.connTimeout.toNat ∧ cfg.connTimeout.toNat ≤ 3600) ∧
    (512 ≤ cfg.ioBufferSize.toNat ∧ cfg.ioBufferSize.toNat ≤ 65536) ∧
    (1 ≤ cfg.maxConnections.toNat ∧ cfg.maxConnections.toNat ≤ cfg.maxConnectionsHard.toNat) ∧
    cfg.maxConnectionsHard = (configInit capacity).maxConnectionsHard ∧
    (24 + 2 ≤ capacity.toNat → 2 * cfg.maxConnectionsHard.toNat + 24 ≤ capacity.toNat) ∧
    configSetMaxConnections cfg cfg.maxConnections = some cfg := by
  intro cfg
  rcases inRange_foldl_apply (inRange_configInit room) adjustments with ⟨inRange, hard⟩
  have limit := toNat_maxConnectionsForSelector capacity
  refine ⟨inRange .connTimeout, inRange .ioBufferSize, inRange .maxConnections, hard, ?_, ?_⟩
  · intro tunnel
    have same : cfg.maxConnectionsHard = maxConnectionsForSelector capacity := hard
    rw [same, limit, if_neg (by omega)]
    omega
  · exact (Parameter.maxConnections.set_eq cfg cfg.maxConnections).trans
      (if_pos (inRange .maxConnections))

/-- The configuration of the server after a line that lowers the number of connections. -/
theorem configuration_stays_in_range_when_lowered :
    let cfg := Adjustment.apply (configInit 1024)
      (.line ⟨true⟩ (mgmtDepsInit defaultArgs ⟨true, []⟩)
        ⟨ascii "SET max_connections 7", by decide⟩)
    cfg.maxConnections = 7 ∧ 2 * cfg.maxConnectionsHard.toNat + 24 ≤ 1024 := by
  intro cfg
  have kept := configuration_stays_in_range 1024 (by decide)
    [.line ⟨true⟩ (mgmtDepsInit defaultArgs ⟨true, []⟩) ⟨ascii "SET max_connections 7", by decide⟩]
  exact ⟨by decide, kept.2.2.2.2.1 (by decide)⟩

end SocksProxy
