import SocksProxy.Server.Socks5

/-!
# Records of the access log

What `socks5_log_access` writes for a client, who chooses the user name and the
destination. No client can break the line: whatever it sends, the record is one
line of printable text. A domain is copied with its spaces, though, so splitting
the line at spaces gives back the fields only for a domain that has none.
-/

namespace SocksProxy

/-- Every byte is printable and not a space. -/
def Visible (bytes : List UInt8) : Prop := ∀ c ∈ bytes, 0x21 ≤ c ∧ c ≤ 0x7e

instance (bytes : List UInt8) : Decidable (Visible bytes) :=
  List.decidableBAll _ bytes

theorem Visible.append {front back : List UInt8} (first : Visible front) (second : Visible back) :
    Visible (front ++ back) := by
  intro c member
  exact (List.mem_append.mp member).elim (first c) (second c)

theorem Visible.flatten {texts : List (List UInt8)} (visible : ∀ text ∈ texts, Visible text) :
    Visible texts.flatten := by
  intro c member
  rcases List.mem_flatten.mp member with ⟨text, among, inside⟩
  exact visible text among c inside

/-- What holds of all bytes of some texts and of a separator holds of the joined text. -/
theorem forall_mem_intercalate {holds : UInt8 → Prop} {separator : List UInt8}
    {texts : List (List UInt8)} (between : ∀ c ∈ separator, holds c)
    (inside : ∀ text ∈ texts, ∀ c ∈ text, holds c) :
    ∀ c ∈ separator.intercalate texts, holds c := by
  induction texts with
  | nil => exact fun _ member => nomatch member
  | cons text rest ih =>
      rw [List.forall_mem_cons] at inside
      cases rest with
      | nil => simpa using inside.1
      | cons next later =>
          intro c member
          rw [List.intercalate_cons_cons, List.mem_append, List.mem_append] at member
          rcases member with (member | member) | member
          · exact inside.1 c member
          · exact between c member
          · exact ih inside.2 c member

theorem Visible.printable {bytes : List UInt8} (visible : Visible bytes) : Printable bytes :=
  fun c member => ⟨UInt8.le_trans (by decide) (visible c member).1, (visible c member).2⟩

theorem Visible.spaceless {bytes : List UInt8} (visible : Visible bytes) : 0x20 ∉ bytes :=
  fun member => absurd (visible 0x20 member).1 (by decide)

/-! ## Numbers and addresses -/

theorem visible_decimal (n : Nat) : Visible (decimal n) := by
  intro c member
  have digit := isDigit_of_mem_decimal member
  simp only [isDigit, Bool.and_eq_true, decide_eq_true_eq] at digit
  exact ⟨UInt8.le_trans (by decide) digit.1, UInt8.le_trans digit.2 (by decide)⟩

theorem visible_decimal2 (n : Nat) : Visible (decimal2 n) := by
  unfold decimal2
  split
  · exact (show Visible (ascii "0") by decide).append (visible_decimal n)
  · exact visible_decimal n

theorem visible_digit16 {d : Nat} (small : d < 16) :
    Visible [UInt8.ofNat d.digitChar.toNat] := by
  have all : ∀ d < 16, Visible [UInt8.ofNat d.digitChar.toNat] := by decide
  exact all d small

theorem visible_hexadecimal (n : Nat) : Visible (hexadecimal n) := by
  induction n using Nat.strong_induction_on with
  | _ n ih =>
      rw [hexadecimal, Nat.toDigits_eq_if (by decide)]
      split
      · next small => exact visible_digit16 small
      · next large =>
          rw [List.map_append]
          refine (ih (n / 16) (by omega)).append ?_
          exact visible_digit16 (Nat.mod_lt n (by decide))

theorem visible_inetNtop4 (addr : List UInt8) : Visible (inetNtop4 addr) := by
  have dot : Visible (ascii ".") := by decide
  refine forall_mem_intercalate dot fun text member => ?_
  rcases List.mem_map.mp member with ⟨byte, -, rfl⟩
  exact visible_decimal _

example : inetNtop4 [127, 0, 0, 1] = ascii "127.0.0.1" := by decide

theorem visible_word6Text (words : List Nat) (best : Option (Nat × Nat)) (i : Nat) :
    Visible (word6Text words best i) := by
  have colon : ∀ p : Prop, [Decidable p] → Visible (if p then ascii ":" else []) := by
    intro p _
    split <;> decide
  unfold word6Text
  split
  · split
    · exact colon _
    · exact (colon _).append (visible_hexadecimal _)
  · exact (colon _).append (visible_hexadecimal _)

theorem visible_inetNtop6 (addr : List UInt8) : Visible (inetNtop6 addr) := by
  have words : ∀ (best : Option (Nat × Nat)) (n : Nat),
      Visible ((List.range n).map (word6Text (words6 addr) best)).flatten := by
    intro best n
    refine Visible.flatten fun text member => ?_
    rcases List.mem_map.mp member with ⟨i, -, rfl⟩
    exact visible_word6Text _ _ i
  unfold inetNtop6
  dsimp only
  generalize bestRun (words6 addr) = best
  split
  · exact ((words best 6).append (by decide)).append (visible_inetNtop4 _)
  · refine (words best 8).append ?_
    split
    · split <;> decide
    · decide

example : inetNtop6 [0x20, 1, 0xd, 0xb8, 0, 0, 0, 0, 0, 0, 0, 0, 0, 0, 0, 1] =
    ascii "2001:db8::1" := by decide

/-! ## Fields of a record -/

theorem visible_timestamp (tm : CalendarTime) : Visible (timestamp tm) := by
  have dash : Visible (ascii "-") := by decide
  have colon : Visible (ascii ":") := by decide
  have t : Visible (ascii "T") := by decide
  have z : Visible (ascii "Z") := by decide
  unfold timestamp
  exact ((((((((((visible_decimal _).append dash).append (visible_decimal2 _)).append dash).append
    (visible_decimal2 _)).append t).append (visible_decimal2 _)).append colon).append
    (visible_decimal2 _)).append colon).append (visible_decimal2 _) |>.append z

theorem visible_resultToken (rep : UInt8) : Visible (resultToken rep) := by
  unfold resultToken
  repeat' split
  all_goals decide

theorem visible_loggedUser (method : UInt8) (auth : Socks5Auth) :
    Visible (loggedUser method auth) := by
  unfold loggedUser
  split
  · intro c member
    rcases List.mem_map.mp member with ⟨byte, -, rfl⟩
    split
    · next graphic =>
        have above := UInt8.lt_iff_toNat_lt.mp graphic.1
        have below := UInt8.lt_iff_toNat_lt.mp graphic.2
        simp only [UInt8.le_iff_toNat_le]
        exact ⟨above, Nat.le_of_lt_succ below⟩
    · decide
  · decide

theorem printable_sanitizeDomain (cap : Nat) (src : List UInt8) :
    Printable (sanitizeDomain cap src) := by
  intro c member
  rcases List.mem_map.mp member with ⟨byte, -, rfl⟩
  split
  · next printable =>
      have below := UInt8.lt_iff_toNat_lt.mp printable.2
      exact ⟨printable.1, UInt8.le_iff_toNat_le.mpr (Nat.le_of_lt_succ below)⟩
  · decide

theorem space_mem_sanitizeDomain {cap : Nat} {src : List UInt8} (fits : src.length < cap)
    (space : 0x20 ∈ src) : 0x20 ∈ sanitizeDomain cap src := by
  rw [sanitizeDomain, List.take_of_length_le (by omega)]
  exact List.mem_map.mpr ⟨0x20, space, if_pos (by decide)⟩

theorem visible_sanitizeDomain (cap : Nat) {src : List UInt8} (spaceless : 0x20 ∉ src) :
    Visible (sanitizeDomain cap src) := by
  intro c member
  refine ⟨?_, (printable_sanitizeDomain cap src c member).2⟩
  have least := UInt8.le_iff_toNat_le.mp (printable_sanitizeDomain cap src c member).1
  have other : c ≠ 0x20 := by
    rcases List.mem_map.mp member with ⟨byte, taken, rfl⟩
    split
    · rintro rfl
      exact spaceless (List.mem_of_mem_take taken)
    · decide
  have apart : c.toNat ≠ 0x20 := fun same => other (UInt8.toNat_inj.mp same)
  exact UInt8.le_iff_toNat_le.mpr (Nat.lt_of_le_of_ne least (Ne.symm apart))

theorem visible_port (port : UInt16) : Visible (ascii ":" ++ decimal port.toNat) :=
  (show Visible (ascii ":") by decide).append (visible_decimal _)

theorem visible_formatRequestDst {r : Socks5Request}
    (spaceless : r.atyp = SOCKS5_ATYP_DOMAIN → 0x20 ∉ r.address) :
    Visible (formatRequestDst r) := by
  unfold formatRequestDst
  extract_lets host
  rw [List.append_assoc]
  refine Visible.append ?_ (visible_port _)
  subst host
  split
  · next domain => exact visible_sanitizeDomain _ (spaceless domain)
  · split
    · exact visible_inetNtop6 _
    · exact visible_inetNtop4 _

/-- Nothing but a space in a domain puts a space into the destination. -/
theorem spaceless_formatRequestDst_iff (r : Socks5Request) :
    0x20 ∉ formatRequestDst r ↔ (r.atyp = SOCKS5_ATYP_DOMAIN → 0x20 ∉ r.address) := by
  refine ⟨fun spaceless domain space => spaceless ?_,
    fun spaceless => (visible_formatRequestDst spaceless).spaceless⟩
  have fits : r.address.length < 256 := by
    rw [Socks5Request.address, ByteTable.length_take]
    exact r.addrLen.toNat_lt
  unfold formatRequestDst
  rw [if_pos domain, List.append_assoc]
  exact List.mem_append_left _ (space_mem_sanitizeDomain fits space)

theorem printable_formatRequestDst (r : Socks5Request) : Printable (formatRequestDst r) := by
  by_cases domain : r.atyp = SOCKS5_ATYP_DOMAIN
  · unfold formatRequestDst
    rw [if_pos domain, List.append_assoc]
    exact (printable_sanitizeDomain _ _).append (visible_port _).printable
  · exact (visible_formatRequestDst fun same => absurd same domain).printable

/-! ## The line -/

/-- What a record tells: when, who, what, where to, and how it went. -/
def recordFields (tm : CalendarTime) (user dest result : List UInt8) : List (List UInt8) :=
  [timestamp tm, user, ascii "CONNECT", dest, result]

/-- The text of a record, without the line feed. -/
def recordText (tm : CalendarTime) (user dest result : List UInt8) : List UInt8 :=
  [0x20].intercalate (recordFields tm user dest result)

theorem accessLogLine_eq (tm : CalendarTime) (user dest result : List UInt8) :
    accessLogLine tm user dest result = recordText tm user dest result ++ [0x0A] := by
  have space : ascii " " = [0x20] := by decide
  have verb : ascii " CONNECT " = [0x20] ++ ascii "CONNECT" ++ [0x20] := by decide
  have feed : ascii "\n" = [0x0A] := by decide
  simp only [accessLogLine, recordText, recordFields, List.intercalate_cons_cons,
    List.intercalate_singleton, space, verb, feed]
  simp only [List.append_assoc]

theorem printable_recordText (tm : CalendarTime) {user dest result : List UInt8}
    (who : Printable user) (target : Printable dest) (outcome : Printable result) :
    Printable (recordText tm user dest result) := by
  have space : Printable [0x20] := by decide
  have verb : Printable (ascii "CONNECT") := by decide
  refine forall_mem_intercalate space ?_
  simp only [recordFields, List.forall_mem_cons]
  exact ⟨(visible_timestamp tm).printable, who, verb, target, outcome, by simp⟩

theorem length_splitOn (separator : UInt8) (text : List UInt8) :
    (text.splitOn separator).length = text.count separator + 1 := by
  induction text with
  | nil => rfl
  | cons c text ih =>
      rw [List.splitOn, List.splitOnP_cons_eq_if_modifyHead, List.count_cons]
      split
      · rw [List.length_cons]
        exact congrArg Nat.succ ih
      · rw [List.length_modifyHead]
        exact ih

/-- Splitting a record at its spaces gives a field more for every space in the destination. -/
theorem length_splitOn_recordText (tm : CalendarTime) {user dest result : List UInt8}
    (who : Visible user) (outcome : Visible result) :
    ((recordText tm user dest result).splitOn 0x20).length = 5 + dest.count 0x20 := by
  have verb : (ascii "CONNECT").count 0x20 = 0 := by decide
  have time := List.count_eq_zero.mpr (visible_timestamp tm).spaceless
  have name := List.count_eq_zero.mpr who.spaceless
  have token := List.count_eq_zero.mpr outcome.spaceless
  simp only [length_splitOn, recordText, recordFields, List.intercalate_cons_cons,
    List.intercalate_singleton, List.count_append, List.count_singleton_self, time, name, verb,
    token]
  omega

/-- Fields without spaces are recovered by splitting the text at its spaces; with a space in the
destination there are too many of them. -/
theorem splitOn_recordText_iff (tm : CalendarTime) {user dest result : List UInt8}
    (who : Visible user) (outcome : Visible result) :
    (recordText tm user dest result).splitOn 0x20 = recordFields tm user dest result ↔
      0x20 ∉ dest := by
  constructor
  · intro fields
    have length := @length_splitOn_recordText tm user dest result who outcome
    rw [fields] at length
    exact List.count_eq_zero.mp (Nat.add_left_cancel length).symm
  · intro target
    have verb : Visible (ascii "CONNECT") := by decide
    refine List.splitOn_intercalate 0x20 ?_ (by simp [recordFields])
    simp only [recordFields, List.forall_mem_cons]
    exact ⟨(visible_timestamp tm).spaceless, who.spaceless, verb.spaceless, target,
      outcome.spaceless, by simp⟩

end SocksProxy
