import Mathlib.Data.List.DropRight
import SocksProxy.Shared.Text

/-!
# The access log

`access_log.c`: one text line per CONNECT, appended to a file, and the tail the
SMCP command `LOG` prints. The file is its bytes; `fgets` splits it.
-/

namespace SocksProxy

def ACCESS_LOG_LINE_MAX : Nat := 1024

/-- `struct tm`, as far as the record's time stamp uses it. -/
structure CalendarTime where
  year : Nat
  month : Nat
  day : Nat
  hour : Nat
  minute : Nat
  second : Nat
  deriving DecidableEq, Repr

/-- `strftime` with the format `%Y-%m-%dT%H:%M:%SZ`. -/
def timestamp (tm : CalendarTime) : List UInt8 :=
  decimal tm.year ++ ascii "-" ++ decimal2 tm.month ++ ascii "-" ++ decimal2 tm.day ++ ascii "T" ++
    decimal2 tm.hour ++ ascii ":" ++ decimal2 tm.minute ++ ascii ":" ++ decimal2 tm.second ++
    ascii "Z"

/-- `struct AccessLog`: whether the append handle is open, and the file behind `path`. -/
structure AccessLog where
  isOpen : Bool
  file : List UInt8

/-- The line `access_log_record` prints. -/
def accessLogLine (tm : CalendarTime) (user dest result : List UInt8) : List UInt8 :=
  timestamp tm ++ ascii " " ++ user ++ ascii " CONNECT " ++ dest ++ ascii " " ++ result ++
    ascii "\n"

/-- `access_log_record`. -/
def accessLogRecord (l : AccessLog) (tm : CalendarTime) (user dest result : List UInt8) :
    AccessLog :=
  if l.isOpen then { l with file := l.file ++ accessLogLine tm user dest result } else l

/-- The bytes one `fgets` takes from the rest of a file, with room for `room` bytes: up to and
including the first line feed, and at most `room`. -/
def fgetsTake : Nat → List UInt8 → List UInt8
  | 0, _ => []
  | _ + 1, [] => []
  | room + 1, byte :: rest => if byte = 0x0A then [byte] else byte :: fgetsTake room rest

theorem length_fgetsTake_le (room : Nat) (rest : List UInt8) :
    (fgetsTake room rest).length ≤ room := by
  induction room generalizing rest with
  | zero => simp [fgetsTake]
  | succ room ih =>
      cases rest with
      | nil => simp [fgetsTake]
      | cons byte more =>
          have := ih more
          simp only [fgetsTake]
          split
          · simp
          · simp only [List.length_cons]
            omega

/-- `fgets` with an `ACCESS_LOG_LINE_MAX` buffer: what it stores and the rest of the file, or `NULL`
at the end of the file. -/
def fgets (file : List UInt8) : Option (List UInt8 × List UInt8) :=
  let line := fgetsTake (ACCESS_LOG_LINE_MAX - 1) file
  if line = [] then none else some (line, file.drop line.length)

/-- A `char` buffer read as a C string. -/
def cText (bytes : List UInt8) : List UInt8 := bytes.takeWhile fun byte => byte != 0

/-- `strip_newline`. -/
def stripNewline (line : List UInt8) : List UInt8 :=
  ((cText line).reverse.dropWhile fun byte => byte == 0x0A || byte == 0x0D).reverse

/-! ## The tail -/

/-- The loop of the first pass. Every call of `fgets` takes at least one byte, so as many rounds as
there are bytes suffice. -/
def countLines : Nat → List UInt8 → Nat → Nat
  | 0, _, total => total
  | rounds + 1, file, total =>
      match fgets file with
      | none => total
      | some (_, rest) => countLines rounds rest (total + 1)

/-- The loop over the lines that are too old: the rest of the file. -/
def skipLines : Nat → List UInt8 → List UInt8
  | 0, file => file
  | skip + 1, file =>
      match fgets file with
      | none => file
      | some (_, rest) => skipLines skip rest

/-- The loop that fills `lines[i]` and the `left - 1` rows after it; it ends early with the file. It
leaves how many rows are filled. -/
def copyLines {cap : Nat} : (left i : Nat) → i + left ≤ cap → List UInt8 →
    Vector (List UInt8) cap → Nat × Vector (List UInt8) cap
  | 0, i, _, _, lines => (i, lines)
  | left + 1, i, fits, file, lines =>
      match fgets file with
      | none => (i, lines)
      | some (line, rest) =>
          copyLines left (i + 1) (by omega) rest (lines.set i (stripNewline line) (by omega))

/-- The loop that swaps `lines[i]` with its mirror image among the first `avail` rows, and so the
`left - 1` rows after it. -/
def swapLines {cap : Nat} (avail : Nat) (fits : avail ≤ cap) : (left i : Nat) →
    i + left ≤ avail / 2 → Vector (List UInt8) cap → Vector (List UInt8) cap
  | 0, _, _, lines => lines
  | left + 1, i, half, lines =>
      have first : i < cap := by omega
      have last : avail - 1 - i < cap := by omega
      let tmp := lines[i]
      let lines := lines.set i lines[avail - 1 - i]
      swapLines avail fits left (i + 1) (by omega) (lines.set (avail - 1 - i) tmp)

theorem fst_copyLines_le {cap left i : Nat} (fits : i + left ≤ cap) (file : List UInt8)
    (lines : Vector (List UInt8) cap) : (copyLines left i fits file lines).1 ≤ cap := by
  induction left generalizing i file lines with
  | zero => exact fits
  | succ left ih =>
      unfold copyLines
      split
      · exact Nat.le_trans (Nat.le_add_right ..) fits
      · exact ih ..

/-- `access_log_tail`: how many lines are stored, and the array. Whether the file can be opened is
what `fopen` answers. -/
def accessLogTail (l : AccessLog) (opens : Bool) (n : Nat) {cap : Nat}
    (lines : Vector (List UInt8) cap) : Nat × Vector (List UInt8) cap :=
  let want := min n cap
  if want = 0 ∨ l.isOpen = false then (0, lines)
  else if opens = false then (0, lines)
  else
    let total := countLines l.file.length l.file 0
    let avail := min want total
    let skip := total - avail
    let copied := copyLines avail 0 (by omega) (skipLines skip l.file) lines
    (copied.1, swapLines copied.1 (fst_copyLines_le ..) (copied.1 / 2) 0 (by omega) copied.2)

/-- The lines that are stored. -/
def storedLines {cap : Nat} (tail : Nat × Vector (List UInt8) cap) : List (List UInt8) :=
  tail.2.toList.take tail.1

/-! ## What the passes do -/

/-- The results of some calls of `fgets`, one after the other, until the end of the file. -/
def fgetsAll : Nat → List UInt8 → List (List UInt8)
  | 0, _ => []
  | rounds + 1, file =>
      match fgets file with
      | none => []
      | some (line, rest) => line :: fgetsAll rounds rest

section

variable {cap : Nat} {file : List UInt8}

theorem countLines_eq (rounds : Nat) (file : List UInt8) (total : Nat) :
    countLines rounds file total = total + (fgetsAll rounds file).length := by
  induction rounds generalizing file total with
  | zero => rfl
  | succ rounds ih =>
      cases read : fgets file with
      | none => simp [countLines, fgetsAll, read]
      | some taken =>
          simp only [countLines, fgetsAll, read, ih, List.length_cons]
          omega

theorem fgetsAll_add (skip left : Nat) (file : List UInt8) :
    fgetsAll (skip + left) file = fgetsAll skip file ++ fgetsAll left (skipLines skip file) := by
  induction skip generalizing file with
  | zero => simp [fgetsAll, skipLines]
  | succ skip ih =>
      rw [Nat.add_right_comm]
      cases read : fgets file with
      | none => cases left <;> simp [fgetsAll, skipLines, read]
      | some taken => simp [fgetsAll, skipLines, read, ih]

theorem length_fgetsAll_le (rounds : Nat) (file : List UInt8) :
    (fgetsAll rounds file).length ≤ rounds := by
  induction rounds generalizing file with
  | zero => simp [fgetsAll]
  | succ rounds ih =>
      cases read : fgets file with
      | none => simp [fgetsAll, read]
      | some taken => simpa [fgetsAll, read] using ih taken.2

/-- Once a pass has found the end of the file, as many calls as it found lines find them again. -/
theorem fgetsAll_length (rounds : Nat) (file : List UInt8) :
    fgetsAll (fgetsAll rounds file).length file = fgetsAll rounds file := by
  induction rounds generalizing file with
  | zero => rfl
  | succ rounds ih =>
      cases read : fgets file with
      | none => simp [fgetsAll, read]
      | some taken => simp [fgetsAll, read, ih]

theorem fgetsAll_skipLines {rounds skip left : Nat}
    (all : skip + left = (fgetsAll rounds file).length) :
    fgetsAll left (skipLines skip file) = (fgetsAll rounds file).drop skip := by
  have again : fgetsAll skip file ++ fgetsAll left (skipLines skip file) =
      fgetsAll rounds file := by
    rw [← fgetsAll_add, all, fgetsAll_length]
  have older : (fgetsAll skip file).length = skip := by
    have first := length_fgetsAll_le skip file
    have last := length_fgetsAll_le left (skipLines skip file)
    rw [← again, List.length_append] at all
    omega
  rw [← again, List.drop_left' older]

/-- The second pass stores what it reads, without line ends, and nothing else. -/
theorem copyLines_eq {left i : Nat} (fits : i + left ≤ cap) (file : List UInt8)
    (lines : Vector (List UInt8) cap) :
    (copyLines left i fits file lines).1 = i + (fgetsAll left file).length ∧
      storedLines (copyLines left i fits file lines) =
        lines.toList.take i ++ (fgetsAll left file).map stripNewline := by
  induction left generalizing i file lines with
  | zero => simp [copyLines, fgetsAll, storedLines]
  | succ left ih =>
      cases read : fgets file with
      | none => simp [copyLines, fgetsAll, storedLines, read]
      | some taken =>
          have next := ih (i := i + 1) (by omega) taken.2 (lines.set i (stripNewline taken.1))
          have grown : (lines.set i (stripNewline taken.1)).toList.take (i + 1) =
              lines.toList.take i ++ [stripNewline taken.1] := by
            have within : i < lines.toList.length := by simp; omega
            rw [Vector.toList_set, List.take_add_one, List.getElem?_set_self within,
              List.take_set_of_le (Nat.le_refl i)]
            rfl
          simp only [copyLines, fgetsAll, read, List.length_cons, List.map_cons]
          rw [next.1, next.2, grown]
          exact ⟨by omega, by simp⟩

theorem getElem?_set_set (lines : Vector (List UInt8) cap) {i k : Nat} (first : i < cap)
    (last : k < cap) (j : Nat) :
    ((lines.set i lines[k]).set k lines[i])[j]? =
      lines[if j = k then i else if j = i then k else j]? := by
  grind

/-- Where a row comes from after some swaps: those that took part have changed places with their
mirror images. -/
theorem getElem?_swapLines {avail : Nat} (fits : avail ≤ cap) {left i : Nat}
    (half : i + left ≤ avail / 2) (lines : Vector (List UInt8) cap) (j : Nat) :
    (swapLines avail fits left i half lines)[j]? =
      lines[if i ≤ j ∧ j < i + left ∨ j < avail ∧ i ≤ avail - 1 - j ∧ avail - 1 - j < i + left
        then avail - 1 - j else j]? := by
  induction left generalizing i lines with
  | zero =>
      rw [if_neg (by omega)]
      rfl
  | succ left ih =>
      rw [swapLines, ih, getElem?_set_set]
      congr 1
      split_ifs <;> omega

theorem take_swapLines {avail : Nat} (fits : avail ≤ cap) (lines : Vector (List UInt8) cap) :
    (swapLines avail fits (avail / 2) 0 (by omega) lines).toList.take avail =
      (lines.toList.take avail).reverse := by
  apply List.ext_getElem?
  intro j
  by_cases within : j < avail
  · have mirrored : (if 0 ≤ j ∧ j < 0 + avail / 2 ∨
        j < avail ∧ 0 ≤ avail - 1 - j ∧ avail - 1 - j < 0 + avail / 2 then avail - 1 - j else j) =
          avail - 1 - j := by
      split <;> omega
    have length : (lines.toList.take avail).length = avail := by simp [fits]
    rw [List.getElem?_take_of_lt within, List.getElem?_reverse (length.symm ▸ within), length,
      List.getElem?_take_of_lt (by omega), Vector.getElem?_toList, Vector.getElem?_toList,
      getElem?_swapLines, mirrored]
  · rw [List.getElem?_eq_none (by simp; omega), List.getElem?_eq_none (by simp; omega)]

end

/-- What a pass over the file reads: nothing if the log is not open or `fopen` fails. -/
def AccessLog.readAll (l : AccessLog) (opens : Bool) : List (List UInt8) :=
  if l.isOpen && opens then fgetsAll l.file.length l.file else []

/-- `access_log_tail` stores the last lines of the file, the newest first, as many as were asked for
and can be stored; what the array held before is not looked at. -/
theorem accessLogTail_eq (l : AccessLog) (opens : Bool) (n : Nat) {cap : Nat}
    (lines : Vector (List UInt8) cap) :
    (accessLogTail l opens n lines).1 = min (min n cap) (l.readAll opens).length ∧
      storedLines (accessLogTail l opens n lines) =
        ((l.readAll opens).map stripNewline).reverse.take (min n cap) := by
  unfold accessLogTail
  extract_lets want total avail skip copied
  by_cases nothing : want = 0 ∨ l.isOpen = false
  · rw [if_pos nothing]
    rcases nothing with none | closed
    · simp [storedLines, show min n cap = 0 from none]
    · simp [storedLines, AccessLog.readAll, closed]
  rw [if_neg nothing]
  by_cases failed : opens = false
  · simp [storedLines, AccessLog.readAll, failed]
  rw [if_neg failed]
  have all : l.readAll opens = fgetsAll l.file.length l.file := by
    have isOpen := Bool.of_not_eq_false (not_or.mp nothing).2
    simp [AccessLog.readAll, isOpen, Bool.of_not_eq_false failed]
  have counted : total = (l.readAll opens).length := by
    rw [all]
    exact (countLines_eq ..).trans (Nat.zero_add _)
  have second : fgetsAll avail (skipLines skip l.file) = (l.readAll opens).drop skip := by
    rw [fgetsAll_skipLines (show skip + avail = (fgetsAll l.file.length l.file).length by
      rw [← all, ← counted]; omega), all]
  have filled : copied.1 = min (min n cap) (l.readAll opens).length := by
    rw [← counted, (copyLines_eq ..).1, second, List.length_drop, ← counted]
    omega
  refine ⟨filled, ?_⟩
  have stored : copied.2.toList.take copied.1 = ((l.readAll opens).map stripNewline).drop skip := by
    rw [← List.map_drop, ← second]
    exact (copyLines_eq ..).2.trans (by simp)
  rw [storedLines, take_swapLines, stored, List.take_reverse, List.length_map]
  congr 2
  omega

/-! ## What lines are read -/

theorem lf_not_mem_dropLast_fgetsTake (room : Nat) (rest : List UInt8) :
    0x0A ∉ (fgetsTake room rest).dropLast := by
  induction room generalizing rest with
  | zero => simp [fgetsTake]
  | succ room ih =>
      cases rest with
      | nil => simp [fgetsTake]
      | cons byte more =>
          simp only [fgetsTake]
          split
          · simp
          · rename_i other
            cases taken : fgetsTake room more with
            | nil => simp
            | cons next later =>
                have := ih more
                rw [taken] at this
                rw [List.dropLast_cons_cons, List.mem_cons, not_or]
                exact ⟨Ne.symm other, this⟩

theorem fgets_of_mem_fgetsAll {rounds : Nat} {file line : List UInt8}
    (member : line ∈ fgetsAll rounds file) :
    ∃ rest, line = fgetsTake (ACCESS_LOG_LINE_MAX - 1) rest := by
  induction rounds generalizing file with
  | zero => exact absurd member List.not_mem_nil
  | succ rounds ih =>
      simp only [fgetsAll, fgets] at member
      split at member
      · exact absurd member List.not_mem_nil
      · next read =>
          split at read
          · cases read
          · cases read
            rcases List.mem_cons.mp member with first | later
            · exact ⟨file, first⟩
            · exact ih later

theorem lf_not_mem_dropLast_of_mem_fgetsAll {rounds : Nat} {file line : List UInt8}
    (member : line ∈ fgetsAll rounds file) : 0x0A ∉ line.dropLast := by
  rcases fgets_of_mem_fgetsAll member with ⟨rest, rfl⟩
  exact lf_not_mem_dropLast_fgetsTake _ _

theorem prefix_stripNewline (line : List UInt8) : stripNewline line <+: line :=
  (List.rdropWhile_prefix _ (cText line)).trans (List.takeWhile_prefix _)

theorem length_stripNewline_le (line : List UInt8) : (stripNewline line).length ≤ line.length :=
  (prefix_stripNewline line).length_le

/-- Neither a line feed nor a carriage return is left at the end of a line. -/
theorem getLast?_stripNewline (line : List UInt8) :
    (stripNewline line).getLast? ≠ some 0x0A ∧ (stripNewline line).getLast? ≠ some 0x0D := by
  have kept : ∀ byte, (stripNewline line).getLast? = some byte →
      ¬(byte == 0x0A || byte == 0x0D) = true := by
    intro byte last
    have nonempty : stripNewline line ≠ [] := by
      intro empty
      simp [empty] at last
    rw [List.getLast?_eq_some_getLast nonempty, Option.some.injEq] at last
    rw [← last]
    exact List.rdropWhile_last_not _ _ nonempty
  exact ⟨fun last => kept _ last (by decide), fun last => kept _ last (by decide)⟩

theorem lf_not_mem_stripNewline {line : List UInt8} (ended : 0x0A ∉ line.dropLast) :
    0x0A ∉ stripNewline line := by
  intro member
  rcases prefix_stripNewline line with ⟨cut, split⟩
  cases cut with
  | nil =>
      rw [List.append_nil] at split
      have nonempty := List.ne_nil_of_mem member
      have last := (getLast?_stripNewline line).1
      rw [List.getLast?_eq_some_getLast nonempty] at last
      have parts := List.dropLast_append_getLast nonempty
      rw [← parts, List.mem_append, List.mem_singleton] at member
      rcases member with inside | final
      · exact ended (split ▸ inside)
      · exact last (congrArg some final.symm)
  | cons byte more =>
      apply ended
      rw [← split, List.dropLast_append_of_ne_nil (by simp)]
      exact List.mem_append_left _ member

/-- The lines of the tail are lines of the file, without their ends. -/
theorem exists_read_of_stored {l : AccessLog} {opens : Bool} {n cap : Nat}
    {lines : Vector (List UInt8) cap} {line : List UInt8}
    (member : line ∈ storedLines (accessLogTail l opens n lines)) :
    ∃ read ∈ fgetsAll l.file.length l.file, line = stripNewline read := by
  rw [(accessLogTail_eq ..).2] at member
  rcases List.mem_map.mp (List.mem_reverse.mp (List.mem_of_mem_take member)) with
    ⟨read, present, rfl⟩
  unfold AccessLog.readAll at present
  split at present
  · exact ⟨read, present, rfl⟩
  · exact absurd present List.not_mem_nil

theorem length_of_stored {l : AccessLog} {opens : Bool} {n cap : Nat}
    {lines : Vector (List UInt8) cap} {line : List UInt8}
    (member : line ∈ storedLines (accessLogTail l opens n lines)) :
    line.length ≤ ACCESS_LOG_LINE_MAX - 1 := by
  rcases exists_read_of_stored member with ⟨read, present, rfl⟩
  rcases fgets_of_mem_fgetsAll present with ⟨rest, rfl⟩
  exact Nat.le_trans (length_stripNewline_le _) (length_fgetsTake_le _ _)

theorem length_storedLines (l : AccessLog) (opens : Bool) (n : Nat) {cap : Nat}
    (lines : Vector (List UInt8) cap) :
    (storedLines (accessLogTail l opens n lines)).length = (accessLogTail l opens n lines).1 := by
  rw [(accessLogTail_eq ..).1, (accessLogTail_eq ..).2]
  simp

end SocksProxy
