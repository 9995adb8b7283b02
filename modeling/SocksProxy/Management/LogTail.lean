import SocksProxy.Management.Responses
import SocksProxy.Server.LogLines

/-!
# The tail of the access log

`access_log_tail` reads the file with a buffer of fixed size, so it finds the
records again only if none of them is longer than that. The length of a record
is bounded by the buffers it is put together from: the time stamp, a user name
of at most 255 bytes, a host of at most 255 bytes with its port, and the result.
A file of records is therefore read record by record, and `LOG` shows the newest
ones, the newest of them first.
-/

namespace SocksProxy

/-! ## How long a record is -/

/-- What `gmtime_r` can give. -/
structure CalendarTime.InRange (tm : CalendarTime) : Prop where
  year : tm.year < 2 ^ 31 + 1900
  month : tm.month ≤ 12
  day : tm.day ≤ 31
  hour : tm.hour ≤ 23
  minute : tm.minute ≤ 59
  second : tm.second ≤ 60

theorem length_decimal2_le {n : Nat} (small : n < 100) : (decimal2 n).length ≤ 2 := by
  unfold decimal2
  split
  · next digit =>
      have short := length_decimal_le (k := 1) (by decide) (by omega : n < 10 ^ 1)
      rw [List.length_append, show (ascii "0").length = 1 by decide]
      omega
  · exact length_decimal_le (by decide) (by omega)

theorem length_timestamp_le {tm : CalendarTime} (inRange : tm.InRange) :
    (timestamp tm).length ≤ 26 := by
  have year := length_decimal_le (k := 10) (by decide)
    (Nat.lt_trans inRange.year (by decide : 2 ^ 31 + 1900 < 10 ^ 10))
  have month := length_decimal2_le (Nat.lt_of_le_of_lt inRange.month (by decide))
  have day := length_decimal2_le (Nat.lt_of_le_of_lt inRange.day (by decide))
  have hour := length_decimal2_le (Nat.lt_of_le_of_lt inRange.hour (by decide))
  have minute := length_decimal2_le (Nat.lt_of_le_of_lt inRange.minute (by decide))
  have second := length_decimal2_le (Nat.lt_of_le_of_lt inRange.second (by decide))
  simp only [timestamp, List.length_append, show (ascii "-").length = 1 by decide,
    show (ascii "T").length = 1 by decide, show (ascii ":").length = 1 by decide,
    show (ascii "Z").length = 1 by decide]
  omega

theorem length_loggedUser_le (method : UInt8) (auth : Socks5Auth) :
    (loggedUser method auth).length ≤ 255 := by
  unfold loggedUser
  split
  · rw [List.length_map, Socks5Auth.user, ByteTable.length_take]
    exact Nat.le_of_lt_succ auth.ulen.toNat_lt
  · decide

theorem length_intercalate_le (separator : List UInt8) {texts : List (List UInt8)} {bound : Nat}
    (each : ∀ text ∈ texts, text.length ≤ bound) :
    (separator.intercalate texts).length ≤ texts.length * (bound + separator.length) := by
  induction texts with
  | nil => simp
  | cons text rest ih =>
      rw [List.forall_mem_cons] at each
      have first := each.1
      have later := ih each.2
      cases rest with
      | nil =>
          rw [List.intercalate_singleton, List.length_singleton]
          omega
      | cons next more =>
          rw [List.intercalate_cons_cons, List.length_append, List.length_append,
            List.length_cons, Nat.succ_mul]
          omega

theorem length_inetNtop4_le (addr : List UInt8) : (inetNtop4 addr).length ≤ 16 := by
  have octet : ∀ text ∈ (addr.take 4).map (fun byte => decimal byte.toNat), text.length ≤ 3 := by
    intro text member
    rcases List.mem_map.mp member with ⟨byte, -, rfl⟩
    exact length_decimal_le (by decide) (Nat.lt_trans byte.toNat_lt (by decide))
  have joined := length_intercalate_le (ascii ".") octet
  have few : (addr.take 4).length ≤ 4 := List.length_take_le _ _
  rw [List.length_map, show (ascii ".").length = 1 by decide] at joined
  exact Nat.le_trans joined (by omega)

theorem length_hexadecimal_le {n : Nat} (small : n < 16 ^ 4) : (hexadecimal n).length ≤ 4 := by
  rw [hexadecimal, List.length_map]
  exact (Nat.length_toDigits_le_iff (by decide) (by decide)).mpr small

theorem length_word6Text_le (addr : List UInt8) (best : Option (Nat × Nat)) (i : Nat) :
    (word6Text (words6 addr) best i).length ≤ 5 := by
  have words : ∀ word ∈ words6 addr, word < 16 ^ 4 := by
    intro word member
    rcases List.mem_map.mp member with ⟨j, -, rfl⟩
    have high := (addr.getD (2 * j) 0).toNat_lt
    have low := (addr.getD (2 * j + 1) 0).toNat_lt
    omega
  have small : (words6 addr).getD i 0 < 16 ^ 4 := by
    rw [List.getD_eq_getElem?_getD]
    cases found : (words6 addr)[i]? with
    | none => decide
    | some word => exact words word (List.mem_of_getElem? found)
  have digits := length_hexadecimal_le small
  have colon : ∀ p : Prop, [Decidable p] → (if p then ascii ":" else []).length ≤ 1 := by
    intro p _
    split <;> decide
  have separated : ((if i ≠ 0 then ascii ":" else []) ++
      hexadecimal ((words6 addr).getD i 0)).length ≤ 5 := by
    have separator := colon (i ≠ 0)
    rw [List.length_append]
    omega
  unfold word6Text
  split
  · split
    · exact Nat.le_trans (colon _) (by decide)
    · exact separated
  · exact separated

theorem length_inetNtop6_le (addr : List UInt8) : (inetNtop6 addr).length ≤ 47 := by
  have colon : (ascii ":").length = 1 := by decide
  have words : ∀ (best : Option (Nat × Nat)) (n : Nat),
      ((List.range n).map (word6Text (words6 addr) best)).flatten.length ≤ n * 5 := by
    intro best n
    have each : ∀ text ∈ (List.range n).map (word6Text (words6 addr) best), text.length ≤ 5 := by
      intro text member
      rcases List.mem_map.mp member with ⟨i, -, rfl⟩
      exact length_word6Text_le addr best i
    simpa using length_flatten_le each
  unfold inetNtop6
  dsimp only
  generalize bestRun (words6 addr) = best
  split
  · have front := words best 6
    have back := length_inetNtop4_le (addr.drop 12)
    rw [List.length_append, List.length_append, colon]
    omega
  · have front := words best 8
    rw [List.length_append]
    refine Nat.le_trans (Nat.add_le_add front ?_) (by decide : 8 * 5 + 1 ≤ 47)
    split
    · split <;> decide
    · decide

theorem length_formatRequestDst_le (r : Socks5Request) : (formatRequestDst r).length ≤ 261 := by
  have port := length_decimal_le (k := 5) (by decide)
    (Nat.lt_trans r.dstPort.toNat_lt (by decide : 2 ^ 16 < 10 ^ 5))
  unfold formatRequestDst
  extract_lets host
  have short : host.length ≤ 255 := by
    subst host
    split
    · rw [sanitizeDomain, List.length_map]
      exact List.length_take_le _ _
    · split
      · exact Nat.le_trans (length_inetNtop6_le _) (by decide)
      · exact Nat.le_trans (length_inetNtop4_le _) (by decide)
  rw [List.length_append, List.length_append, show (ascii ":").length = 1 by decide]
  omega

theorem length_resultToken_le (rep : UInt8) : (resultToken rep).length ≤ 17 := by
  unfold resultToken
  repeat' split
  all_goals decide

/-- A call of `socks5_log_access`: the parts of the connection it reads, and the time it finds. -/
structure Access where
  time : CalendarTime
  method : UInt8
  auth : Socks5Auth
  request : Socks5Request
  rep : UInt8
  dated : time.InRange

namespace Access

/-- The record that is written, without its line feed. -/
def text (access : Access) : List UInt8 :=
  recordText access.time (loggedUser access.method access.auth) (formatRequestDst access.request)
    (resultToken access.rep)

/-- What the call does to the log. -/
def record (log : AccessLog) (access : Access) : AccessLog :=
  accessLogRecord log access.time (loggedUser access.method access.auth)
    (formatRequestDst access.request) (resultToken access.rep)

/-- A file that holds the records of some calls and nothing else. -/
def file (accesses : List Access) : List UInt8 := Framing.join LF (accesses.map text)

theorem printable_text (access : Access) : Printable access.text :=
  printable_recordText access.time (visible_loggedUser _ _).printable
    (printable_formatRequestDst _) (visible_resultToken _).printable

theorem length_text_le (access : Access) : access.text.length ≤ 570 := by
  have time := length_timestamp_le access.dated
  have user := length_loggedUser_le access.method access.auth
  have dest := length_formatRequestDst_le access.request
  have result := length_resultToken_le access.rep
  simp only [text, recordText, recordFields, List.intercalate_cons_cons,
    List.intercalate_singleton, List.length_append, List.length_singleton,
    show (ascii "CONNECT").length = 7 by decide]
  omega

theorem foldl_record (earlier later : List Access) :
    later.foldl record ⟨true, file earlier⟩ = ⟨true, file (earlier ++ later)⟩ := by
  induction later generalizing earlier with
  | nil => rw [List.append_nil]; rfl
  | cons access later ih =>
      have recorded : record ⟨true, file earlier⟩ access = ⟨true, file (earlier ++ [access])⟩ := by
        simp only [record, accessLogRecord, if_true, accessLogLine_eq, file, List.map_append,
          Framing.join_append, List.map_singleton, Framing.join_singleton]
        rfl
      rw [List.foldl_cons, recorded, ih, List.append_assoc]
      rfl

end Access

/-! ## Reading lines -/

section

variable {lines : List (List UInt8)} {line : List UInt8}

/-- One call of `fgets` takes a line that fits, with its line feed. -/
theorem fgetsTake_line {room : Nat} (unended : LF ∉ line) (short : line.length < room)
    (rest : List UInt8) : fgetsTake room (line ++ LF :: rest) = line ++ [LF] := by
  induction line generalizing room with
  | nil =>
      cases room with
      | zero => cases short
      | succ room => rfl
  | cons byte line ih =>
      rw [List.mem_cons, not_or] at unended
      cases room with
      | zero => cases short
      | succ room =>
          rw [List.cons_append, fgetsTake, if_neg (show byte ≠ 0x0A from Ne.symm unended.1),
            ih unended.2 (Nat.lt_of_succ_lt_succ short)]
          rfl

theorem fgetsAll_join {rounds : Nat} (enough : lines.length ≤ rounds)
    (each : ∀ line ∈ lines, LF ∉ line ∧ line.length < ACCESS_LOG_LINE_MAX - 1) :
    fgetsAll rounds (Framing.join LF lines) = lines.map fun line => line ++ [LF] := by
  induction lines generalizing rounds with
  | nil => cases rounds <;> rfl
  | cons line lines ih =>
      rw [List.forall_mem_cons] at each
      have split : Framing.join LF (line :: lines) = line ++ LF :: Framing.join LF lines := by
        simp [Framing.join]
      cases rounds with
      | zero => cases enough
      | succ rounds =>
          have taken := fgetsTake_line each.1.1 each.1.2 (Framing.join LF lines)
          have left : (line ++ LF :: Framing.join LF lines).drop (line ++ [LF]).length =
              Framing.join LF lines := by
            rw [List.append_cons line LF (Framing.join LF lines), List.drop_left]
          have read : fgets (line ++ LF :: Framing.join LF lines) =
              some (line ++ [LF], Framing.join LF lines) := by
            rw [fgets, taken, left]
            exact if_neg (by simp)
          simp only [split, fgetsAll, read, List.map_cons]
          rw [ih (Nat.le_of_succ_le_succ enough) each.2]

/-- A printable line is all that is left of it and its line feed. -/
theorem stripNewline_line (printable : Printable line) : stripNewline (line ++ [LF]) = line := by
  have graphic : ∀ byte ∈ line, byte ≠ 0 ∧ byte ≠ 0x0A ∧ byte ≠ 0x0D := by
    intro byte member
    have least := (printable byte member).1
    refine ⟨?_, ?_, ?_⟩ <;> rintro rfl <;> exact absurd least (by decide)
  have text : cText (line ++ [LF]) = line ++ [LF] := by
    rw [cText, List.takeWhile_eq_self_iff]
    intro byte member
    rcases List.mem_append.mp member with inside | last
    · simpa using (graphic byte inside).1
    · rw [List.mem_singleton.mp last]
      decide
  have kept : line.reverse.dropWhile (fun byte => byte == 0x0A || byte == 0x0D) = line.reverse := by
    rw [List.dropWhile_eq_self_iff]
    intro nonempty
    have inside : line.reverse[0] ∈ line := List.mem_reverse.mp (List.getElem_mem nonempty)
    simpa using (graphic _ inside).2
  rw [stripNewline, text, List.reverse_append, List.reverse_singleton, List.singleton_append,
    List.dropWhile_cons_of_pos (by decide), kept, List.reverse_reverse]

/-- The tail of a file of printable lines that fit: the last of them, in reverse order. -/
theorem accessLogTail_join (n : Nat) {cap : Nat} (rows : Vector (List UInt8) cap)
    (each : ∀ line ∈ lines, Printable line ∧ line.length < ACCESS_LOG_LINE_MAX - 1) :
    (accessLogTail ⟨true, Framing.join LF lines⟩ true n rows).1 = min (min n cap) lines.length ∧
      storedLines (accessLogTail ⟨true, Framing.join LF lines⟩ true n rows) =
        lines.reverse.take (min n cap) := by
  have read : AccessLog.readAll ⟨true, Framing.join LF lines⟩ true =
      lines.map fun line => line ++ [LF] :=
    fgetsAll_join (Framing.length_le_length_join LF lines) fun line member =>
      ⟨(each line member).1.cleanLine.1, (each line member).2⟩
  have stripped : (lines.map fun line => line ++ [LF]).map stripNewline = lines := by
    rw [List.map_map]
    conv_rhs => rw [← List.map_id lines]
    exact List.map_congr_left fun line member => stripNewline_line (each line member).1
  rcases accessLogTail_eq ⟨true, Framing.join LF lines⟩ true n rows with ⟨count, stored⟩
  rw [read] at count stored
  rw [stripped] at stored
  exact ⟨count.trans (by rw [List.length_map]), stored⟩

end

/-- A call for a connection to port 80 of the loopback address. -/
def Access.toLoopback (rep : UInt8) : Access where
  time := ⟨2026, 7, 9, 14, 22, 1⟩
  method := SOCKS5_METHOD_NOAUTH
  auth := Socks5Auth.zero
  request := { Socks5Request.zero with
    state := .done, atyp := SOCKS5_ATYP_IPV4, addrLen := 4
    dstAddr := (Socks5Request.zero.dstAddr.set 0 127).set 3 1, dstPort := 80 }
  rep := rep
  dated := by constructor <;> decide

/-- A record is in the file and asked for, but `fopen` does not open the file. -/
theorem tail_empty_without_fopen :
    (accessLogTail ([Access.toLoopback SOCKS5_REP_SUCCESS].foldl Access.record ⟨true, []⟩) false 1
      (Vector.replicate 1 [])).1 = 0 ∧
    ([Access.toLoopback SOCKS5_REP_SUCCESS].foldl Access.record ⟨true, []⟩).file =
      ascii "2026-07-09T14:22:01Z - CONNECT 127.0.0.1:80 OK\n" := by
  decide +kernel

/-- The log shows the newest records, the newest first. Whatever calls have filled the file, however
many of them the process found there, and whatever is asked for, the tail consists of the last
records, as many as were asked for and can be stored, each as it was written, if `fopen` opens the
file; else it is empty. Every record fits the buffer with its line feed, and every call of `fgets`
takes one. -/
theorem tail_is_newest_first (earlier later : List Access) (opens : Bool) (n : Nat) {cap : Nat}
    (lines : Vector (List UInt8) cap) :
    let log := later.foldl Access.record ⟨true, Access.file earlier⟩
    let written := (earlier ++ later).map Access.text
    let tail := accessLogTail log opens n lines
    (opens = true → tail.1 = min (min n cap) (earlier.length + later.length) ∧
      storedLines tail = written.reverse.take tail.1) ∧
    (opens = false → tail = (0, lines)) ∧
    (∀ text ∈ written, text.length + 1 < ACCESS_LOG_LINE_MAX) ∧
    fgetsAll log.file.length log.file = written.map fun text => text ++ [LF] := by
  intro log written tail
  have each : ∀ text ∈ written, Printable text ∧ text.length < ACCESS_LOG_LINE_MAX - 1 := by
    intro text member
    rcases List.mem_map.mp member with ⟨access, -, rfl⟩
    exact ⟨access.printable_text, Nat.lt_of_le_of_lt access.length_text_le (by decide)⟩
  have filled : log = ⟨true, Framing.join LF written⟩ := Access.foldl_record earlier later
  have number : written.length = earlier.length + later.length := by
    rw [List.length_map, List.length_append]
  refine ⟨fun opened => ?_, fun failed => ?_, fun text member => ?_, ?_⟩
  · rcases accessLogTail_join n lines each with ⟨count, stored⟩
    have shown : tail = accessLogTail ⟨true, Framing.join LF written⟩ true n lines := by
      rw [← filled, ← opened]
    rw [shown, count, stored, number]
    refine ⟨rfl, ?_⟩
    rw [← number, ← List.length_reverse, List.take_eq_take_min]
  · simp [tail, accessLogTail, failed]
  · exact Nat.add_lt_of_lt_sub (each text member).2
  · rw [filled]
    exact fgetsAll_join (Framing.length_le_length_join LF written) fun text member =>
      ⟨(each text member).1.cleanLine.1, (each text member).2⟩

theorem tail_is_newest_first_for_two_calls :
    storedLines (accessLogTail ([Access.toLoopback SOCKS5_REP_SUCCESS,
        Access.toLoopback SOCKS5_REP_CONNECTION_REFUSED].foldl Access.record ⟨true, []⟩) true 10
      (Vector.replicate 50 [])) =
    [ascii "2026-07-09T14:22:01Z - CONNECT 127.0.0.1:80 CONN-REFUSED",
      ascii "2026-07-09T14:22:01Z - CONNECT 127.0.0.1:80 OK"] := by
  have tail := (tail_is_newest_first [] [Access.toLoopback SOCKS5_REP_SUCCESS,
    Access.toLoopback SOCKS5_REP_CONNECTION_REFUSED] true 10 (Vector.replicate 50 [])).1 rfl
  exact (tail.2.trans (by rw [tail.1])).trans (by decide +kernel)

end SocksProxy
