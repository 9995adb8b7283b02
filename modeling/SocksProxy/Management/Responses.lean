import SocksProxy.Server.Mgmt
import SocksProxy.Server.UserStore

/-!
# Responses

Every response of the management protocol is a status line and perhaps some data
lines. The status line tells which: an error, a count of the data lines that
follow it, or a text that is not a number. Whatever the store, the log and the
counters hold, each line fits the buffer of `out_printf` and all of them
together fit an empty output buffer.
-/

namespace SocksProxy

/-- A response: its status line and its data lines, without their line feeds. -/
structure Response where
  status : List UInt8
  data : List (List UInt8)

namespace Response

def lines (r : Response) : List (List UInt8) := r.status :: r.data

/-- What is printed, line by line. -/
def texts (r : Response) : List (List UInt8) := r.lines.map fun line => line ++ [LF]

/-- What travels to the client. -/
def bytes (r : Response) : List UInt8 := Framing.join LF r.lines

theorem flatten_texts (r : Response) : r.texts.flatten = r.bytes := rfl

/-- The status line tells what the response is. -/
inductive Announced (r : Response) : Prop where
  | error (text : List UInt8) (status : r.status = ascii "-ERR " ++ text) (single : r.data = [])
  | count (status : r.status = ascii "+OK " ++ decimal r.data.length)
  | plain (c : UInt8) (text : List UInt8) (status : r.status = ascii "+OK " ++ c :: text)
      (word : isDigit c = false) (greets : c ≠ 0x53) (single : r.data = [])

end Response

/-- A line that a reader of lines gets back as it is. -/
def CleanLine (line : List UInt8) : Prop := LF ∉ line ∧ line.getLast? ≠ some CR

/-- No name in the store breaks a line. -/
def MgmtDeps.Tidy (deps : MgmtDeps) : Prop := ∀ name ∈ deps.users.names, CleanLine name

/-- What is printed is a response, each text is printed whole by one call of `out_printf`, and all
of them go into an empty output buffer. -/
structure Proper (deps : MgmtDeps) (printed : List (List UInt8)) (r : Response) : Prop where
  texts : printed = r.texts
  announced : r.Announced
  each : ∀ text ∈ printed, text.length ≤ OUT_PRINTF_MAX - 1
  all : printed.flatten.length ≤ MGMT_OUTPUT_BUFFER_SIZE
  clean : deps.Tidy → ∀ line ∈ r.lines, CleanLine line

/-! ## Printing -/

theorem contents_outPrintfAll {b : Buffer} {texts : List (List UInt8)}
    (each : ∀ text ∈ texts, text.length ≤ OUT_PRINTF_MAX - 1)
    (room : texts.flatten.length ≤ b.space) :
    (outPrintfAll b texts).contents = b.contents ++ texts.flatten ∧
      (outPrintfAll b texts).limit = b.limit := by
  induction texts generalizing b with
  | nil => simp [outPrintfAll]
  | cons text texts ih =>
      rw [List.forall_mem_cons] at each
      rw [List.flatten_cons, List.length_append] at room
      have whole : text.take (OUT_PRINTF_MAX - 1) = text := List.take_of_length_le each.1
      have stored : outPrintf b text = b.store text := by rw [outPrintf, whole]
      have later : texts.flatten.length ≤ (outPrintf b text).space := by
        rw [stored, Buffer.space_store]
        omega
      rcases ih each.2 later with ⟨contents, limit⟩
      rw [outPrintfAll, List.foldl_cons, ← outPrintfAll, contents, limit, stored,
        Buffer.contents_store, Buffer.limit_store, List.take_of_length_le (by omega)]
      simp

/-! ## Status lines -/

/-- A short printable text and its line feed. -/
def isShortLine (text : List UInt8) : Bool :=
  text.getLast? = some LF && text.length ≤ 64 &&
    text.dropLast.all fun c => 0x20 ≤ c && c ≤ 0x7e

theorem Printable.cleanLine {line : List UInt8} (printable : Printable line) : CleanLine line := by
  constructor
  · intro member
    exact absurd (printable LF member).1 (by decide)
  · intro last
    exact absurd (printable CR (List.mem_of_getLast? last)).1 (by decide)

section

variable {deps : MgmtDeps} {text : List UInt8}

theorem isShortLine_iff (short : isShortLine text = true) :
    text = text.dropLast ++ [LF] ∧ text.length ≤ 64 ∧ CleanLine text.dropLast := by
  simp only [isShortLine, Bool.and_eq_true, decide_eq_true_eq, List.all_eq_true] at short
  rcases short with ⟨⟨ended, short⟩, printable⟩
  refine ⟨?_, short, Printable.cleanLine printable⟩
  have nonempty : text ≠ [] := by
    rintro rfl
    cases ended
  rw [List.getLast?_eq_some_getLast nonempty, Option.some.injEq] at ended
  rw [← ended]
  exact (List.dropLast_append_getLast nonempty).symm

theorem proper_single (status : List UInt8) (short : status.length < 64) (clean : CleanLine status)
    (announced : Response.Announced ⟨status, []⟩) :
    Proper deps [status ++ [LF]] ⟨status, []⟩ := by
  have length : (status ++ [LF]).length ≤ 64 := by simpa using Nat.succ_le_of_lt short
  refine ⟨rfl, announced, ?_, ?_, ?_⟩
  · intro printed member
    rw [List.mem_singleton.mp member]
    exact Nat.le_trans length (by decide)
  · rw [List.flatten_cons, List.flatten_nil, List.append_nil]
    exact Nat.le_trans length (by decide)
  · intro _ line member
    rwa [List.mem_singleton.mp member]

theorem proper_of_isShortLine (short : isShortLine text = true)
    (announced : Response.Announced ⟨text.dropLast, []⟩) : ∃ r, Proper deps [text] r := by
  rcases isShortLine_iff short with ⟨ended, length, clean⟩
  rw [ended, List.length_append, List.length_singleton] at length
  rw [ended]
  exact ⟨_, proper_single _ (Nat.lt_of_succ_le length) clean announced⟩

theorem proper_error (begins : (ascii "-ERR ").isPrefixOf text.dropLast = true)
    (short : isShortLine text = true) : ∃ r, Proper deps [text] r := by
  rcases List.isPrefixOf_iff_prefix.mp begins with ⟨reason, same⟩
  exact proper_of_isShortLine short (.error reason same.symm rfl)

/-- Whether a text is a success that neither counts nor greets. -/
def isPlain (text : List UInt8) : Bool :=
  (ascii "+OK ").isPrefixOf text &&
    (text.drop 4).head?.any fun c => !isDigit c && c != 0x53

theorem proper_plain (plain : isPlain text.dropLast = true) (short : isShortLine text = true) :
    ∃ r, Proper deps [text] r := by
  simp only [isPlain, Bool.and_eq_true, List.isPrefixOf_iff_prefix] at plain
  rcases plain with ⟨⟨rest, same⟩, word⟩
  rw [← same] at word
  cases rest with
  | nil => simp [ascii] at word
  | cons c rest =>
      have first : isDigit c = false ∧ c ≠ 0x53 := by simpa [ascii] using word
      exact proper_of_isShortLine short (.plain c rest same.symm first.1 first.2 rfl)

end

/-! ## Listings -/

theorem length_flatten_le {texts : List (List UInt8)} {bound : Nat}
    (each : ∀ text ∈ texts, text.length ≤ bound) :
    texts.flatten.length ≤ texts.length * bound := by
  induction texts with
  | nil => simp
  | cons text texts ih =>
      rw [List.forall_mem_cons] at each
      have first := each.1
      have later := ih each.2
      rw [List.flatten_cons, List.length_append, List.length_cons, Nat.add_mul]
      omega

theorem length_countText_le {n : Nat} (small : n < 10 ^ 3) : (countText n).length ≤ 8 := by
  have digits := length_decimal_le (k := 3) (by decide) small
  simp [countText, ascii]
  omega

/-- A count and as many lines are a response, if the lines are not too long and not too many. -/
theorem proper_listing {deps : MgmtDeps} (data : List (List UInt8)) (bound : Nat)
    (each : ∀ line ∈ data, line.length < bound) (bounded : bound ≤ ACCESS_LOG_LINE_MAX)
    (few : data.length < 10 ^ 3) (all : data.length * bound + 8 ≤ MGMT_OUTPUT_BUFFER_SIZE)
    (clean : deps.Tidy → ∀ line ∈ data, CleanLine line) :
    Proper deps (countText data.length :: data.map fun line => line ++ ascii "\n")
      ⟨ascii "+OK " ++ decimal data.length, data⟩ := by
  have count := length_countText_le few
  have printed : ∀ text ∈ data.map (fun line => line ++ ascii "\n"), text.length ≤ bound := by
    intro text member
    rcases List.mem_map.mp member with ⟨line, present, rfl⟩
    have := each line present
    simp only [List.length_append, show (ascii "\n").length = 1 by decide]
    omega
  refine ⟨rfl, .count rfl, ?_, ?_, ?_⟩
  · intro text member
    rcases List.mem_cons.mp member with rfl | later
    · exact Nat.le_trans count (by decide)
    · exact Nat.le_trans (printed text later)
        (Nat.le_trans bounded (by decide))
  · have := length_flatten_le printed
    simp only [List.length_map] at this
    rw [List.flatten_cons, List.length_append]
    omega
  · intro tidy line member
    rcases List.mem_cons.mp member with rfl | later
    · exact ((show Printable (ascii "+OK ") by decide).append (printable_decimal _)).cleanLine
    · exact clean tidy line later

theorem length_field_lt {name : String} {value : Nat} (short : (ascii name).length ≤ 32)
    (small : value < 10 ^ 20) : (ascii name ++ ascii " " ++ decimal value).length < 64 := by
  have digits := length_decimal_le (k := 20) (by decide) small
  simp only [List.length_append, show (ascii " ").length = 1 by decide]
  omega

theorem proper_fields {deps : MgmtDeps} (fields : List (String × Nat)) (few : fields.length < 100)
    (names : ∀ field ∈ fields, (ascii field.1).length ≤ 32 ∧ Printable (ascii field.1))
    (values : ∀ field ∈ fields, field.2 < 10 ^ 20) :
    ∃ r, Proper deps (countText fields.length :: fields.map fun field => fieldText field.1 field.2)
      r := by
  let data := fields.map fun field => ascii field.1 ++ ascii " " ++ decimal field.2
  have listed : fields.map (fun field => fieldText field.1 field.2) =
      data.map fun line => line ++ ascii "\n" := by
    simp [data, fieldText]
  have count : fields.length = data.length := by simp [data]
  rw [listed, count]
  refine ⟨_, proper_listing data 64 ?_ (by decide) (by omega) ?_ ?_⟩
  · intro line member
    rcases List.mem_map.mp member with ⟨field, present, rfl⟩
    exact length_field_lt (names field present).1 (values field present)
  · have : MGMT_OUTPUT_BUFFER_SIZE = 55296 := rfl
    omega
  · intro _ line member
    rcases List.mem_map.mp member with ⟨field, present, rfl⟩
    have blank : Printable (ascii " ") := by decide
    exact (((names field present).2.append blank).append (printable_decimal _)).cleanLine

theorem proper_cmdMetrics (deps : MgmtDeps) : ∃ r, Proper deps (cmdMetrics deps) r := by
  have word : ∀ n : UInt64, n.toNat < 10 ^ 20 := fun n => Nat.lt_trans n.toNat_lt (by decide)
  have users : deps.users.count < 10 ^ 20 := Nat.lt_of_le_of_lt deps.users.count_le (by decide)
  rw [cmdMetrics, show ascii "+OK 7\n" = countText 7 by decide]
  apply proper_fields
    [("active_connections", deps.metrics.activeConnections.toNat),
      ("historical_connections", deps.metrics.historicalConnections.toNat),
      ("max_active_connections", deps.metrics.maxActiveConnections.toNat),
      ("bytes_client_to_origin", deps.metrics.bytesClientToOrigin.toNat),
      ("bytes_origin_to_client", deps.metrics.bytesOriginToClient.toNat),
      ("total_bytes", (deps.metrics.bytesClientToOrigin + deps.metrics.bytesOriginToClient).toNat),
      ("users_count", deps.users.count)]
  · simp
  · simp only [List.forall_mem_cons]
    decide
  · simp only [List.forall_mem_cons, word, users]
    decide

theorem proper_cmdGetConfig (deps : MgmtDeps) : ∃ r, Proper deps (cmdGetConfig deps) r := by
  have word : ∀ n : UInt32, n.toNat < 10 ^ 20 := fun n => Nat.lt_trans n.toNat_lt (by decide)
  rw [cmdGetConfig, show ascii "+OK 3\n" = countText 3 by decide]
  apply proper_fields
    [("conn_timeout", deps.config.connTimeout.toNat),
      ("io_buffer_size", deps.config.ioBufferSize.toNat),
      ("max_connections", deps.config.maxConnections.toNat)]
  · simp
  · simp only [List.forall_mem_cons]
    decide
  · simp only [List.forall_mem_cons, word]
    decide

theorem proper_cmdListUsers (deps : MgmtDeps) : ∃ r, Proper deps (cmdListUsers deps) r := by
  have listed : cmdListUsers deps =
      countText deps.users.names.length :: deps.users.names.map fun line => line ++ ascii "\n" := by
    rw [cmdListUsers, Users.length_names]
    congr 1
    simp only [Users.names, Users.accounts, List.map_map]
    apply List.map_congr_left
    intro i member
    simp [usersNameAt, show i < deps.users.count from List.mem_range.mp member]
  have few := deps.users.count_le
  have most : USERS_MAX = 100 := rfl
  rw [listed]
  refine ⟨_, proper_listing _ 256 ?_ (by decide) ?_ ?_ fun tidy => tidy⟩
  · intro name member
    simp only [Users.names, Users.accounts, List.map_map, List.mem_map] at member
    rcases member with ⟨i, -, rfl⟩
    exact Nat.lt_succ_of_le (CharArray.length_text_le _)
  · rw [Users.length_names]
    omega
  · rw [Users.length_names]
    have : MGMT_OUTPUT_BUFFER_SIZE = 55296 := rfl
    omega

theorem proper_logTexts (deps : MgmtDeps) (n : UInt32) : ∃ r, Proper deps (logTexts deps n) r := by
  have few : (accessLogTail deps.accessLog deps.logOpens (min n.toNat MGMT_LOG_MAX_LINES)
      (Vector.replicate MGMT_LOG_MAX_LINES [])).1 ≤ MGMT_LOG_MAX_LINES := by
    rw [(accessLogTail_eq ..).1]
    omega
  have most : MGMT_LOG_MAX_LINES = 50 := rfl
  simp only [logTexts, ← length_storedLines] at few ⊢
  refine ⟨_, proper_listing _ ACCESS_LOG_LINE_MAX ?_ (Nat.le_refl _) (by omega) ?_ ?_⟩
  · intro line member
    exact Nat.lt_of_le_of_lt (length_of_stored member) (by decide)
  · have size : MGMT_OUTPUT_BUFFER_SIZE = 55296 := rfl
    have line : ACCESS_LOG_LINE_MAX = 1024 := rfl
    rw [line]
    omega
  · intro _ line member
    rcases exists_read_of_stored member with ⟨read, present, rfl⟩
    exact ⟨lf_not_mem_stripNewline (lf_not_mem_dropLast_of_mem_fgetsAll present),
      (getLast?_stripNewline read).2⟩

theorem proper_cmdHelp (deps : MgmtDeps) : ∃ r, Proper deps cmdHelp r := by
  rw [cmdHelp, show ascii "+OK 10\n" = countText 10 by decide]
  refine ⟨_, proper_listing
    [ascii "AUTH <user> <pass>", ascii "METRICS", ascii "LIST-USERS",
      ascii "ADD-USER <user> <pass>", ascii "DEL-USER <user>", ascii "GET-CONFIG",
      ascii "SET <key> <value>", ascii "LOG [n]", ascii "PASSWD <newpass>", ascii "QUIT"]
    64 (by decide) (by decide) (by decide) (by decide) ?_⟩
  intro _ line member
  apply Printable.cleanLine
  revert line
  decide

/-! ## Every line -/

/-- A word that matches a name of lower-case letters, up to case. -/
theorem word_of_ieq {key : CString} {name : String} (same : ieq key name = true)
    (letters : ((ascii name).map toLower).all (fun c => 0x5f ≤ c && c ≤ 0x7a) = true) :
    key.bytes.length = (ascii name).length ∧
      Printable key.bytes ∧ (∀ c ∈ key.bytes, isDigit c = false) ∧
      key.bytes.head?.map toLower = ((ascii name).map toLower).head? := by
  rw [ieq, decide_eq_true_iff] at same
  simp only [List.all_eq_true, Bool.and_eq_true, decide_eq_true_eq] at letters
  have lower : ∀ c ∈ key.bytes, 0x5f ≤ toLower c ∧ toLower c ≤ 0x7a := fun c member =>
    letters (toLower c) (same ▸ List.mem_map_of_mem member)
  simp only [toLower, UInt8.le_iff_toNat_le, UInt8.reduceToNat] at lower
  refine ⟨by simpa using congrArg List.length same, ?_, ?_, by rw [← same, List.head?_map]⟩
  · intro c member
    have lower := lower c member
    simp only [UInt8.le_iff_toNat_le, UInt8.reduceToNat]
    split at lower <;> omega
  · intro c member
    have lower := lower c member
    simp only [isDigit, UInt8.le_iff_toNat_le, UInt8.reduceToNat, Bool.and_eq_false_iff,
      decide_eq_false_iff_not]
    split at lower <;> omega

theorem proper_changed (deps : MgmtDeps) {key : CString} {name : String} (v : UInt32)
    (same : ieq key name = true)
    (letters : ((ascii name).map toLower).all (fun c => 0x5f ≤ c && c ≤ 0x7a) = true)
    (short : (ascii name).length ≤ 15)
    (first : ∃ c ∈ ((ascii name).map toLower).head?, c ≠ 0x73) :
    ∃ r, Proper deps
      [ascii "+OK " ++ key.bytes ++ ascii " = " ++ decimal v.toNat ++ ascii "\n"] r := by
  rcases word_of_ieq same letters with ⟨length, printable, word, head⟩
  rcases first with ⟨lower, isFirst, notGreeting⟩
  have digits := length_decimal_le (k := 10) (by decide)
    (Nat.lt_trans v.toNat_lt (by decide : 2 ^ 32 < 10 ^ 10))
  rw [← head] at isFirst
  cases bytes : key.bytes with
  | nil => simp [bytes] at isFirst
  | cons c rest =>
      rw [bytes] at printable isFirst length word
      have lowered : toLower c = lower := by simpa using isFirst
      refine ⟨_, proper_single (ascii "+OK " ++ (c :: rest) ++ ascii " = " ++ decimal v.toNat)
        ?_ ?_ (.plain c (rest ++ ascii " = " ++ decimal v.toNat) ?_ ?_ ?_ rfl)⟩
      · simp only [List.length_append, length, show (ascii "+OK ").length = 4 by decide,
          show (ascii " = ").length = 3 by decide]
        omega
      · have begins : Printable (ascii "+OK ") := by decide
        have equals : Printable (ascii " = ") := by decide
        exact (((begins.append printable).append equals).append (printable_decimal _)).cleanLine
      · simp
      · exact word c (List.mem_cons_self ..)
      · rintro rfl
        exact notGreeting (lowered ▸ by decide)

theorem proper_cmdSet (deps : MgmtDeps) (args : List CString) :
    ∃ r, Proper deps (cmdSet deps args).2 r := by
  unfold cmdSet
  split
  · rename_i key value
    split
    · rename_i known
      split
      · exact proper_error (by decide) (by decide)
      · split
        · rw [Bool.or_eq_true, Bool.or_eq_true] at known
          rcases known with (same | same) | same
          · exact proper_changed deps _ same (by decide) (by decide) ⟨0x63, by decide, by decide⟩
          · exact proper_changed deps _ same (by decide) (by decide) ⟨0x69, by decide, by decide⟩
          · exact proper_changed deps _ same (by decide) (by decide) ⟨0x6d, by decide, by decide⟩
        · exact proper_error (by decide) (by decide)
    · exact proper_error (by decide) (by decide)
  · exact proper_error (by decide) (by decide)

theorem proper_cmdAddUser (deps : MgmtDeps) (args : List CString) :
    ∃ r, Proper deps (cmdAddUser deps args).2 r := by
  unfold cmdAddUser
  split
  · split
    · exact proper_error (by decide) (by decide)
    · split
      · exact proper_error (by decide) (by decide)
      · split
        · exact proper_plain (by decide) (by decide)
        · exact proper_error (by decide) (by decide)
  · exact proper_error (by decide) (by decide)

theorem proper_cmdDelUser (deps : MgmtDeps) (args : List CString) :
    ∃ r, Proper deps (cmdDelUser deps args).2 r := by
  unfold cmdDelUser
  split
  · split
    · exact proper_plain (by decide) (by decide)
    · exact proper_error (by decide) (by decide)
  · exact proper_error (by decide) (by decide)

theorem proper_cmdLog (deps : MgmtDeps) (args : List CString) :
    ∃ r, Proper deps (cmdLog deps args) r := by
  unfold cmdLog
  split
  · exact proper_logTexts deps 10
  · split
    · exact proper_error (by decide) (by decide)
    · exact proper_logTexts deps _
  · exact proper_error (by decide) (by decide)

theorem proper_cmdPasswd (deps : MgmtDeps) (args : List CString) :
    ∃ r, Proper deps (cmdPasswd deps args).2 r := by
  unfold cmdPasswd
  split
  · split
    · exact proper_plain (by decide) (by decide)
    · exact proper_error (by decide) (by decide)
  · exact proper_error (by decide) (by decide)

theorem proper_cmdAuth (s : MgmtSession) (deps : MgmtDeps) (args : List CString) :
    ∃ r, Proper deps (cmdAuth s deps args).2 r := by
  unfold cmdAuth
  split
  · exact proper_error (by decide) (by decide)
  · split
    · split
      · exact proper_plain (by decide) (by decide)
      · exact proper_error (by decide) (by decide)
    · exact proper_error (by decide) (by decide)

theorem proper_mgmtCommand (deps : MgmtDeps) (cmd : CString) (args : List CString) :
    ∃ r, Proper deps (mgmtCommand deps cmd args).2 r := by
  unfold mgmtCommand
  split
  · exact proper_error (by decide) (by decide)
  split
  · exact proper_cmdMetrics deps
  split
  · exact proper_cmdListUsers deps
  split
  · exact proper_cmdAddUser deps args
  split
  · exact proper_cmdDelUser deps args
  split
  · exact proper_cmdGetConfig deps
  split
  · exact proper_cmdSet deps args
  split
  · exact proper_cmdLog deps args
  split
  · exact proper_cmdPasswd deps args
  · exact proper_error (by decide) (by decide)

/-- Whatever a line asks for, it is answered with one response that fits. -/
theorem proper_mgmtHandleLine (s : MgmtSession) (deps : MgmtDeps) (line : CString) :
    ∃ r, Proper deps (mgmtHandleLine s deps line).printed r := by
  unfold mgmtHandleLine
  split
  · exact proper_error (by decide) (by decide)
  · rename_i cmd args _
    split
    · exact proper_error (by decide) (by decide)
    split
    · exact proper_plain (by decide) (by decide)
    split
    · exact proper_cmdHelp deps
    split
    · exact proper_cmdAuth s deps args
    split
    · exact proper_error (by decide) (by decide)
    · exact proper_mgmtCommand deps cmd args

end SocksProxy
