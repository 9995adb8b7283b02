import SocksProxy.Management.Service
import SocksProxy.Server.LogLines

/-!
# What each command prints

Which of the commands announce data lines, and that nothing they print would end
a C string too early. A command that tells something is answered with a count
and as many lines, any other with one line; an error is one line for all of them.
What is listed are names and lines of the log, so the names in the store decide
whether a client gets the lines back: they consist of visible characters as long
as they were given that way.
-/

namespace SocksProxy

theorem Printable.nul_not_mem {text : List UInt8} (printable : Printable text) : 0 ∉ text :=
  fun member => absurd (printable 0 member).1 (by decide)

/-- The texts a command prints. -/
inductive Prints (cmd : CString) : List (List UInt8) → Prop where
  | refusal {text : List UInt8} (refusal : isRefusal text = true) : Prints cmd [text]
  | line {text : List UInt8} (other : tells cmd = false) (nulFree : 0 ∉ text) : Prints cmd [text]
  | listing {texts : List (List UInt8)} (word : tells cmd = true)
      (nulFree : ∀ text ∈ texts, 0 ∉ text) : Prints cmd (countText texts.length :: texts)

theorem Prints.of_tail {cmd : CString} {printed : List (List UInt8)} (word : tells cmd = true)
    (counted : printed = countText printed.tail.length :: printed.tail)
    (nulFree : ∀ text ∈ printed.tail, 0 ∉ text) : Prints cmd printed := by
  rw [counted]
  exact .listing word nulFree

section

variable {deps : MgmtDeps} {cmd : CString} {args : List CString}

theorem tells_eq_false {name : String} (word : ieq cmd name = true)
    (other : (ascii name).map toLower ∉
      ["HELP", "METRICS", "LIST-USERS", "GET-CONFIG", "LOG"].map fun told =>
        (ascii told).map toLower) : tells cmd = false := by
  simp only [List.map_cons, List.map_nil, List.mem_cons, List.not_mem_nil, or_false,
    not_or] at other
  rcases other with ⟨help, metrics, listUsers, getConfig, log⟩
  have differs : ∀ told : String, (ascii name).map toLower ≠ (ascii told).map toLower →
      ieq cmd told = false := by
    intro told different
    rw [Bool.eq_false_iff]
    exact fun same => different (lower_eq_of_ieq word same)
  simp only [tells, differs _ help, differs _ metrics, differs _ listUsers, differs _ getConfig,
    differs _ log, Bool.or_self]

theorem nul_not_mem_fieldText {name : String} (printable : Printable (ascii name)) (value : Nat) :
    0 ∉ fieldText name value := by
  have digits := (printable_decimal value).nul_not_mem
  have blank : 0 ∉ ascii " " := by decide
  have ended : 0 ∉ ascii "\n" := by decide
  simp only [fieldText, List.mem_append, not_or]
  exact ⟨⟨⟨printable.nul_not_mem, blank⟩, digits⟩, ended⟩

theorem prints_cmdMetrics (word : tells cmd = true) : Prints cmd (cmdMetrics deps) := by
  have count : ascii "+OK 7\n" = countText 7 := by decide
  refine .of_tail word (by rw [cmdMetrics, count]; rfl) ?_
  simp only [cmdMetrics, List.tail_cons, List.forall_mem_cons]
  refine ⟨?_, ?_, ?_, ?_, ?_, ?_, ?_, List.forall_mem_nil _⟩ <;>
    exact nul_not_mem_fieldText (by decide) _

theorem prints_cmdGetConfig (word : tells cmd = true) : Prints cmd (cmdGetConfig deps) := by
  have count : ascii "+OK 3\n" = countText 3 := by decide
  refine .of_tail word (by rw [cmdGetConfig, count]; rfl) ?_
  simp only [cmdGetConfig, List.tail_cons, List.forall_mem_cons]
  refine ⟨?_, ?_, ?_, List.forall_mem_nil _⟩ <;> exact nul_not_mem_fieldText (by decide) _

theorem prints_cmdHelp (word : tells cmd = true) : Prints cmd cmdHelp :=
  .of_tail word (by decide) (by decide)

theorem prints_cmdListUsers (word : tells cmd = true) : Prints cmd (cmdListUsers deps) := by
  refine .of_tail word (by simp [cmdListUsers]) fun text member => ?_
  simp only [cmdListUsers, List.tail_cons, List.mem_map] at member
  rcases member with ⟨i, -, rfl⟩
  have ended : 0 ∉ ascii "\n" := by decide
  rw [List.mem_append, not_or]
  refine ⟨?_, ended⟩
  unfold usersNameAt
  split
  · exact CharArray.nul_not_mem_text _
  · simp

theorem nul_not_mem_stripNewline (line : List UInt8) : 0 ∉ stripNewline line := by
  intro member
  have inside : 0 ∈ cText line := (List.rdropWhile_prefix _ (cText line)).subset member
  simpa using List.mem_takeWhile_imp inside

theorem prints_logTexts (word : tells cmd = true) (n : UInt32) : Prints cmd (logTexts deps n) := by
  refine .of_tail word (by simp [logTexts, length_storedLines]) fun text member => ?_
  simp only [logTexts, List.tail_cons, List.mem_map] at member
  rcases member with ⟨line, listed, rfl⟩
  rcases exists_read_of_stored listed with ⟨read, -, rfl⟩
  have ended : 0 ∉ ascii "\n" := by decide
  rw [List.mem_append, not_or]
  exact ⟨nul_not_mem_stripNewline read, ended⟩

theorem prints_cmdLog (word : tells cmd = true) : Prints cmd (cmdLog deps args) := by
  unfold cmdLog
  split
  · exact prints_logTexts word 10
  · split
    · exact .refusal (by decide)
    · exact prints_logTexts word _
  · exact .refusal (by decide)

theorem prints_cmdAddUser (other : tells cmd = false) : Prints cmd (cmdAddUser deps args).2 := by
  unfold cmdAddUser
  split
  · split
    · exact .refusal (by decide)
    · split
      · exact .refusal (by decide)
      · split
        · exact .line other (by decide)
        · exact .refusal (by decide)
  · exact .refusal (by decide)

theorem prints_cmdDelUser (other : tells cmd = false) : Prints cmd (cmdDelUser deps args).2 := by
  unfold cmdDelUser
  split
  · split
    · exact .line other (by decide)
    · exact .refusal (by decide)
  · exact .refusal (by decide)

theorem prints_cmdSet (other : tells cmd = false) : Prints cmd (cmdSet deps args).2 := by
  unfold cmdSet
  split
  · rename_i key value
    split
    · split
      · exact .refusal (by decide)
      · rename_i v _
        split
        · have begins : 0 ∉ ascii "+OK " := by decide
          have equals : 0 ∉ ascii " = " := by decide
          have ended : 0 ∉ ascii "\n" := by decide
          have digits := (printable_decimal v.toNat).nul_not_mem
          refine .line other ?_
          simp only [List.mem_append, not_or]
          exact ⟨⟨⟨⟨begins, key.nulFree⟩, equals⟩, digits⟩, ended⟩
        · exact .refusal (by decide)
    · exact .refusal (by decide)
  · exact .refusal (by decide)

theorem prints_cmdPasswd (other : tells cmd = false) : Prints cmd (cmdPasswd deps args).2 := by
  unfold cmdPasswd
  split
  · split
    · exact .line other (by decide)
    · exact .refusal (by decide)
  · exact .refusal (by decide)

theorem prints_cmdAuth {s : MgmtSession} (other : tells cmd = false) :
    Prints cmd (cmdAuth s deps args).2 := by
  unfold cmdAuth
  split
  · exact .refusal (by decide)
  · split
    · split
      · exact .line other (by decide)
      · exact .refusal (by decide)
    · exact .refusal (by decide)

theorem prints_mgmtCommand : Prints cmd (mgmtCommand deps cmd args).2 := by
  unfold mgmtCommand
  split
  · exact .refusal (by decide)
  split
  · next word => exact prints_cmdMetrics (by simp [tells, word])
  split
  · next word => exact prints_cmdListUsers (by simp [tells, word])
  split
  · next word => exact prints_cmdAddUser (tells_eq_false word (by decide))
  split
  · next word => exact prints_cmdDelUser (tells_eq_false word (by decide))
  split
  · next word => exact prints_cmdGetConfig (by simp [tells, word])
  split
  · next word => exact prints_cmdSet (tells_eq_false word (by decide))
  split
  · next word => exact prints_cmdLog (by simp [tells, word])
  split
  · next word => exact prints_cmdPasswd (tells_eq_false word (by decide))
  · exact .refusal (by decide)

end

/-- Every command prints an error, one line, or as many lines as it announces. -/
theorem prints_mgmtHandleLine (s : MgmtSession) (deps : MgmtDeps) {line cmd : CString}
    {args : List CString} (words : mgmtTokenize 5 line = cmd :: args) :
    Prints cmd (mgmtHandleLine s deps line).printed := by
  simp only [mgmtHandleLine, words]
  split
  · exact .refusal (by decide)
  split
  · next word => exact .line (tells_eq_false word (by decide)) (by decide)
  split
  · next word => exact prints_cmdHelp (by simp [tells, word])
  split
  · next word => exact prints_cmdAuth (tells_eq_false word (by decide))
  split
  · exact .refusal (by decide)
  · exact prints_mgmtCommand

namespace Prints

variable {deps : MgmtDeps} {cmd : CString} {printed : List (List UInt8)} {r : Response}

theorem nulFree (prints : Prints cmd printed) : ∀ text ∈ printed, 0 ∉ text := by
  cases prints with
  | @refusal text refusal =>
      rw [isRefusal, Bool.and_eq_true] at refusal
      have short := refusal.2
      rcases isShortLine_iff short with ⟨ended, -, -⟩
      simp only [isShortLine, Bool.and_eq_true, decide_eq_true_eq, List.all_eq_true] at short
      have printable : Printable text.dropLast := short.2
      rw [List.forall_mem_singleton, ended, List.mem_append, not_or]
      exact ⟨printable.nul_not_mem, by decide⟩
  | line _ nulFree => exact List.forall_mem_singleton.mpr nulFree
  | @listing texts _ nulFree =>
      rw [List.forall_mem_cons]
      refine ⟨?_, nulFree⟩
      have begins : 0 ∉ ascii "+OK " := by decide
      have ended : 0 ∉ ascii "\n" := by decide
      simp only [countText, List.mem_append, not_or]
      exact ⟨⟨begins, (printable_decimal _).nul_not_mem⟩, ended⟩

theorem nulFree_lines (prints : Prints cmd printed) (texts : printed = r.texts) :
    ∀ line ∈ r.lines, 0 ∉ line := by
  intro line member nul
  have text : line ++ [LF] ∈ printed := by
    rw [texts]
    exact List.mem_map_of_mem member
  exact prints.nulFree _ text (List.mem_append_left _ nul)

theorem single {text : List UInt8} (texts : [text] = r.texts) :
    text = r.status ++ [LF] ∧ r.data = [] := by
  simp only [Response.texts, Response.lines, List.map_cons, List.cons.injEq] at texts
  exact ⟨texts.1, List.map_eq_nil_iff.mp texts.2.symm⟩

theorem counted (prints : Prints cmd printed) (texts : printed = r.texts)
    (word : tells cmd = true) (success : ascii "+OK" <+: r.status) :
    r.status = ascii "+OK " ++ decimal r.data.length := by
  cases prints with
  | refusal refusal =>
      rcases line_of_isRefusal refusal with ⟨error, -, -⟩
      have begins := success.trans (List.prefix_append r.status [LF])
      rw [← (single texts).1] at begins
      exact absurd error (not_refused_of_begins begins)
  | line other => rw [word] at other; cases other
  | listing =>
      simp only [Response.texts, Response.lines, List.map_cons, List.cons.injEq] at texts
      rw [texts.2, List.length_map] at texts
      exact (List.append_cancel_right texts.1).symm

/-- A command that tells nothing and an error have no data lines. -/
theorem alone (prints : Prints cmd printed) (texts : printed = r.texts)
    (other : tells cmd = false ∨ ¬ascii "+OK" <+: r.status) : r.data = [] := by
  cases prints with
  | refusal | line => exact (single texts).2
  | @listing data word =>
      simp only [Response.texts, Response.lines, List.map_cons, List.cons.injEq] at texts
      rcases other with other | failure
      · rw [word] at other
        cases other
      · refine absurd ?_ failure
        have status := List.append_cancel_right texts.1
        rw [← status]
        exact ⟨ascii " " ++ decimal data.length, rfl⟩

end Prints

/-! ## Names -/

/-- The names of the store consist of visible characters. -/
def MgmtDeps.Legible (deps : MgmtDeps) : Prop := ∀ name ∈ deps.users.names, Visible name

theorem MgmtDeps.Legible.tidy {deps : MgmtDeps} (legible : deps.Legible) : deps.Tidy :=
  fun name member => (legible name member).printable.cleanLine

/-- The words of a line consist of visible characters. -/
def Line.Legible (line : Line) : Prop := ∀ word ∈ line.tokens, Visible word.bytes

theorem Effect.legible {session : MgmtSession} {deps : MgmtDeps} {tokens : List CString}
    {r : LineResult} (effect : Effect session deps tokens r) (legible : deps.Legible)
    (visible : ∀ word ∈ tokens, Visible word.bytes) : r.deps.Legible := by
  cases effect with
  | quit | tell | auth | set | passwd => exact legible
  | @addUser _ name pass users _ _ _ _ _ _ accounts =>
      have names : users.names = deps.users.names ++ [name.bytes] := by
        rw [Users.names, accounts, List.map_append]
        rfl
      intro other member
      change other ∈ users.names at member
      rw [names, List.mem_append, List.mem_singleton] at member
      rcases member with old | rfl
      · exact legible other old
      · exact visible name (by simp)
  | @delUser _ name users _ _ _ _ accounts =>
      intro other member
      change other ∈ users.names at member
      rw [Users.names, accounts] at member
      exact legible other ((List.filter_sublist.map Prod.fst).subset member)

/-- A session that is told only visible words keeps the names visible. -/
theorem Sequential.legible_answer {s : Sequential} (isRoster : s.deps.users.IsRoster)
    (legible : s.deps.Legible) {line : Line} (visible : line.Legible) :
    (s.answer line).deps.Legible := by
  unfold Sequential.answer
  split
  · exact legible
  · rcases Line.settled s.session isRoster line with ⟨-, -, same, -⟩ | ⟨effect, -⟩
    · change MgmtDeps.Legible (line.answer s.session s.deps).deps
      rwa [same]
    · exact effect.legible legible visible

end SocksProxy
