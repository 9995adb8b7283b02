import SocksProxy.Library.Framing
import SocksProxy.Server.Users
import SocksProxy.Shared.Buffer

/-!
# Management lines

`mgmt_parser.c`: the reentrant line parser of SMCP and its tokenizer. Of the
array `line` only the first `len` cells are ever read, so the parser keeps those;
that they fit and that each of them is printable or a carriage return is part of
the structure.

`Line.classify` says what a line comes to by looking at all of its bytes; the
parser comes to the same byte by byte.
-/

namespace SocksProxy

def MGMT_LINE_MAX : Nat := 4096

def LF : UInt8 := 0x0A

def CR : UInt8 := 0x0D

def SP : UInt8 := 0x20

/-- What the line parser stores: printable ASCII, and carriage returns. -/
def isLineByte (c : UInt8) : Bool := c = CR || (0x20 ≤ c && c ≤ 0x7e)

/-- `mgmt_line_state`. -/
inductive MgmtLineState where
  | incomplete
  | ready
  | tooLong
  | invalid
  deriving DecidableEq, Repr

/-- `struct mgmt_parser`. -/
structure MgmtParser where
  line : List UInt8
  overflow : Bool
  invalid : Bool
  length_le : line.length ≤ MGMT_LINE_MAX - 1
  stored : ∀ c ∈ line, isLineByte c = true

/-- `mgmt_parser_init`. -/
def mgmtParserInit : MgmtParser where
  line := []
  overflow := false
  invalid := false
  length_le := Nat.zero_le _
  stored := by simp

/-- `mgmt_parser_reset`. -/
def mgmtParserReset (_ : MgmtParser) : MgmtParser := mgmtParserInit

namespace MgmtParser

/-- The loop body of `mgmt_parser_feed` for a byte that does not end the line. -/
def push (p : MgmtParser) (c : UInt8) : MgmtParser :=
  if p.overflow || p.invalid then p
  else if printable : isLineByte c = false then { p with invalid := true }
  else if room : MGMT_LINE_MAX - 1 ≤ p.line.length then { p with overflow := true }
  else
    { p with
      line := p.line ++ [c]
      length_le := by
        rw [List.length_append, List.length_singleton]
        omega
      stored := by
        intro byte member
        rcases List.mem_append.mp member with earlier | latest
        · exact p.stored byte earlier
        · rw [List.mem_singleton.mp latest]
          exact Bool.not_eq_false _ ▸ printable }

/-- `line` without one trailing carriage return. -/
def chomp (p : MgmtParser) : MgmtParser :=
  if p.line.getLast? = some CR then
    { p with
      line := p.line.dropLast
      length_le := Nat.le_trans (by simp) p.length_le
      stored := fun c member => p.stored c ((List.dropLast_sublist _).subset member) }
  else p

/-- What a line feed makes of the line. -/
def finish (p : MgmtParser) : MgmtLineState × MgmtParser :=
  if p.overflow then (.tooLong, p)
  else if p.invalid then (.invalid, p)
  else (.ready, p.chomp)

/-- The accumulated line as a C string: no byte that is stored is NUL. -/
def text (p : MgmtParser) : CString where
  bytes := p.line
  nulFree := by
    intro nul
    exact absurd (p.stored 0 nul) (by decide)

end MgmtParser

/-- The parser while it is fed, and what the feed is to return. -/
structure MgmtFeed where
  parser : MgmtParser
  state : MgmtLineState

namespace MgmtFeed

/-- The loop body of `mgmt_parser_feed`. -/
def step (f : MgmtFeed) (c : UInt8) : MgmtFeed :=
  if c = LF then ⟨f.parser.finish.2, f.parser.finish.1⟩ else { f with parser := f.parser.push c }

/-- The line parser as a byte consumer. -/
def consumer : Consumer MgmtFeed UInt8 where
  step := step
  final f := f.state ≠ .incomplete

/-- A feed starts without a result. -/
def start (p : MgmtParser) : MgmtFeed := ⟨p, .incomplete⟩

end MgmtFeed

/-- `mgmt_parser_feed`. -/
def mgmtParserFeed (p : MgmtParser) (b : Buffer) : MgmtFeed × Buffer :=
  b.feed MgmtFeed.consumer (MgmtFeed.start p)

namespace CString

/-- The string without its first bytes that are `c`. -/
def skip (s : CString) (c : UInt8) : CString where
  bytes := s.bytes.dropWhile fun byte => byte == c
  nulFree := fun nul => s.nulFree ((List.dropWhile_suffix _).subset nul)

/-- The string up to the first `c`. -/
def upTo (s : CString) (c : UInt8) : CString where
  bytes := s.bytes.takeWhile fun byte => byte != c
  nulFree := fun nul => s.nulFree ((List.takeWhile_prefix _).subset nul)

/-- The string after the first `c`. -/
def after (s : CString) (c : UInt8) : CString where
  bytes := (s.bytes.dropWhile fun byte => byte != c).drop 1
  nulFree := fun nul =>
    s.nulFree ((List.dropWhile_suffix _).subset ((List.drop_suffix 1 _).subset nul))

end CString

/-- `mgmt_tokenize`, for an argument vector of `maxArgs` slots. -/
def mgmtTokenize : Nat → CString → List CString
  | 0, _ => []
  | maxArgs + 1, s =>
      if (s.skip SP).bytes = [] then []
      else (s.skip SP).upTo SP :: mgmtTokenize maxArgs ((s.skip SP).after SP)

/-! ## Whole lines -/

/-- A terminated line, as it is answered. -/
inductive Line where
  | ready (text : CString)
  | tooLong
  | invalid

namespace Line

/-- A byte that no line may contain is among those that are looked at. -/
def spoilt (content : List UInt8) : Bool :=
  (content.take MGMT_LINE_MAX).any fun c => !isLineByte c

/-- One trailing carriage return is not part of the line. -/
def chomp (content : List UInt8) : List UInt8 :=
  if content.getLast? = some CR then content.dropLast else content

theorem nul_not_mem_chomp {content : List UInt8} (clean : spoilt content = false)
    (short : content.length < MGMT_LINE_MAX) : 0 ∉ chomp content := by
  intro nul
  have inside : 0 ∈ content := by
    unfold chomp at nul
    split at nul
    · exact (List.dropLast_sublist _).subset nul
    · exact nul
  rw [spoilt, List.take_of_length_le (Nat.le_of_lt short), List.any_eq_false] at clean
  exact clean 0 inside (by decide)

/-- What a line comes to: a byte that is neither printable nor a carriage return makes it invalid,
unless so many bytes come before it that the line is too long already. -/
def classify (content : List UInt8) : Line :=
  if clean : spoilt content = false then
    if short : content.length < MGMT_LINE_MAX then
      .ready ⟨chomp content, nul_not_mem_chomp clean short⟩
    else .tooLong
  else .invalid

theorem spoilt_append (content : List UInt8) (c : UInt8) :
    spoilt (content ++ [c]) =
      (spoilt content || (decide (content.length < MGMT_LINE_MAX) && !isLineByte c)) := by
  by_cases room : content.length < MGMT_LINE_MAX
  · have cut : (content ++ [c]).take MGMT_LINE_MAX = content ++ [c] :=
      List.take_of_length_le (by simpa using Nat.succ_le_of_lt room)
    have whole : content.take MGMT_LINE_MAX = content := List.take_of_length_le (Nat.le_of_lt room)
    simp [spoilt, cut, whole, room]
  · have cut : (content ++ [c]).take MGMT_LINE_MAX = content.take MGMT_LINE_MAX :=
      List.take_append_of_le_length (by omega)
    simp [spoilt, cut, room]

end Line

namespace MgmtParser

/-- What the parser makes of the beginning of a line. -/
structure Holds (p : MgmtParser) (content : List UInt8) : Prop where
  invalid_eq : p.invalid = Line.spoilt content
  overflow_eq : p.overflow = (!Line.spoilt content && decide (MGMT_LINE_MAX ≤ content.length))
  line_eq : p.overflow = false → p.invalid = false → p.line = content

theorem holds_init : mgmtParserInit.Holds [] := ⟨rfl, by decide, fun _ _ => rfl⟩

theorem Holds.push {p : MgmtParser} {content : List UInt8} (holds : p.Holds content) (c : UInt8) :
    (p.push c).Holds (content ++ [c]) := by
  have spoilt := Line.spoilt_append content c
  unfold MgmtParser.push
  split
  · -- Nothing is stored any more, and the line stays what it is.
    rename_i discarding
    have settled : Line.spoilt content = true ∨ MGMT_LINE_MAX ≤ content.length := by
      rw [holds.overflow_eq, holds.invalid_eq] at discarding
      by_contra neither
      simp only [not_or, Bool.not_eq_true] at neither
      simp [neither] at discarding
    have same : Line.spoilt (content ++ [c]) = Line.spoilt content := by
      rw [spoilt]
      rcases settled with bad | long
      · simp [bad]
      · simp [Nat.not_lt.mpr long]
    refine ⟨holds.invalid_eq.trans same.symm, ?_, ?_⟩
    · rw [holds.overflow_eq, same]
      rcases settled with bad | long
      · simp [bad]
      · simp [long, Nat.le_succ_of_le long]
    · intro fits clean
      simp [fits, clean] at discarding
  · -- The octet is refused, is one too many, or is stored.
    rename_i storing
    simp only [Bool.or_eq_true, not_or, Bool.not_eq_true] at storing
    have line := holds.line_eq storing.1 storing.2
    have clean : Line.spoilt content = false := holds.invalid_eq ▸ storing.2
    have short : content.length < MGMT_LINE_MAX := by
      have overflow := holds.overflow_eq
      rw [storing.1, clean] at overflow
      simpa using overflow
    simp only [clean, Bool.false_or, short, decide_true, Bool.true_and] at spoilt
    split
    · rename_i unprintable
      rw [unprintable] at spoilt
      exact ⟨spoilt.symm, by simp [storing, spoilt], by simp⟩
    · rename_i printable
      rw [Bool.not_eq_false] at printable
      rw [printable] at spoilt
      split
      · rename_i full
        rw [line] at full
        refine ⟨storing.2.trans spoilt.symm, ?_, by simp⟩
        have long : MGMT_LINE_MAX ≤ (content ++ [c]).length := by
          rw [List.length_append, List.length_singleton]
          omega
        rw [decide_eq_true long, spoilt]
        rfl
      · rename_i room
        rw [line] at room
        refine ⟨storing.2.trans spoilt.symm, ?_, fun _ _ => congrArg (· ++ [c]) line⟩
        have fits : ¬ MGMT_LINE_MAX ≤ (content ++ [c]).length := by
          rw [List.length_append, List.length_singleton]
          omega
        rw [decide_eq_false fits, Bool.and_false]
        exact storing.1

theorem finish_ne_incomplete (p : MgmtParser) : p.finish.1 ≠ .incomplete := by
  unfold finish
  split
  · simp
  · split <;> simp

theorem Holds.pushAll {p : MgmtParser} {content : List UInt8} (holds : p.Holds content)
    (more : List UInt8) : (more.foldl MgmtParser.push p).Holds (content ++ more) := by
  induction more generalizing p content with
  | nil => simpa using holds
  | cons c more ih => simpa using ih (holds.push c)

/-- The answerable line of a parser that has seen the line feed. -/
def verdict (p : MgmtParser) : Line :=
  match p.finish.1 with
  | .tooLong => .tooLong
  | .invalid => .invalid
  | _ => .ready p.finish.2.text

theorem Holds.verdict_eq {p : MgmtParser} {content : List UInt8} (holds : p.Holds content) :
    p.verdict = Line.classify content := by
  unfold verdict finish Line.classify
  rw [holds.overflow_eq, holds.invalid_eq]
  by_cases clean : Line.spoilt content = false
  · by_cases short : content.length < MGMT_LINE_MAX
    · have line : p.line = content := by
        refine holds.line_eq ?_ (holds.invalid_eq.trans clean)
        rw [holds.overflow_eq, decide_eq_false (Nat.not_le.mpr short), Bool.and_false]
      simp only [clean, short, Nat.not_le.mpr short, dif_pos, Bool.not_false, Bool.true_and,
        decide_false, Bool.false_eq_true, if_false]
      congr 1
      simp only [text, chomp, Line.chomp, line, CString.mk.injEq]
      split <;> simp_all
    · simp [clean, short, Nat.not_lt.mp short]
  · simp [clean]

end MgmtParser

namespace MgmtFeed

theorem step_of_ne {f : MgmtFeed} {c : UInt8} (other : c ≠ LF) :
    f.step c = { f with parser := f.parser.push c } := by
  rw [step, if_neg other]

theorem consume_content (p : MgmtParser) {content : List UInt8} (unended : LF ∉ content) :
    consumer.consume (start p) content = (start (content.foldl MgmtParser.push p), []) := by
  induction content generalizing p with
  | nil => rfl
  | cons c content ih =>
      rw [List.mem_cons, not_or] at unended
      rw [consumer.consume_cons rfl]
      simp only [consumer, step_of_ne (Ne.symm unended.1)]
      exact ih (p.push c) unended.2

theorem consume_line (p : MgmtParser) {content : List UInt8} (unended : LF ∉ content)
    (rest : List UInt8) :
    consumer.consume (start p) (content ++ LF :: rest) =
      (⟨(content.foldl MgmtParser.push p).finish.2, (content.foldl MgmtParser.push p).finish.1⟩,
        rest) := by
  rw [consumer.consume_append_of_running (consume_content p unended) rfl, consumer.consume_cons rfl]
  apply consumer.consume_final
  simp [consumer, step, start, MgmtParser.finish_ne_incomplete]

end MgmtFeed

end SocksProxy
