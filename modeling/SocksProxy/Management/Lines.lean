import Mathlib.Data.List.Forall2
import SocksProxy.Server.MgmtParser
import SocksProxy.Shared.Text

/-!
# The line reader

The line parser as its header says it is to be used: feed it, look at what it
reports, reset it, and go on until it asks for more input. Whatever pieces a
stream comes in, there is one report for each line feed, in order, and it depends
on the bytes of that line alone: `Line.classify` says how.

The protocol document says what the reports should be, which is `Line.documented`
here. The parser agrees with it on regular lines and on no others: a line that is
not too long has no carriage return before its last byte, unless another byte
spoils it anyway, and a line that is too long has no byte that spoils it.
-/

namespace SocksProxy

/-- What a call of `mgmt_parser_feed` reports, with the line if there is one. -/
def MgmtFeed.line (f : MgmtFeed) : Option Line :=
  match f.state with
  | .incomplete => none
  | .ready => some (.ready f.parser.text)
  | .tooLong => some .tooLong
  | .invalid => some .invalid

/-- Feed and reset until no line is complete; every round but the last takes a line feed. -/
def readLinesLoop : Nat → MgmtParser → Buffer → Option (List Line × MgmtParser)
  | 0, _, _ => none
  | rounds + 1, p, b =>
      let (f, rest) := mgmtParserFeed p b
      match f.line with
      | none => some ([], f.parser)
      | some line =>
          (readLinesLoop rounds (mgmtParserReset f.parser) rest).map fun (lines, p) =>
            (line :: lines, p)

def readLines (p : MgmtParser) (b : Buffer) : Option (List Line × MgmtParser) :=
  readLinesLoop (b.pending + 1) p b

/-- Read lines from buffers that are filled one after the other. -/
def readChunks : MgmtParser → List Buffer → Option (List Line × MgmtParser)
  | p, [] => some ([], p)
  | p, b :: chunks =>
      match readLines p b with
      | none => none
      | some (lines, p) =>
          (readChunks p chunks).map fun (later, p) => (lines ++ later, p)

/-- The stream that arrives in some buffers. -/
def streamOf (chunks : List Buffer) : List UInt8 := (chunks.map Buffer.contents).flatten

theorem MgmtParser.line_finish (p : MgmtParser) :
    MgmtFeed.line ⟨p.finish.2, p.finish.1⟩ = some p.verdict := by
  unfold MgmtParser.verdict MgmtParser.finish
  split
  · rfl
  · split <;> rfl

theorem readLinesLoop_eq {p : MgmtParser} {current : List UInt8} (holds : p.Holds current)
    (begun : LF ∉ current) {rounds : Nat} {b : Buffer} (enough : b.contents.length < rounds) :
    ∃ p', readLinesLoop rounds p b =
        some ((Framing.cut LF (current ++ b.contents)).1.map Line.classify, p') ∧
      p'.Holds (Framing.cut LF (current ++ b.contents)).2 := by
  induction rounds generalizing p current b with
  | zero => simp at enough
  | succ rounds ih =>
      by_cases ended : LF ∈ b.contents
      · rcases List.eq_append_cons_of_mem ended with ⟨content, rest, split, unended⟩
        let q := content.foldl MgmtParser.push p
        have fed := MgmtFeed.consume_line p unended rest
        have state : (mgmtParserFeed p b).1 = ⟨q.finish.2, q.finish.1⟩ := by
          rw [mgmtParserFeed, Buffer.feed_state, split, fed]
        have left : (mgmtParserFeed p b).2.contents = rest := by
          rw [mgmtParserFeed, Buffer.feed_contents, split, fed]
        have fewer : (mgmtParserFeed p b).2.contents.length < rounds := by
          rw [split, List.length_append, List.length_cons] at enough
          rw [left]
          omega
        rcases ih MgmtParser.holds_init (by simp) fewer with ⟨p', later, held⟩
        rw [left, List.nil_append] at later held
        have verdict : q.verdict = Line.classify (current ++ content) :=
          (holds.pushAll content).verdict_eq
        have first : LF ∉ current ++ content := by
          rw [List.mem_append, not_or]
          exact ⟨begun, unended⟩
        have cut := Framing.cut_body LF first rest
        rw [List.append_assoc] at cut
        refine ⟨p', ?_, by rwa [split, cut]⟩
        simp only [readLinesLoop, state, q.line_finish, mgmtParserReset, later, Option.map_some,
          split, cut, List.map_cons, verdict]
      · have fed := MgmtFeed.consume_content p ended
        have state : (mgmtParserFeed p b).1 =
            MgmtFeed.start (b.contents.foldl MgmtParser.push p) := by
          rw [mgmtParserFeed, Buffer.feed_state, fed]
        have whole : LF ∉ current ++ b.contents := by
          rw [List.mem_append, not_or]
          exact ⟨begun, ended⟩
        rw [Framing.cut_of_not_mem LF whole]
        refine ⟨b.contents.foldl MgmtParser.push p, ?_, holds.pushAll _⟩
        simp only [readLinesLoop, state]
        rfl

/-- Reading chunk after chunk reports the lines of the whole stream. -/
theorem readChunks_eq {p : MgmtParser} {current : List UInt8} (holds : p.Holds current)
    (begun : LF ∉ current) (chunks : List Buffer) :
    ∃ p', readChunks p chunks =
        some ((Framing.cut LF (current ++ streamOf chunks)).1.map Line.classify, p') ∧
      p'.Holds (Framing.cut LF (current ++ streamOf chunks)).2 := by
  induction chunks generalizing p current with
  | nil =>
      refine ⟨p, ?_, ?_⟩ <;>
        simp only [streamOf, List.map_nil, List.flatten_nil, List.append_nil,
          Framing.cut_of_not_mem LF begun]
      · rfl
      · exact holds
  | cons b chunks ih =>
      have enough : b.contents.length < b.pending + 1 := by
        rw [Buffer.length_contents]
        exact Nat.lt_succ_self _
      rcases readLinesLoop_eq holds begun enough with ⟨p₁, read, held⟩
      have unended := (Framing.join_cut LF (current ++ b.contents)).2.2
      rcases ih held unended with ⟨p₂, later, held₂⟩
      have cut := Framing.cut_append LF (current ++ b.contents) (streamOf chunks)
      rw [List.append_assoc] at cut
      have stream : streamOf (b :: chunks) = b.contents ++ streamOf chunks := rfl
      refine ⟨p₂, ?_, by rwa [stream, cut]⟩
      simp only [readChunks, readLines, read, later, Option.map_some, stream, cut, List.map_append]

/-! ## The document -/

namespace Line

/-- What the protocol document says about the bytes before a line feed: with the line feed they must
not exceed 4096 bytes, a carriage return at the end is dropped, and what is left must be printable
ASCII. -/
def documented (content : List UInt8) : Line :=
  if MGMT_LINE_MAX < content.length + 1 then .tooLong
  else if printable : Printable (chomp content) then
    .ready ⟨chomp content, fun nul => absurd (printable 0 nul).1 (by decide)⟩
  else .invalid

/-- A line on which the parser does what the document says. -/
def Regular (content : List UInt8) : Prop :=
  if content.length < MGMT_LINE_MAX then spoilt content = true ∨ CR ∉ content.dropLast
  else spoilt content = false

instance (content : List UInt8) : Decidable (Regular content) :=
  inferInstanceAs (Decidable (if content.length < MGMT_LINE_MAX then
    spoilt content = true ∨ CR ∉ content.dropLast else spoilt content = false))

theorem isLineByte_iff {c : UInt8} : isLineByte c = true ↔ c = CR ∨ 0x20 ≤ c ∧ c ≤ 0x7e := by
  simp [isLineByte]

/-- Once a trailing carriage return is dropped, what is stored is printable unless a byte spoils it
or another carriage return is left. -/
theorem printable_chomp_iff {content : List UInt8} (short : content.length < MGMT_LINE_MAX) :
    Printable (chomp content) ↔ spoilt content = false ∧ CR ∉ content.dropLast := by
  rw [Printable, spoilt, List.take_of_length_le (Nat.le_of_lt short), List.any_eq_false]
  simp only [Bool.not_eq_true', Bool.not_eq_false, isLineByte_iff]
  rcases List.eq_nil_or_concat content with rfl | ⟨front, last, rfl⟩
  · simp [chomp]
  · have front_iff : (∀ c ∈ front, 0x20 ≤ c ∧ c ≤ 0x7e) ↔
        (∀ c ∈ front, c = CR ∨ 0x20 ≤ c ∧ c ≤ 0x7e) ∧ CR ∉ front := by
      constructor
      · intro printable
        exact ⟨fun c member => .inr (printable c member),
          fun carriage => absurd (printable CR carriage).1 (by decide)⟩
      · rintro ⟨bytes, inner⟩ c member
        exact (bytes c member).resolve_left fun carriage => inner (carriage ▸ member)
    rw [List.concat_eq_append, chomp, List.getLast?_concat, List.dropLast_concat,
      List.forall_mem_append]
    by_cases carriage : last = CR
    · rw [if_pos (congrArg some carriage), front_iff]
      simp [carriage]
    · rw [if_neg (by simpa using carriage), List.forall_mem_append, front_iff]
      simp [carriage, and_right_comm]

/-- The parser reports what the document says exactly on the regular lines. -/
theorem classify_eq_documented_iff (content : List UInt8) :
    classify content = documented content ↔ Regular content := by
  unfold classify documented Regular
  by_cases short : content.length < MGMT_LINE_MAX
  · have printable := printable_chomp_iff short
    rw [if_pos short, if_neg (by omega)]
    by_cases clean : spoilt content = false
    · rw [dif_pos clean, dif_pos short, clean]
      by_cases inner : CR ∉ content.dropLast
      · rw [dif_pos (printable.mpr ⟨clean, inner⟩)]
        exact iff_of_true rfl (.inr inner)
      · rw [dif_neg fun plain => inner (printable.mp plain).2]
        exact iff_of_false Line.noConfusion (by simp [inner])
    · rw [dif_neg clean, dif_neg fun plain => clean (printable.mp plain).1]
      exact iff_of_true rfl (.inl (by simpa using clean))
  · rw [if_neg short, if_pos (show MGMT_LINE_MAX < content.length + 1 by omega)]
    by_cases clean : spoilt content = false
    · rw [dif_pos clean, dif_neg short]
      exact iff_of_true rfl clean
    · rw [dif_neg clean]
      exact iff_of_false Line.noConfusion clean

end Line

/-- The line reader accepts what the document says. For every stream and every way of cutting it
into pieces there is one report for each line feed, in order, that does not depend on the pieces;
a line is reported as the document says exactly if it is regular, whatever the lines before it were;
and the array for the line is never filled past its last cell but one. -/
theorem line_reader_as_documented (chunks : List Buffer) :
    ∃ lines p, readChunks mgmtParserInit chunks = some (lines, p) ∧
      (∀ others, streamOf others = streamOf chunks →
        (readChunks mgmtParserInit others).map Prod.fst = some lines) ∧
      List.Forall₂ (fun content line => line = Line.documented content ↔ Line.Regular content)
        (Framing.cut LF (streamOf chunks)).1 lines ∧
      p.line.length ≤ MGMT_LINE_MAX - 1 := by
  have read := readChunks_eq MgmtParser.holds_init (by simp)
  simp only [List.nil_append] at read
  rcases read chunks with ⟨p, lines, -⟩
  refine ⟨_, p, lines, ?_, ?_, p.length_le⟩
  · intro others same
    rcases read others with ⟨p', lines', -⟩
    rw [lines', same]
    rfl
  · rw [List.forall₂_map_right_iff, List.forall₂_same]
    intro content _
    exact Line.classify_eq_documented_iff content

/-- Two lines in three pieces. The first has a carriage return inside and is not regular; the one
after it is read as if it were the first. -/
theorem line_reader_as_documented_after_carriage_return :
    ∃ lines p, readChunks mgmtParserInit
        [(Buffer.init 8).store [0x41, CR], (Buffer.init 8).store [0x42, LF, 0x51],
          (Buffer.init 8).store [0x55, 0x49, 0x54, CR, LF]] = some (lines, p) ∧
      lines = [.ready ⟨[0x41, CR, 0x42], by decide⟩, .ready ⟨[0x51, 0x55, 0x49, 0x54], by decide⟩] ∧
      List.Forall₂ (fun content line => line = Line.documented content ↔ Line.Regular content)
        [[0x41, CR, 0x42], [0x51, 0x55, 0x49, 0x54, CR]] lines ∧
      ¬Line.Regular [0x41, CR, 0x42] ∧ Line.Regular [0x51, 0x55, 0x49, 0x54, CR] := by
  rcases line_reader_as_documented [(Buffer.init 8).store [0x41, CR],
    (Buffer.init 8).store [0x42, LF, 0x51], (Buffer.init 8).store [0x55, 0x49, 0x54, CR, LF]] with
    ⟨lines, p, read, -, agrees, -⟩
  refine ⟨lines, p, read, ?_, agrees, by decide, by decide⟩
  exact (congrArg Prod.fst (Option.some.inj read)).symm

/-- A carriage return inside a line is accepted, and a line that is both too long and unprintable is
reported as unprintable. -/
theorem line_reader_undocumented :
    (readChunks mgmtParserInit [(Buffer.init 8).store [0x41, CR, 0x42, LF]]).map Prod.fst =
        some [.ready ⟨[0x41, CR, 0x42], by decide⟩] ∧
      Line.documented [0x41, CR, 0x42] = .invalid ∧
      (readChunks mgmtParserInit
          [(Buffer.init 8192).store (0x01 :: List.replicate MGMT_LINE_MAX 0x41 ++ [LF])]).map
          Prod.fst = some [.invalid] ∧
      Line.documented (0x01 :: List.replicate MGMT_LINE_MAX 0x41) = .tooLong := by
  refine ⟨rfl, rfl, ?_, ?_⟩
  · have length : (0x01 :: List.replicate MGMT_LINE_MAX 0x41 : List UInt8).length =
        MGMT_LINE_MAX + 1 := by simp
    have unended : LF ∉ (0x01 :: List.replicate MGMT_LINE_MAX 0x41 : List UInt8) := by
      simp [LF, List.mem_replicate]
    have spoilt : Line.spoilt (0x01 :: List.replicate MGMT_LINE_MAX 0x41) ≠ false := by
      rw [Line.spoilt, ne_eq, List.any_eq_false]
      exact fun clean => clean 0x01 (List.mem_cons_self ..) (by decide)
    have stream : streamOf
        [(Buffer.init 8192).store (0x01 :: List.replicate MGMT_LINE_MAX 0x41 ++ [LF])] =
          0x01 :: List.replicate MGMT_LINE_MAX 0x41 ++ LF :: [] := by
      rw [streamOf, List.map_singleton, List.flatten_singleton, Buffer.contents_store,
        List.take_of_length_le]
      · rfl
      · rw [List.length_append, length]
        decide
    rcases readChunks_eq MgmtParser.holds_init (by simp)
      [(Buffer.init 8192).store (0x01 :: List.replicate MGMT_LINE_MAX 0x41 ++ [LF])] with
      ⟨p, read, -⟩
    rw [read, List.nil_append, stream, Framing.cut_body LF unended]
    simp [Framing.cut, Line.classify, spoilt]
  · have long : MGMT_LINE_MAX <
        (0x01 :: List.replicate MGMT_LINE_MAX 0x41 : List UInt8).length + 1 := by
      rw [List.length_cons, List.length_replicate]
      omega
    rw [Line.documented, if_pos long]

end SocksProxy
