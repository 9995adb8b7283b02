import SocksProxy.Management.Sequential
import SocksProxy.Server.MgmtConn

/-!
# Connections refine the sequential server

A management connection reads when it can, parses as far as it must and writes
when it may; stopping and resuming are decided by what lies in its buffers.
Whatever pieces the input comes in and the output leaves in, it does what the
sequential server does with the lines of its input, in order and each of them
once. The handlers neither fault nor loop for ever.
-/

namespace SocksProxy

open Prog MgmtM

/-! ## What a connection has done -/

/-- The connection has come as far as the sequential server. -/
structure Mirrors (m : MgmtState) (s : Sequential) : Prop where
  session : m.conn.session = s.session
  deps : m.deps = s.deps
  output : m.conn.sent ++ m.conn.writeBuffer.contents = s.output
  closed : m.conn.closeAfterWrite = s.closed

/-- The bodies are the lines that were taken from the stream; what follows them is the beginning of
a line, of which the parser has part and the read buffer the rest. -/
def Took (c : MgmtConn) (bodies : List (List UInt8)) : Prop :=
  ∃ current, c.received = Framing.join LF bodies ++ current ++ c.readBuffer.contents ∧
    (∀ body ∈ bodies, LF ∉ body) ∧ LF ∉ current ∧ c.parser.Holds current
/-- The buffers have their sizes. -/
structure MgmtState.Sized (m : MgmtState) : Prop where
  readLimit : m.conn.readBuffer.limit = MGMT_LINE_MAX
  writeLimit : m.conn.writeBuffer.limit = MGMT_OUTPUT_BUFFER_SIZE

/-- Between two states of a connection `heard` was received, and the lines in `bodies` were answered
after those in `earlier`. -/
structure Attends (earlier : List (List UInt8)) (heard : List UInt8) (bodies : List (List UInt8))
    (m m' : MgmtState) : Prop where
  took : Took m'.conn (earlier ++ bodies)
  mirrors : ∀ s, Mirrors m s → Mirrors m' (s.answerAll (bodies.map Line.classify))
  received : m'.conn.received = m.conn.received ++ heard
  sized : m.Sized → m'.Sized

/-- Some lines were answered. -/
def AttendsSome (earlier : List (List UInt8)) (heard : List UInt8) (m m' : MgmtState) : Prop :=
  ∃ bodies, Attends earlier heard bodies m m'

section

variable {m m' m'' : MgmtState} {earlier bodies : List (List UInt8)} {heard more : List UInt8}

theorem Attends.still (took : Took m'.conn earlier) (mirrors : ∀ s, Mirrors m s → Mirrors m' s)
    (received : m'.conn.received = m.conn.received ++ heard) (sized : m.Sized → m'.Sized) :
    Attends earlier heard [] m m' :=
  ⟨by rwa [List.append_nil], mirrors, received, sized⟩

theorem Attends.refl (took : Took m.conn earlier) : Attends earlier [] [] m m :=
  .still took (fun _ => id) (List.append_nil _).symm id

/-- What comes after starts with the lines that were answered before. -/
theorem Attends.trans (first : Attends earlier heard bodies m m')
    (second : AttendsSome (earlier ++ bodies) more m' m'') :
    AttendsSome earlier (heard ++ more) m m'' := by
  rcases second with ⟨later, took, mirrors, received, sized⟩
  refine ⟨bodies ++ later, by rwa [← List.append_assoc], fun s here => ?_, ?_,
    fun size => sized (first.sized size)⟩
  · rw [List.map_append, Sequential.answerAll, List.foldl_append]
    exact mirrors _ (first.mirrors s here)
  · rw [received, first.received, List.append_assoc]

theorem AttendsSome.item (attends : AttendsSome earlier heard m m') (item : Option Interest) :
    AttendsSome earlier heard m { m' with item } := by
  rcases attends with ⟨bodies, took, mirrors, received, sized⟩
  refine ⟨bodies, took, fun s here => ?_, received,
    fun size => ⟨(sized size).readLimit, (sized size).writeLimit⟩⟩
  have after := mirrors s here
  exact ⟨after.session, after.deps, after.output, after.closed⟩

theorem Took.receive {c : MgmtConn} (took : Took c earlier) {bytes : List UInt8}
    {readBuffer : Buffer} (contents : readBuffer.contents = c.readBuffer.contents ++ bytes) :
    Took { c with readBuffer, received := c.received ++ bytes } earlier := by
  rcases took with ⟨current, received, ended, begun, holds⟩
  exact ⟨current, by simp [received, contents], ended, begun, holds⟩

end

section

variable {m : MgmtState} {earlier : List (List UInt8)}

theorem wp_mgmtGetConn {post : MgmtConn → MgmtState → Prop} (registered : m.item.isSome = true)
    (holds : post m.conn m) : wp getConn post m := by
  simp [getConn, registered, holds]

/-! ## Flushing -/

/-- Sending changes nothing but how much of the output has left. -/
structure Flushed (m m' : MgmtState) : Prop where
  conn : ∃ writeBuffer sent, m'.conn = { m.conn with writeBuffer, sent } ∧
    sent ++ writeBuffer.contents = m.conn.sent ++ m.conn.writeBuffer.contents ∧
    writeBuffer.limit = m.conn.writeBuffer.limit
  deps : m'.deps = m.deps

theorem Flushed.refl (m : MgmtState) : Flushed m m := ⟨⟨_, _, rfl, rfl, rfl⟩, rfl⟩

theorem Flushed.trans {m' m'' : MgmtState} (before : Flushed m m') (after : Flushed m' m'') :
    Flushed m m'' := by
  rcases before with ⟨⟨writeBuffer, sent, conn, output, limit⟩, deps⟩
  rcases after with ⟨⟨writeBuffer', sent', conn', output', limit'⟩, deps'⟩
  rw [conn] at conn' output' limit'
  exact ⟨⟨writeBuffer', sent', conn', output'.trans output, limit'.trans limit⟩, deps'.trans deps⟩
theorem Flushed.attends {m' : MgmtState} (flushed : Flushed m m') (took : Took m.conn earlier) :
    Attends earlier [] [] m m' := by
  rcases flushed with ⟨⟨writeBuffer, sent, conn, output, limit⟩, deps⟩
  refine .still ?_ (fun s mirrors => ⟨?_, deps.trans mirrors.deps, ?_, ?_⟩) ?_
    fun size => ⟨?_, ?_⟩
  all_goals rw [conn]
  · exact took
  · exact mirrors.session
  · exact output.trans mirrors.output
  · exact mirrors.closed
  · exact (List.append_nil _).symm
  · exact size.readLimit
  · exact limit.trans size.writeLimit

/-- How `mgmt_flush` ends: it returns while the connection is registered, or has unregistered it
with output left. -/
def FlushEnds (m : MgmtState) (going : Bool) (m' : MgmtState) : Prop :=
  Flushed m m' ∧
    if going then m'.item = m.item else m'.item = none ∧ m'.conn.writeBuffer.contents ≠ []

/-- What is left when `send()` has taken some bytes. -/
def MgmtState.sending (m : MgmtState) (taken : List UInt8) (later : List SendAnswer) : MgmtState :=
  { m with
    conn :=
      { m.conn with
        writeBuffer := m.conn.writeBuffer.readAdv taken.length
        sent := m.conn.sent ++ taken }
    sends := later }

theorem flushed_sending {n : Nat} (m : MgmtState) (later : List SendAnswer) :
    Flushed m (m.sending (m.conn.writeBuffer.contents.take n) later) := by
  refine ⟨⟨_, _, rfl, ?_, by simp⟩, rfl⟩
  rw [Buffer.contents_readAdv, List.append_assoc, List.length_take]
  congr 1
  rcases Nat.le_total n m.conn.writeBuffer.contents.length with within | beyond
  · rw [Nat.min_eq_left within, List.take_append_drop]
  · rw [Nat.min_eq_right beyond, List.take_of_length_le beyond, List.drop_length,
      List.append_nil]

theorem wp_mgmtFlushLoop {rounds : Nat} (registered : m.item.isSome = true)
    (enough : m.conn.writeBuffer.contents.length < rounds) :
    wp (mgmtFlushLoop rounds) (FlushEnds m) m := by
  induction rounds generalizing m with
  | zero => simp at enough
  | succ rounds ih =>
      unfold mgmtFlushLoop
      rw [wp_bind]
      refine wp_mgmtGetConn registered ?_
      by_cases pending : m.conn.hasOutput = true
      · have nonempty := (m.conn.writeBuffer.canRead_iff).mp pending
        have some := List.length_pos_iff.mpr nonempty
        rw [if_pos pending]
        cases answers : m.sends with
        | nil =>
            simp only [nextSend, wp_bind, wp_get, answers, wp_pure, wouldBlock, if_true]
            exact ⟨.refl m, rfl⟩
        | cons answer later =>
            simp only [nextSend, wp_bind, wp_get, answers, wp_modify, wp_pure]
            cases answer with
            | error errno =>
                by_cases again : wouldBlock errno = true
                · simp only [again, if_true, wp_pure]
                  exact ⟨⟨⟨_, _, rfl, rfl, rfl⟩, rfl⟩, rfl⟩
                · simp only [again, if_false, unregister, wp_bind, wp_modify, wp_pure,
                    Bool.false_eq_true]
                  exact ⟨⟨⟨_, _, rfl, rfl, rfl⟩, rfl⟩, rfl, nonempty⟩
            | taken n =>
                cases taken : m.conn.writeBuffer.contents.take n with
                | nil =>
                    simp only [taken, unregister, wp_bind, wp_modify, wp_pure]
                    exact ⟨⟨⟨_, _, rfl, rfl, rfl⟩, rfl⟩, rfl, nonempty⟩
                | cons byte more =>
                    simp only [taken, modifyConn, wp_bind, wp_modify]
                    have sent := flushed_sending (n := n) m later
                    rw [taken] at sent
                    refine wp_mono (ih (m := m.sending (byte :: more) later) registered ?_) ?_
                    · simp only [MgmtState.sending, Buffer.contents_readAdv, List.length_drop,
                        List.length_cons]
                      omega
                    · rintro going m' ⟨flushed, item⟩
                      exact ⟨sent.trans flushed, item⟩
      · rw [if_neg pending, wp_pure]
        exact ⟨.refl m, rfl⟩

theorem wp_mgmtFlush (registered : m.item.isSome = true) : wp mgmtFlush (FlushEnds m) m := by
  rw [mgmtFlush, wp_bind]
  refine wp_mgmtGetConn registered (wp_mgmtFlushLoop registered ?_)
  rw [Buffer.length_contents]
  exact Nat.lt_succ_self _
/-! ## Lines -/

/-- What is left when a line has been answered. -/
def MgmtState.answering (m : MgmtState) (result : LineResult) : MgmtState :=
  { m with
    deps := result.deps
    conn :=
      { m.conn with
        session := result.session
        parser := mgmtParserInit
        writeBuffer := outPrintfAll m.conn.writeBuffer result.printed
        closeAfterWrite := m.conn.closeAfterWrite || result.close } }

theorem wp_processLine {q : MgmtParser} {post : Unit → MgmtState → Prop}
    (registered : m.item.isSome = true) (finished : m.conn.parser = q.finish.2)
    (holds : post () (m.answering (q.verdict.answer m.conn.session m.deps))) :
    wp (processLine q.finish.1) post m := by
  rw [processLine, wp_bind]
  refine wp_mgmtGetConn registered ?_
  rw [MgmtParser.verdict] at holds
  cases state : q.finish.1 with
  | ready =>
      simp only [state, ← finished, Line.answer] at holds
      simp only [if_true, modifyConn, wp_bind, wp_modify]
      exact holds
  | tooLong =>
      simp only [state, Line.answer, MgmtState.answering, Bool.or_false] at holds
      simp only [modifyConn, wp_bind, wp_modify, reduceCtorEq, if_false]
      exact holds
  | invalid =>
      simp only [state, Line.answer, MgmtState.answering, Bool.or_false] at holds
      simp only [modifyConn, wp_bind, wp_modify, reduceCtorEq, if_false]
      exact holds
  | incomplete => exact absurd state q.finish_ne_incomplete

theorem Proper.ne_nil {deps : MgmtDeps} {printed : List (List UInt8)} {r : Response}
    (proper : Proper deps printed r) : printed.flatten ≠ [] := by
  rw [proper.texts]
  simp [Response.texts, Response.lines]
theorem MgmtState.output_answering (line : Line) (empty : m.conn.writeBuffer.contents = [])
    (limit : m.conn.writeBuffer.limit = MGMT_OUTPUT_BUFFER_SIZE) :
    let after := m.answering (line.answer m.conn.session m.deps)
    after.conn.writeBuffer.contents = (line.answer m.conn.session m.deps).printed.flatten ∧
      after.conn.writeBuffer.contents ≠ [] ∧
      after.conn.writeBuffer.limit = MGMT_OUTPUT_BUFFER_SIZE := by
  rcases line.proper m.conn.session m.deps with ⟨r, proper⟩
  have room : (line.answer m.conn.session m.deps).printed.flatten.length ≤
      m.conn.writeBuffer.space := by
    rw [Buffer.space_of_empty _ empty, limit]
    exact proper.all
  rcases contents_outPrintfAll proper.each room with ⟨contents, kept⟩
  rw [empty, List.nil_append] at contents
  exact ⟨contents, fun nothing => proper.ne_nil (contents.symm.trans nothing), kept.trans limit⟩

/-- Answering a line in an empty output buffer is what the sequential server does next. -/
theorem Mirrors.answering {s : Sequential} (mirrors : Mirrors m s) (line : Line)
    (open_ : m.conn.closeAfterWrite = false) (empty : m.conn.writeBuffer.contents = [])
    (limit : m.conn.writeBuffer.limit = MGMT_OUTPUT_BUFFER_SIZE) :
    Mirrors (m.answering (line.answer m.conn.session m.deps)) (s.answer line) := by
  have running : s.closed = false := mirrors.closed ▸ open_
  have output := mirrors.output
  rw [empty, List.append_nil] at output
  have next : s.answer line =
      ⟨(line.answer m.conn.session m.deps).session, (line.answer m.conn.session m.deps).deps,
        s.output ++ (line.answer m.conn.session m.deps).printed.flatten,
        (line.answer m.conn.session m.deps).close⟩ := by
    rw [Sequential.answer, running, mirrors.session, mirrors.deps]
    rfl
  rw [next]
  refine ⟨rfl, rfl, ?_, by simp [MgmtState.answering, open_]⟩
  rw [← output, (m.output_answering line empty limit).1]
  rfl

/-- The connection while its parser has been fed. -/
def MgmtState.fed (m : MgmtState) (parser : MgmtParser) (readBuffer : Buffer) : MgmtState :=
  { m with conn := { m.conn with parser, readBuffer } }
/-- Input without a line feed only adds to the line that has begun. -/
theorem attends_fed (took : Took m.conn earlier) (unended : LF ∉ m.conn.readBuffer.contents)
    {readBuffer : Buffer} (drained : readBuffer.contents = [])
    (limit : readBuffer.limit = m.conn.readBuffer.limit) :
    Attends earlier [] [] m
      (m.fed (m.conn.readBuffer.contents.foldl MgmtParser.push m.conn.parser) readBuffer) := by
  rcases took with ⟨current, received, ended, begun, holds⟩
  refine .still ⟨current ++ m.conn.readBuffer.contents, ?_, ended, ?_, holds.pushAll _⟩
    (fun _ mirrors => ⟨mirrors.session, mirrors.deps, mirrors.output, mirrors.closed⟩)
    (List.append_nil _).symm fun size => ⟨limit.trans size.readLimit, size.writeLimit⟩
  · simpa [MgmtState.fed, drained] using received
  · rw [List.mem_append, not_or]
    exact ⟨begun, unended⟩

/-- A line that has ended is the next one for the sequential server. -/
theorem attends_answering (took : Took m.conn earlier) (sized : m.Sized)
    {content rest : List UInt8} (split : m.conn.readBuffer.contents = content ++ LF :: rest)
    (unended : LF ∉ content) (open_ : m.conn.closeAfterWrite = false)
    (empty : m.conn.writeBuffer.contents = []) {readBuffer : Buffer}
    (left : readBuffer.contents = rest) (limit : readBuffer.limit = m.conn.readBuffer.limit)
    {q : MgmtParser} (parsed : q = content.foldl MgmtParser.push m.conn.parser) :
    AttendsSome earlier [] m
      ((m.fed q.finish.2 readBuffer).answering (q.verdict.answer m.conn.session m.deps)) := by
  rcases took with ⟨current, received, ended, begun, holds⟩
  have held : q.Holds (current ++ content) := parsed ▸ holds.pushAll content
  refine ⟨[current ++ content], ⟨[], ?_, fun body member => ?_, by simp, MgmtParser.holds_init⟩,
    fun s mirrors => ?_, (List.append_nil _).symm, fun size => ⟨limit.trans size.readLimit, ?_⟩⟩
  · change m.conn.received = _
    rw [received, split, Framing.join_append, Framing.join_singleton]
    simp [MgmtState.answering, MgmtState.fed, left]
  · rcases List.mem_append.mp member with before | latest
    · exact ended body before
    · rw [List.mem_singleton.mp latest, List.mem_append, not_or]
      exact ⟨begun, unended⟩
  · have fed : Mirrors (m.fed q.finish.2 readBuffer) s :=
      ⟨mirrors.session, mirrors.deps, mirrors.output, mirrors.closed⟩
    rw [List.map_singleton, ← held.verdict_eq]
    exact fed.answering q.verdict open_ empty sized.writeLimit
  · exact ((m.fed q.finish.2 readBuffer).output_answering q.verdict empty sized.writeLimit).2.2

/-- What `process_input_lines` leaves: at most one line was answered, and some input was used unless
there was none or output is in the way. -/
structure Advanced (earlier : List (List UInt8)) (m m' : MgmtState) : Prop where
  attends : AttendsSome earlier [] m m'
  item : m'.item = m.item
  blocked : m.conn.writeBuffer.contents ≠ [] → m' = m
  used : m.conn.writeBuffer.contents = [] → m.conn.readBuffer.contents ≠ [] →
    m'.conn.readBuffer.contents.length < m.conn.readBuffer.contents.length
  starved : m.conn.readBuffer.contents = [] → m' = m

theorem Advanced.refl (took : Took m.conn earlier)
    (idle : m.conn.writeBuffer.contents ≠ [] ∨ m.conn.readBuffer.contents = []) :
    Advanced earlier m m where
  attends := ⟨[], .refl took⟩
  item := rfl
  blocked := fun _ => rfl
  used := by
    intro empty some
    exact absurd idle (not_or.mpr ⟨not_not.mpr empty, some⟩)
  starved := fun _ => rfl

theorem wp_processInputLinesLoop_of_output {rounds : Nat} {post : Unit → MgmtState → Prop}
    (registered : m.item.isSome = true) (pending : m.conn.writeBuffer.contents ≠ [])
    (holds : post () m) : wp (processInputLinesLoop (rounds + 1)) post m := by
  unfold processInputLinesLoop
  rw [wp_bind]
  refine wp_mgmtGetConn registered ?_
  have output : m.conn.hasOutput = true := (Buffer.canRead_iff _).mpr pending
  rw [output, Bool.not_true, Bool.and_false, if_neg (by simp), wp_pure]
  exact holds

theorem wp_processInputLinesLoop {rounds : Nat} (registered : m.item.isSome = true)
    (took : Took m.conn earlier) (sized : m.Sized)
    (ready : m.conn.closeAfterWrite = true → m.conn.writeBuffer.contents ≠ [])
    (enough : m.conn.readBuffer.contents.length < rounds) :
    wp (processInputLinesLoop rounds) (fun _ => Advanced earlier m) m := by
  cases rounds with
  | zero => simp at enough
  | succ rounds =>
      unfold processInputLinesLoop
      rw [wp_bind]
      refine wp_mgmtGetConn registered ?_
      by_cases busy : (m.conn.readBuffer.canRead && !m.conn.hasOutput) = true
      · rw [if_pos busy]
        rw [Bool.and_eq_true, Bool.not_eq_true', MgmtConn.hasOutput, Buffer.canRead_iff,
          Buffer.canRead_eq_false_iff] at busy
        rcases busy with ⟨some, empty⟩
        have positive := List.length_pos_iff.mpr some
        have open_ : m.conn.closeAfterWrite = false := by
          rw [← Bool.not_eq_true]
          exact fun closing => ready closing empty
        have state := Buffer.feed_state MgmtFeed.consumer (MgmtFeed.start m.conn.parser)
          m.conn.readBuffer
        have left := Buffer.feed_contents MgmtFeed.consumer (MgmtFeed.start m.conn.parser)
          m.conn.readBuffer
        have limit := Buffer.feed_limit MgmtFeed.consumer (MgmtFeed.start m.conn.parser)
          m.conn.readBuffer
        rw [← mgmtParserFeed] at state left limit
        generalize mgmtParserFeed m.conn.parser m.conn.readBuffer = fed at *
        rcases fed with ⟨feed, readBuffer⟩
        simp only at state left limit
        simp only [modifyConn, wp_bind, wp_modify]
        -- A complete line is answered, and its answer stops the next round; an incomplete one
        -- stays with the parser.
        by_cases ended : LF ∈ m.conn.readBuffer.contents
        · rcases List.eq_append_cons_of_mem ended with ⟨content, rest, split, unended⟩
          rw [split, MgmtFeed.consume_line _ unended] at state left
          generalize parsed : content.foldl MgmtParser.push m.conn.parser = q at state left
          subst state
          have answered :=
            attends_answering took sized split unended open_ empty left limit parsed.symm
          have pending := ((m.fed q.finish.2 readBuffer).output_answering q.verdict empty
            sized.writeLimit).2.1
          have advanced : Advanced earlier m ((m.fed q.finish.2 readBuffer).answering
              (q.verdict.answer m.conn.session m.deps)) := by
            refine ⟨answered, rfl, fun output => absurd empty output, fun _ _ => ?_,
              fun nothing => absurd nothing some⟩
            rw [split]
            simp only [MgmtState.answering, MgmtState.fed, left, List.length_append,
              List.length_cons]
            omega
          simp only [q.finish_ne_incomplete, if_false, wp_bind]
          refine wp_processLine (m := m.fed q.finish.2 readBuffer) registered rfl ?_
          rw [wp_bind]
          refine wp_mgmtGetConn registered ?_
          split
          · exact (wp_pure _ _ _).mpr advanced
          · cases rounds with
            | zero => omega
            | succ rounds =>
                exact wp_processInputLinesLoop_of_output registered pending advanced
        · rw [MgmtFeed.consume_content _ ended] at state left
          subst state
          simp only [MgmtFeed.start, if_true, wp_pure]
          refine ⟨⟨[], attends_fed took ended left limit⟩, rfl, fun output =>
            absurd empty output, fun _ _ => ?_, fun nothing => absurd nothing some⟩
          rw [left]
          exact positive
      · rw [if_neg busy, wp_pure]
        refine .refl took ?_
        rw [Bool.and_eq_true, Bool.not_eq_true', MgmtConn.hasOutput, Buffer.canRead_iff,
          Buffer.canRead_eq_false_iff, not_and_or, not_not] at busy
        exact busy.symm

theorem wp_processInputLines (registered : m.item.isSome = true) (took : Took m.conn earlier)
    (sized : m.Sized)
    (ready : m.conn.closeAfterWrite = true → m.conn.writeBuffer.contents ≠ []) :
    wp processInputLines (fun _ => Advanced earlier m) m := by
  rw [processInputLines, wp_bind]
  refine wp_mgmtGetConn registered (wp_processInputLinesLoop registered took sized ready ?_)
  rw [Buffer.length_contents]
  exact Nat.lt_succ_self _

/-! ## Processing and flushing -/

/-- How `process_and_flush` ends: with output that cannot leave yet, with a session to be closed or
with all input used; or the connection was unregistered with output left. -/
def Settles (earlier : List (List UInt8)) (m : MgmtState) (going : Bool) (m' : MgmtState) : Prop :=
  AttendsSome earlier [] m m' ∧
    if going then
      m'.item = m.item ∧ (m'.conn.writeBuffer.contents = [] →
        m'.conn.closeAfterWrite = true ∨ m'.conn.readBuffer.contents = [])
    else m'.item = none ∧ m'.conn.writeBuffer.contents ≠ []

/-- The rounds `process_and_flush` needs: one for each byte that is left, and one more while there
is output from before. -/
def roundsLeft (c : MgmtConn) : Nat :=
  c.readBuffer.contents.length + if c.writeBuffer.contents = [] then 0 else 1
theorem Advanced.roundsLeft_lt {m' : MgmtState} (advanced : Advanced earlier m m')
    (some : m'.conn.readBuffer.contents ≠ []) :
    m'.conn.readBuffer.contents.length < roundsLeft m.conn := by
  unfold roundsLeft
  split
  · rename_i empty
    by_cases nothing : m.conn.readBuffer.contents = []
    · rw [advanced.starved nothing] at some
      exact absurd nothing some
    · exact advanced.used empty nothing
  · rename_i pending
    rw [advanced.blocked pending]
    exact Nat.lt_succ_self _

theorem Flushed.conn_eq {m' : MgmtState} (flushed : Flushed m m') :
    m'.conn.readBuffer = m.conn.readBuffer ∧ m'.conn.closeAfterWrite = m.conn.closeAfterWrite := by
  rcases flushed.conn with ⟨writeBuffer, sent, conn, -, -⟩
  rw [conn]
  exact ⟨rfl, rfl⟩

theorem wp_processAndFlushLoop {rounds : Nat} (registered : m.item.isSome = true)
    (took : Took m.conn earlier) (sized : m.Sized)
    (ready : m.conn.closeAfterWrite = true → m.conn.writeBuffer.contents ≠ [])
    (enough : roundsLeft m.conn < rounds) :
    wp (processAndFlushLoop rounds) (Settles earlier m) m := by
  induction rounds generalizing m earlier with
  | zero => simp at enough
  | succ rounds ih =>
      unfold processAndFlushLoop
      rw [wp_bind]
      refine wp_mono (wp_processInputLines registered took sized ready) ?_
      rintro - m₁ advanced
      rcases advanced.attends with ⟨bodies, attends₁⟩
      have registered₁ : m₁.item.isSome = true := advanced.item ▸ registered
      rw [wp_bind]
      refine wp_mono (wp_mgmtFlush registered₁) ?_
      rintro going m₂ ⟨flushed, item⟩
      have attends₂ : AttendsSome earlier [] m m₂ :=
        attends₁.trans ⟨[], flushed.attends attends₁.took⟩
      rcases flushed.conn_eq with ⟨readBuffer, closing⟩
      cases going with
      | false =>
          simp only [Bool.false_eq_true, if_false, wp_pure] at item ⊢
          exact ⟨attends₂, item⟩
      | true =>
          simp only [if_true] at item ⊢
          have registered₂ : m₂.item.isSome = true := item ▸ registered₁
          rw [wp_bind]
          refine wp_mgmtGetConn registered₂ ?_
          by_cases again : (!m₂.conn.hasOutput && !m₂.conn.closeAfterWrite &&
              m₂.conn.readBuffer.canRead) = true
          · rw [if_pos again]
            simp only [Bool.and_eq_true, Bool.not_eq_true', MgmtConn.hasOutput, Buffer.canRead_iff,
              Buffer.canRead_eq_false_iff] at again
            rcases again with ⟨⟨empty, open_⟩, some⟩
            rcases attends₂ with ⟨bodies₂, attends₂⟩
            refine wp_mono (ih registered₂ attends₂.took (attends₂.sized sized) (by simp [open_])
              ?_) ?_
            · rw [readBuffer] at some
              have fewer := advanced.roundsLeft_lt some
              simp only [roundsLeft, empty, readBuffer, if_true] at enough fewer ⊢
              omega
            · rintro going m' ⟨attends', ends⟩
              refine ⟨attends₂.trans attends', ?_⟩
              rwa [item.trans advanced.item] at ends
          · rw [if_neg again, wp_pure]
            refine ⟨attends₂, item.trans advanced.item, fun empty => ?_⟩
            simp only [Bool.and_eq_true, Bool.not_eq_true', MgmtConn.hasOutput, Buffer.canRead_iff,
              Buffer.canRead_eq_false_iff, empty, true_and, not_and, not_not] at again
            exact or_iff_not_imp_left.mpr fun open_ => again (Bool.not_eq_true _ ▸ open_)

theorem wp_processAndFlush (registered : m.item.isSome = true) (took : Took m.conn earlier)
    (sized : m.Sized)
    (ready : m.conn.closeAfterWrite = true → m.conn.writeBuffer.contents ≠ []) :
    wp processAndFlush (Settles earlier m) m := by
  rw [processAndFlush, wp_bind]
  refine wp_mgmtGetConn registered (wp_processAndFlushLoop registered took sized ready ?_)
  rw [roundsLeft, Buffer.length_contents]
  split <;> omega

/-! ## Handlers -/

/-- A connection between two dispatches waits for what it needs: for its output to leave, or, with
nothing left of its input, for more. -/
structure MgmtState.Waits (m : MgmtState) : Prop where
  item : m.item = none ∨ (m.item = some OP_WRITE ∧ m.conn.writeBuffer.contents ≠ []) ∨
    (m.item = some OP_READ ∧ m.conn.writeBuffer.contents = [] ∧ m.conn.closeAfterWrite = false)
  drained : m.conn.writeBuffer.contents = [] →
    m.conn.closeAfterWrite = true ∨ m.conn.readBuffer.contents = []

/-- A connection that waits for input has handled all that it has read. -/
theorem MgmtState.Waits.reading {m : MgmtState} (waits : m.Waits) (reads : m.item = some OP_READ) :
    m.conn.writeBuffer.contents = [] ∧ m.conn.closeAfterWrite = false ∧
      m.conn.readBuffer.contents = [] := by
  rcases waits.item with none | ⟨writes, -⟩ | ⟨-, empty, going⟩
  · simp [reads] at none
  · rw [reads] at writes
    exact absurd writes (by decide)
  · exact ⟨empty, going, (waits.drained empty).resolve_left (by simp [going])⟩
/-- What every handler leaves behind. -/
def Rests (earlier : List (List UInt8)) (heard : List UInt8) (m m' : MgmtState) : Prop :=
  AttendsSome earlier heard m m' ∧ m'.Waits

/-- The end of both handlers: the session is closed, or waits for what its output says. -/
theorem Settles.rests {m' : MgmtState} {item : Option Interest}
    (settles : Settles earlier m true m')
    (chosen : item = if m'.conn.writeBuffer.contents ≠ [] then some OP_WRITE
      else if m'.conn.closeAfterWrite then none else some OP_READ) :
    Rests earlier [] m { m' with item } := by
  rcases settles with ⟨attends, -, drained⟩
  refine ⟨attends.item item, ?_, drained⟩
  by_cases pending : m'.conn.writeBuffer.contents ≠ []
  · rw [if_pos pending] at chosen
    exact .inr (.inl ⟨chosen, pending⟩)
  · rw [if_neg pending] at chosen
    split at chosen
    · exact .inl chosen
    · rename_i open_
      exact .inr (.inr ⟨chosen, not_not.mp pending, Bool.not_eq_true _ ▸ open_⟩)

theorem Settles.unregistered {m' : MgmtState} (settles : Settles earlier m false m') :
    Rests earlier [] m m' := by
  rcases settles with ⟨attends, gone, pending⟩
  exact ⟨attends, .inl gone, fun empty => absurd empty pending⟩

theorem hasOutput_iff (c : MgmtConn) : c.hasOutput = true ↔ c.writeBuffer.contents ≠ [] :=
  c.writeBuffer.canRead_iff

theorem wp_mgmtWrite (registered : m.item = some OP_WRITE) (took : Took m.conn earlier)
    (sized : m.Sized) (waits : m.Waits) : wp mgmtWrite (fun _ => Rests earlier [] m) m := by
  have pending : m.conn.writeBuffer.contents ≠ [] := by
    rcases waits.item with none | ⟨-, pending⟩ | ⟨reads, -⟩
    · simp [registered] at none
    · exact pending
    · rw [registered] at reads
      exact absurd reads (by decide)
  rw [mgmtWrite, wp_bind]
  refine wp_mono (wp_processAndFlush (by simp [registered]) took sized fun _ => pending) ?_
  rintro going m' settles
  cases going with
  | false =>
      rw [if_neg (by simp), wp_pure]
      exact settles.unregistered
  | true =>
      have item := settles.2.1
      rw [if_pos rfl, wp_bind]
      refine wp_mgmtGetConn (by simp [item, registered]) ?_
      by_cases pending : m'.conn.hasOutput = true
      · rw [if_pos pending, setInterest, wp_modify]
        rw [hasOutput_iff] at pending
        exact settles.rests (by simp [pending, item, registered])
      · rw [if_neg pending]
        rw [hasOutput_iff] at pending
        by_cases closing : m'.conn.closeAfterWrite = true
        · rw [if_pos closing, unregister, wp_modify]
          exact settles.rests (by simp [pending, closing])
        · rw [if_neg closing, setInterest, wp_modify]
          exact settles.rests (by simp [pending, closing, item, registered])

theorem wp_mgmtReceived {bytes : List UInt8} (registered : m.item = some OP_READ)
    (took : Took m.conn earlier) (sized : m.Sized) (open_ : m.conn.closeAfterWrite = false)
    (room : bytes.length ≤ m.conn.readBuffer.space) :
    wp (mgmtReceived bytes) (fun _ => Rests earlier bytes m) m := by
  have stored : (m.conn.readBuffer.store bytes).contents = m.conn.readBuffer.contents ++ bytes := by
    rw [Buffer.contents_store, List.take_of_length_le room]
  let hearing : MgmtState :=
    { m with
      conn :=
        { m.conn with
          readBuffer := m.conn.readBuffer.store bytes
          received := m.conn.received ++ bytes } }
  have took₁ : Took hearing.conn earlier := took.receive stored
  have heard : Attends earlier bytes [] m hearing :=
    .still took₁ (fun _ mirrors => ⟨mirrors.session, mirrors.deps, mirrors.output, mirrors.closed⟩)
      rfl fun size => ⟨size.readLimit, size.writeLimit⟩
  have since : ∀ m', Rests earlier [] hearing m' → Rests earlier bytes m m' := by
    rintro m' ⟨attends, waits⟩
    have all := heard.trans ((List.append_nil earlier).symm ▸ attends)
    rw [List.append_nil] at all
    exact ⟨all, waits⟩
  simp only [mgmtReceived, modifyConn, wp_bind, wp_modify]
  refine wp_mono (wp_processAndFlush (m := hearing) (by simp [hearing, registered]) took₁
    (heard.sized sized) (by simp [hearing, open_])) ?_
  rintro going m' settles
  cases going with
  | false =>
      rw [if_neg (by simp), wp_pure]
      exact since _ settles.unregistered
  | true =>
      have item : m'.item = some OP_READ := settles.2.1.trans registered
      rw [if_pos rfl, wp_bind]
      refine wp_mgmtGetConn (by simp [item]) ?_
      by_cases closing : (m'.conn.closeAfterWrite && !m'.conn.hasOutput) = true
      · rw [if_pos closing, unregister, wp_modify]
        rw [Bool.and_eq_true, Bool.not_eq_true', ← Bool.not_eq_true, hasOutput_iff] at closing
        exact since _ (settles.rests (by simp [closing.1, not_not.mp closing.2]))
      · rw [if_neg closing, setInterest, wp_modify]
        rw [Bool.and_eq_true, Bool.not_eq_true', ← Bool.not_eq_true, hasOutput_iff,
          not_and, not_not] at closing
        refine since _ (settles.rests ?_)
        by_cases pending : m'.conn.writeBuffer.contents ≠ []
        · simp [pending, item, (hasOutput_iff _).mpr pending]
        · have empty := not_not.mp pending
          have idle : m'.conn.hasOutput = false := by
            rw [← Bool.not_eq_true, hasOutput_iff]
            exact pending
          have stays : ¬m'.conn.closeAfterWrite = true := fun closes => closing closes empty
          simp [empty, item, idle, stays]

namespace MgmtState

/-- The bytes that `recv()` delivers at an event, if the descriptor is watched for it: those of its
answer that it was asked for. -/
def delivers (m : MgmtState) : MgmtEvent → List UInt8
  | .read (.data bytes) _ => if m.item = some OP_READ then bytes.take MGMT_LINE_MAX else []
  | _ => []

/-- The bytes that `recv()` delivers in the course of a run. -/
def delivered (m : MgmtState) : List MgmtEvent → List UInt8
  | [] => []
  | event :: rest =>
      m.delivers event ++
        match m.step event with
        | .ok m' => delivered m' rest
        | .error _ => []
end MgmtState

theorem wp_mgmtRead (answer : RecvAnswer) (sends : List SendAnswer)
    (registered : m.item = some OP_READ) (took : Took m.conn earlier) (sized : m.Sized)
    (waits : m.Waits) :
    wp (mgmtRead answer) (fun _ => Rests earlier (m.delivers (.read answer sends)) m) m := by
  rcases waits.reading registered with ⟨empty, open_, drained⟩
  have writable : m.conn.writeBuffer.canWrite = true := by
    rw [Buffer.canWrite_iff, Buffer.space_of_empty _ empty, sized.writeLimit]
    decide
  have space : m.conn.readBuffer.compact.space = MGMT_LINE_MAX := by
    rw [Buffer.space_compact, drained, sized.readLimit]
    rfl
  let compacted : MgmtState :=
    { m with conn := { m.conn with readBuffer := m.conn.readBuffer.compact } }
  have took₁ : Took compacted.conn earlier := by
    have same : m.conn.readBuffer.compact.contents = m.conn.readBuffer.contents ++ [] := by simp
    simpa [compacted] using took.receive same
  have compacts : Attends earlier [] [] m compacted :=
    .still took₁ (fun _ mirrors => ⟨mirrors.session, mirrors.deps, mirrors.output, mirrors.closed⟩)
      (List.append_nil _).symm fun size => ⟨by simpa [compacted] using size.readLimit,
        size.writeLimit⟩
  have gone : Rests earlier [] m { compacted with item := none } :=
    ⟨AttendsSome.item ⟨[], compacts⟩ none, .inl rfl, by simpa [compacted] using waits.drained⟩
  unfold mgmtRead
  rw [wp_bind]
  refine wp_mgmtGetConn (by simp [registered]) ?_
  rw [if_pos writable]
  simp only [modifyConn, wp_bind, wp_modify]
  refine wp_mgmtGetConn (by simp [registered]) ?_
  rw [if_neg (by rw [space]; decide)]
  cases answer with
  | error errno =>
      by_cases again : wouldBlock errno = true
      · simp only [again, if_true, wp_pure]
        exact ⟨⟨[], compacts⟩, by simpa [compacted] using waits.item,
          by simpa [compacted] using waits.drained⟩
      · simp only [again, if_false, unregister, wp_modify, Bool.false_eq_true]
        exact gone
  | data bytes =>
      rw [space, MgmtState.delivers, if_pos registered]
      cases taken : bytes.take MGMT_LINE_MAX with
      | nil =>
          simp only [taken, unregister, wp_modify]
          exact gone
      | cons byte more =>
          simp only [taken]
          refine wp_mono (wp_mgmtReceived (m := compacted) registered took₁ (compacts.sized sized)
            open_ ?_) fun _ m' rests => ?_
          · rw [← taken]
            exact (List.length_take_le _ _).trans space.ge
          · exact ⟨compacts.trans (by simpa using rests.1), rests.2⟩

end

/-! ## Runs -/

/-- The changes made elsewhere during a run. -/
def MgmtEvent.changes (events : List MgmtEvent) : List (MgmtDeps → MgmtDeps) :=
  events.filterMap fun
    | .elsewhere change => some change
    | _ => none

namespace MgmtState

variable {first : Sequential} {m : MgmtState} {changes : List (MgmtDeps → MgmtDeps)}
/-- What holds of a connection between two events: it is where the sequential server is that was
presented with the items. -/
structure Serving (first : Sequential) (items : List Occurrence) (m : MgmtState) : Prop where
  mirrors : Mirrors m (first.serve items)
  took : ∃ bodies, Took m.conn bodies ∧ Occurrence.lines items = bodies.map Line.classify
  sized : m.Sized

/-- The connection rests after some lines of its own and the given changes. -/
def Follows (first : Sequential) (changes : List (MgmtDeps → MgmtDeps)) (m : MgmtState) : Prop :=
  ∃ items, Serving first items m ∧ Occurrence.changes items = changes ∧ m.Waits

theorem follows_accepted (deps : MgmtDeps) :
    (accepted deps).Follows (Sequential.start deps) [] := by
  refine ⟨[], ⟨⟨rfl, rfl, rfl, rfl⟩, ⟨[], ⟨[], rfl, by simp, by simp, MgmtParser.holds_init⟩, rfl⟩,
    rfl, rfl⟩, rfl, ?_, fun _ => .inr rfl⟩
  exact .inr (.inr ⟨rfl, rfl, rfl⟩)

theorem Serving.attended {m' : MgmtState} {items : List Occurrence}
    {earlier : List (List UInt8)} {heard : List UInt8} {sends : List SendAnswer}
    (serving : Serving first items m) (lines : Occurrence.lines items = earlier.map Line.classify)
    (rests : Rests earlier heard { m with sends } m') :
    m'.Follows first (Occurrence.changes items) ∧
      m'.conn.received = m.conn.received ++ heard := by
  rcases rests with ⟨⟨bodies, attends⟩, waits⟩
  have mirrors : Mirrors { m with sends } (first.serve items) :=
    ⟨serving.mirrors.session, serving.mirrors.deps, serving.mirrors.output, serving.mirrors.closed⟩
  refine ⟨⟨items ++ bodies.map fun body => .line (.classify body), ⟨?_, ⟨_, attends.took, ?_⟩,
    attends.sized ⟨serving.sized.readLimit, serving.sized.writeLimit⟩⟩, ?_, waits⟩,
    attends.received⟩
  · have served : first.serve (items ++ bodies.map fun body => .line (.classify body)) =
        (first.serve items).answerAll (bodies.map Line.classify) := by
      simp only [Sequential.serve, Sequential.answerAll, List.foldl_append, List.foldl_map]
      rfl
    rw [served]
    exact attends.mirrors _ mirrors
  · rw [List.map_append, ← lines]
    simp [Occurrence.lines, List.filterMap_map]
  · simp [Occurrence.changes, List.filterMap_map]

theorem Serving.elsewhere {items : List Occurrence} (serving : Serving first items m)
    (change : MgmtDeps → MgmtDeps) :
    Serving first (items ++ [.elsewhere change]) { m with deps := change m.deps } := by
  rcases serving with ⟨mirrors, ⟨bodies, took, lines⟩, sized⟩
  refine ⟨?_, ⟨bodies, took, ?_⟩, sized.readLimit, sized.writeLimit⟩
  · rw [Sequential.serve, List.foldl_append]
    exact ⟨mirrors.session, congrArg change mirrors.deps, mirrors.output, mirrors.closed⟩
  · simpa [Occurrence.lines] using lines

/-- No event makes a handler fault or run for ever, and all of them keep the connection in step with
the sequential server. What it has received is what `recv()` has delivered. -/
theorem Follows.step (follows : m.Follows first changes) (event : MgmtEvent) :
    ∃ m', m.step event = .ok m' ∧ m'.Follows first (changes ++ MgmtEvent.changes [event]) ∧
      m'.conn.received = m.conn.received ++ m.delivers event := by
  rcases follows with ⟨items, serving, rfl, waits⟩
  rcases serving.took with ⟨earlier, took, lines⟩
  have sized : ∀ sends, Sized { m with sends } := fun _ =>
    ⟨serving.sized.readLimit, serving.sized.writeLimit⟩
  have idle : m.Follows first (Occurrence.changes items ++ []) :=
    ⟨items, serving, (List.append_nil _).symm, waits⟩
  cases event with
  | read answer sends =>
      by_cases registered : m.item = some OP_READ
      · rcases wp_mgmtRead (m := { m with sends }) answer sends registered took (sized sends)
          ⟨waits.item, waits.drained⟩ with ⟨_, m', ran, rests⟩
        rcases serving.attended lines rests with ⟨follows, received⟩
        refine ⟨m', by simp only [MgmtState.step, if_pos registered, ran, Except.map],
          by simpa [MgmtEvent.changes] using follows, received.trans ?_⟩
        cases answer <;> rfl
      · refine ⟨m, if_neg registered, idle, ?_⟩
        cases answer <;> simp [delivers, registered]
  | write sends =>
      by_cases registered : m.item = some OP_WRITE
      · rcases wp_mgmtWrite (m := { m with sends }) registered took (sized sends)
          ⟨waits.item, waits.drained⟩ with ⟨_, m', ran, rests⟩
        rcases serving.attended lines rests with ⟨follows, received⟩
        exact ⟨m', by simp only [MgmtState.step, if_pos registered, ran, Except.map],
          by simpa [MgmtEvent.changes] using follows, received⟩
      · exact ⟨m, if_neg registered, idle, (List.append_nil _).symm⟩
  | elsewhere change =>
      refine ⟨_, rfl, ⟨items ++ [.elsewhere change], serving.elsewhere change, ?_,
        waits.item, waits.drained⟩, (List.append_nil _).symm⟩
      simp [Occurrence.changes, MgmtEvent.changes]

theorem Follows.run (follows : m.Follows first changes) (events : List MgmtEvent) :
    ∃ m', m.run events = .ok m' ∧ m'.Follows first (changes ++ MgmtEvent.changes events) ∧
      m'.conn.received = m.conn.received ++ m.delivered events := by
  induction events generalizing m changes with
  | nil => exact ⟨m, rfl, by simpa [MgmtEvent.changes] using follows, (List.append_nil _).symm⟩
  | cons event events ih =>
      rcases follows.step event with ⟨m₁, stepped, follows₁, received₁⟩
      rcases ih follows₁ with ⟨m₂, ran, follows₂, received₂⟩
      refine ⟨m₂, ?_, ?_, ?_⟩
      · rw [MgmtState.run, stepped]
        exact ran
      · rwa [List.append_assoc, show MgmtEvent.changes [event] ++ MgmtEvent.changes events =
          MgmtEvent.changes (event :: events) from (List.filterMap_append (l := [event])).symm]
          at follows₂
      · rw [received₂, received₁, delivered, stepped, List.append_assoc]

/-- Management sessions answer one complete response for each line, in order. Whatever a client
sends, however its bytes and the responses are cut into pieces, and whatever happens elsewhere, no
handler faults or loops for ever, and the connection is where the sequential server is after some of
the lines that have been received: what was sent begins what that server answers to all of them, and
is all of it once no output is left; a line after the one that closes the session has no effect.
While the connection waits to be read from, no line is left to be answered. -/
theorem responses_are_sequential (deps : MgmtDeps) (events : List MgmtEvent) :
    ∃ (m : MgmtState) (items : List Occurrence) (unanswered : List Line),
      (accepted deps).run events = .ok m ∧
      m.conn.received = (accepted deps).delivered events ∧
      Occurrence.changes items = MgmtEvent.changes events ∧
      Occurrence.lines items ++ unanswered =
        (Framing.cut LF m.conn.received).1.map Line.classify ∧
      (let served := (Sequential.start deps).serve items
       m.deps = served.deps ∧ m.conn.session = served.session ∧
        m.conn.sent ++ m.conn.writeBuffer.contents = served.output ∧
        m.conn.sent <+: (served.answerAll unanswered).output ∧
        (m.conn.writeBuffer.contents = [] →
          m.conn.sent = (served.answerAll unanswered).output) ∧
        (served.closed = true → m.deps = (served.answerAll unanswered).deps)) ∧
      (m.item.isSome = true → m.conn.writeBuffer.contents ≠ [] → m.item = some OP_WRITE) ∧
      (m.item = some OP_READ → m.conn.writeBuffer.contents = [] ∧ unanswered = []) := by
  rcases (follows_accepted deps).run events with
    ⟨m, ran, ⟨items, ⟨mirrors, ⟨bodies, ⟨current, received, ended, begun, holds⟩, lines⟩, -⟩,
      changed, waits⟩, arrived⟩
  let rest := (Framing.cut LF (current ++ m.conn.readBuffer.contents)).1.map Line.classify
  have nothing : m.conn.readBuffer.contents = [] → rest = [] := by
    intro empty
    simp only [rest, empty, List.append_nil, Framing.cut_of_not_mem LF begun, List.map_nil]
  have sent := mirrors.output
  refine ⟨m, items, rest, ran, arrived, by simpa using changed, ?_,
    ⟨mirrors.deps, mirrors.session, sent, ?_, ?_, ?_⟩, ?_, ?_⟩
  · rw [lines, received, List.append_assoc, Framing.cut_join LF ended, List.map_append]
  · exact (List.prefix_append _ _).trans (sent ▸ Sequential.output_answerAll _ _)
  · intro empty
    rw [empty, List.append_nil] at sent
    rcases waits.drained empty with closing | drained
    · rw [Sequential.answerAll_of_closed (mirrors.closed ▸ closing), sent]
    · rw [nothing drained]
      exact sent
  · intro closed
    rw [Sequential.answerAll_of_closed closed]
    exact mirrors.deps
  · intro registered pending
    rcases waits.item with none | ⟨writes, -⟩ | ⟨-, empty, -⟩
    · simp [none] at registered
    · exact writes
    · exact absurd empty pending
  · intro reads
    rcases waits.reading reads with ⟨empty, -, drained⟩
    exact ⟨empty, nothing drained⟩

end MgmtState

end SocksProxy
