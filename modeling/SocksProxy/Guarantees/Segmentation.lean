import SocksProxy.Guarantees.Connections
import SocksProxy.Session.Transparency

/-!
# How a client's bytes are cut does not matter

Two connections, in one run or in two, under the same accounts, with the same
bytes from their clients and the same answers from the network. Whatever pieces
the bytes come in and the replies leave in, both go through the same phases, are
told the same and are understood the same; each relays what follows its
handshake, and neither waits for bytes that it has.
-/

namespace SocksProxy

open History Session

theorem AtRest.waiting {trusted : Prop} {c : Conn} {e : Ends} (rest : AtRest trusted c e) :
    c.session.Waiting where
  reading := by
    rintro ⟨phase, current, reads⟩
    exact rest.drained phase current reads
  answering := World.writeBuffer_ne_nil rest
  resolving := by
    intro current
    have armed := rest.armed
    rw [show stmState c = .reqResolve by simp [stmState, show c.current = _ from current]] at armed
    exact armed.2.2.2.1
  connecting := by
    intro current
    have armed := rest.armed
    rw [show stmState c = .reqConnecting by
      simp [stmState, show c.current = _ from current]] at armed
    exact armed.2.2.2.2.1

namespace World

/-- Nothing more is to come to the handshake of a connection: it is over, or the connection has had
all of the stream and of the answers, and has sent all of its replies. -/
inductive Settled (fixed : Circumstances) (w : World) : Cell → Prop where
  | ended (cell : Cell) (ended : cell.conn.session.Ended) : Settled fixed w cell
  | relayed (cell : Cell) (relayed : (relaySplit cell.conn.hist).isSome) : Settled fixed w cell
  | served (c : Conn) (running : w.mode = .running) (stream : received c.hist = fixed.stream)
      (answers : History.answers c.hist = fixed.answers) (flushed : c.writeBuffer.contents = [])
      (ends : isReadState (stmState c) = true → fixed.ends = false) :
      Settled fixed w (.live c)

variable {fixed : Circumstances} {w w₁ w₂ : World} {k k₁ k₂ : ConnId} {cell cell₁ cell₂ : Cell}

theorem Settled.concluded (settled : Settled fixed w cell) (reachable : w.Reachable)
    (found : w.heap k = some cell) : cell.conn.session.Concluded fixed := by
  cases settled with
  | ended _ ended => exact .ended ended
  | relayed _ split => exact .relayed split
  | served c running stream answers flushed ends =>
      rcases reachable.ok.atRest found (.inl running) with ⟨e, rest⟩
      refine .served rest.waiting stream answers flushed ?_
      rintro (fresh | ⟨phase, current, reads⟩)
      · exact ends (by simp [stmState, show c.current = none from fresh, isReadState])
      · exact ends (by simpa [stmState, show c.current = _ from current] using reads)

/-- A handshake does not depend on how the client's bytes are cut into pieces, nor on how the
replies leave. Under the same circumstances, of two connections one has come as far as the other and
perhaps further; when nothing more is to come to either, both have gone through the same phases,
queued the same replies and parsed the same credentials and the same request. A connection that
relays forwards what follows its handshake in the stream, and one that waits to be read from has
used everything that it has received. -/
theorem handshake_independent_of_segmentation (reachable₁ : w₁.Reachable)
    (reachable₂ : w₂.Reachable)
    (found₁ : w₁.heap k₁ = some cell₁) (found₂ : w₂.heap k₂ = some cell₂)
    (governed₁ : fixed.Governs cell₁.conn.hist) (governed₂ : fixed.Governs cell₂.conn.hist) :
    (essence (handshake cell₁.conn.hist) <:+ essence (handshake cell₂.conn.hist) ∨
      essence (handshake cell₂.conn.hist) <:+ essence (handshake cell₁.conn.hist)) ∧
    (Settled fixed w₁ cell₁ → Settled fixed w₂ cell₂ →
      phases (handshake cell₁.conn.hist) = phases (handshake cell₂.conn.hist) ∧
        queued (handshake cell₁.conn.hist) = queued (handshake cell₂.conn.hist) ∧
        cell₁.conn.auth = cell₂.conn.auth ∧ cell₁.conn.request = cell₂.conn.request) ∧
    ((relaySplit cell₁.conn.hist).isSome →
      forwarded cell₁.conn.hist ++ cell₁.conn.readBuffer.contents ++
          fixed.stream.drop (received cell₁.conn.hist).length =
        payload cell₁.conn.method fixed.stream) ∧
    (∀ c, cell₁ = .live c → w₁.mode = .running → c.session.Reading →
      c.session.Hungry ∧ c.readBuffer.contents = []) := by
  have session₁ := reachable₁.ok.session found₁
  have session₂ := reachable₂.ok.session found₂
  refine ⟨session₁.comparable session₂ governed₁ governed₂, ?_, session₁.forwards governed₁, ?_⟩
  · intro settled₁ settled₂
    rcases session₁.concluded_eq session₂ governed₁ governed₂
      (settled₁.concluded reachable₁ found₁) (settled₂.concluded reachable₂ found₂) with
      ⟨same, auth, request⟩
    refine ⟨?_, ?_, auth, request⟩
    · exact (phases_essence _).symm.trans ((congrArg phases same).trans (phases_essence _))
    · exact (queued_essence _).symm.trans ((congrArg queued same).trans (queued_essence _))
  · rintro c rfl running ⟨phase, current, reads⟩
    rcases reachable₁.ok.atRest found₁ (.inl running) with ⟨e, rest⟩
    exact rest.drained phase current reads

/-- What the client of the run above sends, and how it is answered. -/
def errand : Circumstances where
  accounts := []
  stream := [5, 1, 0, 5, 1, 0, 1, 127, 0, 0, 1, 0, 80, 104, 105]
  ends := true
  answers := [.attempt .established, .named (some loopback)]

/-- The same in one segment; the replies leave byte by byte or all at once. -/
def pipelined : List Event :=
  [.read 4 { quiet with recvs := [.data errand.stream] },
    .write 4 { quiet with sends := [.taken 1] },
    .write 4 { quiet with sends := [.taken 1], attempts := [⟨.ok 5, none, none, loopback⟩] },
    .write 4 { quiet with sends := [.taken 3] },
    .write 4 { quiet with sends := [.taken 99] }]

theorem handshake_independent_of_segmentation_in_conversation :
    ∃ (w₁ w₂ : World) (cell₁ cell₂ : Cell), w₁.Reachable ∧ w₂.Reachable ∧
      w₁.heap 0 = some cell₁ ∧ w₂.heap 0 = some cell₂ ∧
      errand.Governs cell₁.conn.hist ∧ errand.Governs cell₂.conn.hist ∧
      (relaySplit cell₁.conn.hist).isSome ∧ (relaySplit cell₂.conn.hist).isSome ∧
      phases (handshake cell₁.conn.hist) = phases (handshake cell₂.conn.hist) ∧
      queued (handshake cell₁.conn.hist) = queued (handshake cell₂.conn.hist) := by
  have first : endsWith (arrival ++ request ++ conversation)
      (histTest 0 fun h => decide (errand.Governs h) && (relaySplit h).isSome) = true := by
    decide +kernel
  have second : endsWith (arrival ++ pipelined)
      (histTest 0 fun h => decide (errand.Governs h) && (relaySplit h).isSome) = true := by
    decide +kernel
  rcases exists_of_endsWith first with ⟨w₁, reachable₁, passed₁⟩
  rcases exists_of_endsWith second with ⟨w₂, reachable₂, passed₂⟩
  rcases exists_of_histTest passed₁ with ⟨cell₁, found₁, test₁⟩
  rcases exists_of_histTest passed₂ with ⟨cell₂, found₂, test₂⟩
  rw [Bool.and_eq_true, decide_eq_true_iff] at test₁ test₂
  have same := (handshake_independent_of_segmentation reachable₁ reachable₂ found₁ found₂
    test₁.1 test₂.1).2.1 (.relayed cell₁ test₁.2) (.relayed cell₂ test₂.2)
  exact ⟨w₁, w₂, cell₁, cell₂, reachable₁, reachable₂, found₁, found₂, test₁.1, test₂.1,
    test₁.2, test₂.2, same.1, same.2.1⟩

end World

end SocksProxy
