import SocksProxy.Guarantees.Process
import SocksProxy.Management.Connections

/-!
# Room to read into

Nothing checks, where a socket is read, that there is room for what arrives; a
`recv()` of no bytes would look like the end of the stream. It follows from what
connections are waiting for: the handshake has used up its input, a relay is
armed for reading only if it has room, and a management connection has answered
every line. The model counts a `recv()` without room as a fault, and the runs
have none.
-/

namespace SocksProxy

/-- Wherever a connection waits to be read from, there is room for what arrives. -/
structure HasRoom (sel : Selector) (c : Conn) : Prop where
  handshake : ∀ phase, c.current = some phase → isReadState phase = true →
    c.readBuffer.contents = [] ∧ 0 < c.readBuffer.space
  client : c.current = some .relay → ∀ interest, sel.armed c.clientFd = some interest →
    interest.read = true → 0 < c.readBuffer.space
  origin : c.current = some .relay → ∀ interest, sel.armed c.originFd = some interest →
    interest.read = true → 0 < c.writeBuffer.space

namespace World

variable {trusted : Prop} {w : World} {view : View} {k : ConnId} {c : Conn} {e : Ends}

theorem hasRoom_of_atRest (inv : Inv trusted view w) (mine : view k = some e)
    (rest : AtRest trusted c e) : HasRoom w.sh.sel c := by
  have relays : c.current = some .relay → RelayArmed c e := by
    intro phase
    have armed := rest.armed
    rw [show stmState c = .relay by simp [stmState, phase]] at armed
    simpa [Armed, phase] using armed.2
  refine ⟨fun phase current reading => ?_, fun phase interest armed wanted => ?_,
    fun phase interest armed wanted => ?_⟩
  · have drained := (rest.drained phase current reading).2
    refine ⟨drained, ?_⟩
    rw [Buffer.space_of_empty _ drained]
    exact Nat.lt_of_lt_of_le (by decide) rest.fits.readLimit
  · rw [rest.fits.clientFd, show e.client.map End.fd = (e.get .client).map End.fd from rfl,
      armed_eq inv mine .client] at armed
    rcases Option.map_eq_some_iff.mp armed with ⟨a, client, rfl⟩
    exact ((relays phase).client_read client wanted).2
  · rw [rest.fits.originFd, show e.origin.map End.fd = (e.get .origin).map End.fd from rfl,
      armed_eq inv mine .origin] at armed
    rcases Option.map_eq_some_iff.mp armed with ⟨b, origin, rfl⟩
    exact ((relays phase).origin_read origin wanted).2

end World

theorem MgmtState.Follows.room {first : Sequential} {changes : List (MgmtDeps → MgmtDeps)}
    {m : MgmtState} (follows : m.Follows first changes) (reads : m.item = some OP_READ) :
    0 < m.conn.readBuffer.compact.space := by
  rcases follows with ⟨items, serving, -, waits⟩
  rw [Buffer.space_compact, (waits.reading reads).2.2, serving.sized.readLimit]
  decide

/-- A `recv()` that returns zero always means the end of the stream. In no run of the proxy,
whatever buffer size is configured when, and in no run of a management connection is a socket read
without room for at least one byte; and between two dispatches every connection that waits to be
read from has room. -/
theorem recv_always_has_room :
    (∀ users log now calendar events,
      (World.initial users log now calendar).run events ≠ .error .recvWithoutRoom) ∧
    (∀ w : World, w.Reachable → w.mode = .running ∨ w.mode = .joining →
      ∀ k c, w.heap k = some (.live c) → HasRoom w.sh.sel c) ∧
    (∀ deps events, (MgmtState.accepted deps).run events ≠ .error .recvWithoutRoom) ∧
    ∀ deps events m, (MgmtState.accepted deps).run events = .ok m → m.item = some OP_READ →
      0 < m.conn.readBuffer.compact.space := by
  refine ⟨?_, ?_, ?_, ?_⟩
  · intro users log now calendar events fault
    have initially : (World.initial users log now calendar).Ok False :=
      World.ok_initial users log now calendar
    have finished : ∃ w, (World.initial users log now calendar).run events = .ok w ∧ w.Ok False ∧
        World.Evolves (World.initial users log now calendar) w := World.run_ok initially False.elim
    rcases finished with ⟨w, ran, -⟩
    rw [ran] at fault
    cases fault
  · intro w reachable active k c found
    rcases reachable.ok with ⟨view, inv⟩
    rcases inv.resting found with ⟨e, mine, rest⟩
    refine World.hasRoom_of_atRest inv mine (show AtRest False c e from ?_)
    rcases active with mode | mode <;> simpa only [mode, Resting] using rest
  · intro deps events fault
    rcases (MgmtState.follows_accepted deps).run events with ⟨m, ran, -⟩
    rw [ran] at fault
    cases fault
  · intro deps events m ran
    rcases (MgmtState.follows_accepted deps).run events with ⟨m', ran', follows, -⟩
    rw [ran, Except.ok.injEq] at ran'
    exact ran' ▸ follows.room

end SocksProxy
