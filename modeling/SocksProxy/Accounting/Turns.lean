import SocksProxy.Accounting.Acts

/-!
# What a dispatch can do

A dispatch runs handlers and moves the state machine between them. `Turn` adds
the moves to the acts of the handlers: relaying begins with the note of what was
left over, and is only left to end the connection.
-/

namespace SocksProxy

open Prog

/-- The connection relays or is over. -/
def Conn.Late (c : Conn) : Prop :=
  c.current = some .relay ∨ c.current = some .done ∨ c.current = some .error

/-- An act of a handler, or a move of the state machine. -/
inductive Turn (own : Fd → Prop) : Local → Local → Prop where
  | act {l l' : Local} (act : Act own l l') : Turn own l l'
  | move {id : ConnId} {c : Conn} {sh : Shared} (next : State) (handshake : next ≠ .relay)
      (last : c.Late → next = .done ∨ next = .error) :
      Turn own ⟨id, .live c, sh⟩
        ⟨id, .live { c with
          current := some next
          hist := if c.current = some next then c.hist else .entered next :: c.hist }, sh⟩
  | openRelay {id : ConnId} {c : Conn} {sh : Shared} (bytes : List UInt8) (early : ¬c.Late) :
      Turn own ⟨id, .live c, sh⟩
        ⟨id, .live { c with
          current := some .relay
          hist := .leftover bytes :: .entered .relay :: c.hist }, sh⟩

/-- Any number of turns, that leave the connection with descriptors of `own`. -/
structure Turns (own : Fd → Prop) (l₀ l : Local) : Prop where
  owns : Owns own l
  turns : Relation.ReflTransGen (Turn own) l₀ l

section

variable {own : Fd → Prop} {l₀ l l' : Local} {α : Type} {id : ConnId} {c : Conn} {cell : Cell}
  {sh : Shared}

theorem Turns.refl (owns : Owns own l) : Turns own l l := ⟨owns, .refl⟩

theorem Turns.does (turned : Turns own l₀ l) (done : Does own l l') : Turns own l₀ l' where
  owns := done.owns
  turns := turned.turns.trans (Relation.ReflTransGen.mono (fun _ _ => Turn.act) _ _ done.acts)

theorem Turns.act (turned : Turns own l₀ l) (act : Act own l l') : Turns own l₀ l' :=
  turned.does ((Does.refl turned.owns).tail act)

theorem Turns.move (turned : Turns own l₀ ⟨id, .live c, sh⟩) (next : State)
    (handshake : next ≠ .relay) (last : c.Late → next = .done ∨ next = .error) :
    Turns own l₀ ⟨id, .live { c with
      current := some next
      hist := if c.current = some next then c.hist else .entered next :: c.hist }, sh⟩ where
  owns := ⟨by rintro _ ⟨⟩; exact turned.owns.named c rfl, turned.owns.unclaimed⟩
  turns := turned.turns.tail (.move next handshake last)

theorem Turns.openRelay (turned : Turns own l₀ ⟨id, .live c, sh⟩) (bytes : List UInt8)
    (early : ¬c.Late) :
    Turns own l₀ ⟨id, .live { c with
      current := some .relay
      hist := .leftover bytes :: .entered .relay :: c.hist }, sh⟩ where
  owns := ⟨by rintro _ ⟨⟩; exact turned.owns.named c rfl, turned.owns.unclaimed⟩
  turns := turned.turns.tail (.openRelay bytes early)

theorem keeps_turns {program : M α} (keeps : ∀ l, Keeps (Does own l) program) :
    Keeps (Turns own l₀) program := by
  intro l turned
  exact wlp_mono (keeps l l (.refl turned.owns)) fun _ _ done => turned.does done

/-! ## The state machine -/

theorem wlp_setCurrent {next : State} {post : Unit → Local → Prop} :
    wlp (setCurrent next) post ⟨id, cell, sh⟩ ↔ ∀ c, cell = .live c → post () ⟨id, .live { c with
      current := some next
      hist := if c.current = some next then c.hist else .entered next :: c.hist }, sh⟩ := by
  simp only [setCurrent, wlp_modifyConn]

theorem keeps_onArrival {next : State} (handshake : next ≠ .relay) :
    Keeps (Turns own l₀) (onArrival next) := by
  cases next with
  | negRead | authRead | reqRead =>
      exact keeps_turns fun _ => keeps_setFields fun _ => ⟨rfl, rfl, rfl, rfl, rfl⟩
  | relay => exact absurd rfl handshake
  | _ => exact .pure _

theorem wlp_enterRelay (turned : Turns own l₀ ⟨id, .live c, sh⟩) (early : ¬c.Late) :
    wlp (do
      setCurrent .relay
      onArrival .relay) (fun _ => Turns own l₀) ⟨id, .live c, sh⟩ := by
  have moved : c.current ≠ some .relay := fun relaying => early (.inl relaying)
  rw [wlp_bind, wlp_setCurrent]
  rintro _ ⟨⟩
  rw [onArrival, relayInit, wlp_bind, wlp_getConn]
  rintro _ ⟨⟩
  rw [wlp_bind, wlp_observe]
  rintro _ ⟨⟩
  simp only [if_neg moved]
  have opened : Keeps (Turns own l₀) (do
      modifyConn fun c => { c with
        clientClosed := false, originClosed := false, clientWrShut := false, originWrShut := false }
      if (← relayUpdate) = .error then modifyConn fun c => { c with arrivalError := true }
      else pure ()) := by
    refine .bind (keeps_turns fun _ => keeps_setFields fun _ => ⟨rfl, rfl, rfl, rfl, rfl⟩)
      fun _ => .bind (keeps_turns fun _ => keeps_relayUpdate) fun _ => .ite (fun _ => ?_)
        fun _ => .pure _
    exact keeps_turns fun _ => keeps_setFields fun _ => ⟨rfl, rfl, rfl, rfl, rfl⟩
  exact opened _ (turned.openRelay _ early)

/-- A move is allowed unless it leads out of the relay to anything but the end. -/
def Allows (current : Option State) (next : State) : Prop :=
  (current = some .relay → next = .relay ∨ next = .done ∨ next = .error) ∧
    current ≠ some .done ∧ current ≠ some .error

theorem wlp_jump {next : State} (turned : Turns own l₀ ⟨id, cell, sh⟩)
    (allows : ∀ c, cell = .live c → Allows c.current next) :
    wlp (jump next) (fun _ => Turns own l₀) ⟨id, cell, sh⟩ := by
  simp only [jump, wlp_ite, wlp_throw]
  split
  · trivial
  · rw [wlp_bind, wlp_getConn]
    rintro c rfl
    rcases allows c rfl with ⟨onward, notDone, notError⟩
    rw [wlp_ite]
    split
    · exact (wlp_pure ..).mpr turned
    · next moves =>
        by_cases relays : next = .relay
        · subst relays
          refine wlp_enterRelay turned ?_
          rintro (phase | phase | phase)
          · exact moves phase
          · exact notDone phase
          · exact notError phase
        · rw [wlp_bind, wlp_setCurrent]
          rintro _ ⟨⟩
          refine keeps_onArrival relays _ (turned.move next relays ?_)
          rintro (phase | phase | phase)
          · exact (onward phase).resolve_left relays
          · exact absurd phase notDone
          · exact absurd phase notError

theorem keeps_handleFirst : Keeps (Turns own l₀) handleFirst := by
  rintro ⟨id, cell, sh⟩ turned
  rw [handleFirst, wlp_bind, wlp_getConn]
  rintro c rfl
  rw [wlp_ite]
  split
  · next fresh =>
      rw [wlp_bind, wlp_setCurrent]
      rintro _ ⟨⟩
      refine keeps_onArrival (by decide) _ (turned.move .negRead (by decide) ?_)
      rintro (phase | phase | phase) <;> simp [fresh] at phase
  · exact (wlp_pure ..).mpr turned

/-- What the handlers of a column do: only acts, and a relay is only left to end. -/
def Lawful (own : Fd → Prop) (column : State → Option (M State)) : Prop :=
  ∀ phase handler, column phase = some handler → phase ≠ .done ∧ phase ≠ .error ∧
    (∀ l, l.cell.conn.current = some phase → Keeps (Does own l) handler) ∧
    (phase = .relay → Returns (fun next => next = .relay ∨ next = .done ∨ next = .error) handler)

theorem keeps_stmHandler {column : State → Option (M State)} (lawful : Lawful own column) :
    Keeps (Turns own l₀) (stmHandler column) := by
  refine .bind keeps_handleFirst fun _ => ?_
  rintro ⟨id, cell, sh⟩ turned
  rw [wlp_bind, wlp_getConn]
  rintro c rfl
  split
  · exact (wlp_throw ..).mpr trivial
  · next handler found =>
      rcases Option.bind_eq_some_iff.mp found with ⟨phase, current, column⟩
      rcases lawful phase handler column with ⟨notDone, notError, keeps, returns⟩
      rw [wlp_bind]
      intro next l ran
      have done := keeps ⟨id, .live c, sh⟩ current _ (.refl turned.owns) next l ran
      rcases l with ⟨id', cell', sh'⟩
      rw [wlp_bind]
      refine wlp_mono (wlp_jump (turned.does done) ?_) fun _ _ turned' =>
        (wlp_pure ..).mpr turned'
      rintro c' rfl
      have same : c'.current = some phase := done.current.trans current
      rw [same]
      refine ⟨fun relays => ?_, by simpa using notDone, by simpa using notError⟩
      exact returns (Option.some.inj relays) _ next _ ran

/-! ## The columns -/

theorem returns_relayUpdate :
    Returns (fun next => next = .relay ∨ next = .done ∨ next = .error) relayUpdate :=
  .bind fun _ => .bind fun _ => .bind fun _ => .bind fun _ => .ite (.pure (by simp)) <|
    .bind fun _ => .ite (.bind fun _ => .ite (.pure (by simp)) (.pure (by simp))) (.pure (by simp))

theorem returns_relayRead (fd : Fd) :
    Returns (fun next => next = .relay ∨ next = .done ∨ next = .error) (relayRead fd) := by
  refine .bind fun c => .bind fun result => ?_
  cases result with
  | bytes received =>
      exact .bind fun _ => .bind fun _ => .bind fun _ => .ite (.pure (by simp)) returns_relayUpdate
  | failed errno =>
      refine .pure ?_
      split <;> simp
  | zero => exact .bind fun _ => returns_relayUpdate

theorem returns_relayWrite (fd : Fd) :
    Returns (fun next => next = .relay ∨ next = .done ∨ next = .error) (relayWrite fd) :=
  .bind fun _ => .bind fun _ => .ite (.pure (by simp)) returns_relayUpdate

theorem lawful_onReadReady {fd : Fd} (mine : own fd) : Lawful own (onReadReady fd) := by
  intro phase handler found
  cases phase <;> cases found
  case negRead =>
    exact ⟨by decide, by decide, fun _ current =>
      keeps_negotiationRead ⟨_, current, rfl⟩ mine, by simp⟩
  case authRead =>
    exact ⟨by decide, by decide, fun _ current => keeps_authRead ⟨_, current, rfl⟩ mine, by simp⟩
  case reqRead =>
    exact ⟨by decide, by decide, fun _ current => keeps_requestRead ⟨_, current, rfl⟩ mine,
      by simp⟩
  case relay =>
    exact ⟨by decide, by decide, fun _ current => keeps_relayRead current fd,
      fun _ => returns_relayRead fd⟩

theorem lawful_onWriteReady {fd : Fd} (mine : own fd) : Lawful own (onWriteReady fd) := by
  intro phase handler found
  cases phase <;> cases found
  case negWrite => exact ⟨by decide, by decide, fun _ _ => keeps_negotiationWrite mine, by simp⟩
  case authWrite => exact ⟨by decide, by decide, fun _ _ => keeps_authWrite mine, by simp⟩
  case reqConnecting => exact ⟨by decide, by decide, fun _ _ => keeps_requestConnecting fd, by simp⟩
  case reqWrite => exact ⟨by decide, by decide, fun _ _ => keeps_requestWrite, by simp⟩
  case relay =>
    exact ⟨by decide, by decide, fun _ _ => keeps_relayWrite fd, fun _ => returns_relayWrite fd⟩

theorem lawful_onBlockReady : Lawful own onBlockReady := by
  intro phase handler found
  cases phase <;> cases found
  exact ⟨by decide, by decide, fun _ _ => keeps_requestResolveDone, by simp⟩

/-! ## Dispatches -/

theorem keeps_advanceLoop {fd : Fd} (mine : own fd) (rounds : Nat) (st : State) :
    Keeps (Turns own l₀) (advanceLoop fd rounds st) := by
  induction rounds generalizing st with
  | zero =>
      exact .bind (keeps_turns fun _ => keeps_getConn) fun _ =>
        .ite (fun _ => .throw _) fun _ => .pure _
  | succ rounds ih =>
      rw [advanceLoop]
      exact .bind (keeps_turns fun _ => keeps_getConn) fun _ =>
        .ite (fun _ => .bind (keeps_stmHandler (lawful_onReadReady mine)) fun st => ih st)
          fun _ => .pure _

theorem keeps_socks5Advance {fd : Fd} (mine : own fd) (st : State) :
    Keeps (Turns own l₀) (socks5Advance fd st) := by
  refine .bind .get fun l => .bind ?_ fun _ => .bind (keeps_advanceLoop mine 2 st) fun st =>
    .bind (keeps_turns fun _ => keeps_getConn) fun _ => .ite (fun _ => ?_) fun _ => .pure _
  · exact keeps_turns fun _ => keeps_setFields fun _ => ⟨rfl, rfl, rfl, rfl, rfl⟩
  · exact keeps_turns fun _ => keeps_socks5Done

theorem keeps_socks5Read {fd : Fd} (mine : own fd) : Keeps (Turns own l₀) (socks5Read fd) :=
  .bind (keeps_stmHandler (lawful_onReadReady mine)) fun st => keeps_socks5Advance mine st

theorem keeps_socks5Write {fd : Fd} (mine : own fd) : Keeps (Turns own l₀) (socks5Write fd) :=
  .bind (keeps_stmHandler (lawful_onWriteReady mine)) fun st => keeps_socks5Advance mine st

theorem keeps_socks5Block {fd : Fd} (mine : own fd) : Keeps (Turns own l₀) (socks5Block fd) :=
  .bind (keeps_turns fun _ => keeps_getConn) fun _ => .ite (fun _ => .pure _) fun _ =>
    .bind (keeps_stmHandler lawful_onBlockReady) fun st => keeps_socks5Advance mine st

/-! ## The reaper -/

/-- The states that a request goes on to once its target is known. -/
abbrev State.Onward (next : State) : Prop :=
  next = .error ∨ next = .reqWrite ∨ next = .reqConnecting

theorem returns_armed {fd : Option Fd} {interest : Interest} {yes no : State}
    (first : yes.Onward) (second : no.Onward) :
    Returns State.Onward (do if ← selectorSetInterest fd interest then pure yes else pure no) :=
  .bind fun _ => .ite (.pure first) (.pure second)

theorem returns_requestFail (rep : UInt8) : Returns State.Onward (requestFail rep) :=
  .bind fun _ => .bind fun _ => .bind fun _ => .bind fun _ => .bind fun _ => .bind fun _ =>
    returns_armed (by decide) (by decide)

theorem returns_requestConnectSuccess : Returns State.Onward requestConnectSuccess := by
  refine .bind fun c => .bind fun l => .bind fun _ => .bind fun name => .bind fun _ => ?_
  cases name with
  | none => exact returns_requestFail _
  | some sa =>
      refine .bind fun _ => .bind fun c => ?_
      split
      · exact returns_requestFail _
      · exact .bind fun _ => .bind fun _ => .bind fun _ => .bind fun _ => .bind fun _ =>
          .ite (.bind fun _ => returns_armed (by decide) (by decide)) (.pure (by decide))

/-- A round of `request_connect` goes on to the next candidate, or returns as it does. -/
theorem returns_tryCandidate (target : Sockaddr) :
    Returns (fun result => ∀ next ∈ result, State.Onward next) (tryCandidate target) := by
  have failed (errno : Errno) : Returns (fun result => ∀ next ∈ result, State.Onward next) (do
      failAttempt target errno
      pure none) := .bind fun _ => .pure (by simp)
  have answered {answers : M State} (returns : Returns State.Onward answers) :
      Returns (fun result => ∀ next ∈ result, State.Onward next) (do
        let next ← answers
        pure (some next)) :=
    .bind_of returns fun next onward => .pure (by simpa using onward)
  refine .bind fun answer => .bind fun opened => ?_
  cases opened with
  | error errno => exact failed errno
  | ok fd =>
      dsimp only
      split
      · exact .bind fun _ => failed _
      · refine .bind fun _ => ?_
        split
        · exact .bind fun _ => .ite (.bind fun _ => answered returns_requestConnectSuccess)
            (.bind fun _ => answered (returns_requestFail _))
        · exact .bind fun _ => .ite (.bind fun _ => .bind fun _ => .bind fun _ =>
            .ite (.pure (by simp [State.Onward])) (.pure (by simp [State.Onward])))
            (.bind fun _ => answered (returns_requestFail _))
        · exact .bind fun _ => failed _

theorem returns_requestConnectFrom (targets : List Sockaddr) :
    Returns State.Onward (requestConnectFrom targets) := by
  induction targets with
  | nil => exact .bind fun _ => returns_requestFail _
  | cons target rest ih =>
      refine .bind fun _ => .bind_of (returns_tryCandidate target) fun result onward => ?_
      cases result with
      | none => exact ih
      | some next => exact .pure (onward next rfl)

theorem returns_requestConnect : Returns State.Onward requestConnect :=
  .bind fun _ => returns_requestConnectFrom _

theorem State.Onward.ne_relay {next : State} (onward : next.Onward) : next ≠ .relay := by
  rcases onward with rfl | rfl | rfl <;> decide

theorem returns_requestResolveDone : Returns (· ≠ .relay) requestResolveDone :=
  .bind fun _ => .bind fun _ => .ite (.bind fun _ => .bind fun _ =>
    .ite ((returns_requestFail _).mono fun _ => State.Onward.ne_relay)
      (.bind fun _ => returns_requestConnect.mono fun _ => State.Onward.ne_relay))
      (.pure (by decide))

theorem keeps_reaped (now : Int) {program : M State} (keeps : ∀ l, Keeps (Does own l) program)
    (returns : Returns (· ≠ .relay) program) (turned : Turns own l₀ ⟨id, cell, sh⟩)
    (early : ¬cell.conn.Late) :
    wlp (do
      let next ← program
      reapNext now next) (fun _ => Turns own l₀) ⟨id, cell, sh⟩ := by
  rw [wlp_bind]
  intro next l ran
  have done := keeps ⟨id, cell, sh⟩ _ (.refl turned.owns) next l ran
  rcases l with ⟨id', cell', sh'⟩
  rw [reapNext, wlp_ite]
  split
  · exact keeps_turns (fun _ => keeps_socks5Done) _ (turned.does done)
  · rw [wlp_bind, wlp_modifyConn]
    rintro c' rfl
    rw [wlp_setCurrent]
    rintro _ ⟨⟩
    have same : c'.current = cell.conn.current := done.current
    have active : Turns own l₀ ⟨id', .live { c' with lastActivity := now }, sh'⟩ :=
      (turned.does done).act (.conn rfl rfl rfl (.inl rfl) fun _ => .inl)
    refine active.move next (returns _ next _ ran) fun late => ?_
    exact absurd (by simpa [Conn.Late, same] using late) early

theorem not_late_of_stmState {state : State} (current : stmState c = state)
    (handshake : state ≠ .relay ∧ state ≠ .done ∧ state ≠ .error) : ¬c.Late := by
  rintro (phase | phase | phase) <;> simp [stmState, phase] at current
  · exact handshake.1 current.symm
  · exact handshake.2.1 current.symm
  · exact handshake.2.2 current.symm

theorem keeps_reapExpired (now : Int) : Keeps (Turns own l₀) (reapExpired now) := by
  rintro ⟨id, cell, sh⟩ turned
  rw [reapExpired, wlp_bind, wlp_get, wlp_bind, wlp_getConn]
  rintro c rfl
  rw [wlp_bind, wlp_observe]
  rintro _ ⟨⟩
  have noted := turned.act (.observe .timedOut (.inl rfl))
  rw [wlp_ite]
  split
  · next connecting =>
      exact keeps_reaped now (fun _ => keeps_requestFail _)
        ((returns_requestFail _).mono fun _ => State.Onward.ne_relay) noted
        (not_late_of_stmState (c := c) connecting (by decide))
  · rw [wlp_ite]
    split
    · next resolving =>
        rw [wlp_bind]
        intro _ l ran
        have done := keeps_locked (fun _ => keeps_hasResult_socks5ResolverCancelConn id) _
          (.refl noted.owns) _ l ran
        rcases l with ⟨id', cell', sh'⟩
        rw [wlp_bind, wlp_getConn]
        rintro c' rfl
        have early : ¬c'.Late := by
          have same : c'.current = c.current := done.current
          have before : ¬c.Late := not_late_of_stmState resolving (by decide)
          simpa [Conn.Late, same] using before
        rw [wlp_ite]
        split
        · next gone =>
            rw [wlp_bind]
            refine wlp_mono (wlp_connMarkInactive (.refl done.owns) gone) fun _ l inactive => ?_
            exact keeps_turns (fun _ => keeps_socks5ConnFreeIfUnreferenced) _
              ((noted.does done).does inactive)
        · exact keeps_reaped now (fun _ => keeps_requestFail _)
            ((returns_requestFail _).mono fun _ => State.Onward.ne_relay)
            (noted.does done) early
    · exact keeps_turns (fun _ => keeps_socks5Done) _ noted

theorem keeps_reapConn : Keeps (Turns own l₀) reapConn := by
  refine .bind .get fun l => ?_
  rintro ⟨id, cell, sh⟩ turned
  have expired : Keeps (Turns own l₀) (do
      if idleTimeoutExpired l.sh.env.now (← getConn).lastActivity l.sh.config.connTimeout.toNat then
        reapExpired l.sh.env.now
      else pure ()) :=
    .bind (keeps_turns fun _ => keeps_getConn) fun _ =>
      .ite (fun _ => keeps_reapExpired _) fun _ => .pure _
  rw [wlp_bind, lookupCompleted, wlp_bind, wlp_get, wlp_bind, wlp_getConn]
  rintro c rfl
  rw [wlp_ite]
  split
  · next resolving =>
      intro completed l' ran
      have done := keeps_locked (fun _ => keeps_hasResult_socks5ResolverIsCompleted id) _
        (.refl turned.owns) completed l' ran
      rcases l' with ⟨id', cell', sh'⟩
      rw [wlp_ite]
      split
      · have same : cell'.conn.current = c.current := done.current
        have before : ¬c.Late := not_late_of_stmState resolving (by decide)
        exact keeps_reaped _ (fun _ => keeps_requestResolveDone) returns_requestResolveDone
          (turned.does done) (by simpa [Conn.Late, same] using before)
      · exact expired _ (turned.does done)
  · rw [wlp_pure]
    exact expired _ turned

end

end SocksProxy
