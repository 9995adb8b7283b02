import SocksProxy.Safety.Runs

/-!
# What every connection can rely on

The results about single connections, for every run of the process: who is
served, what the client is told before it is served, and what is relayed. A
connection takes only steps of its session, so all of it is read off the
session; the runs range over all events, answers of the kernel and changes of
the user store.
-/

namespace SocksProxy

open History

namespace Session

/-- Everything the proxy may say before it relays: a refusal of every method, a refusal of the
credentials, or one complete reply after either way of being admitted. -/
inductive Dialogue (h : List Obs) : List UInt8 → Prop where
  | refused : Dialogue h [0x05, 0xFF]
  | noauth (rep : UInt8) (reply : List UInt8) (ok : ReplyOk h rep reply) :
      Dialogue h (0x05 :: 0x00 :: reply)
  | denied (status : UInt8) (failure : status ≠ 0) : Dialogue h [0x05, 0x02, 0x01, status]
  | userpass (rep : UInt8) (reply : List UInt8) (ok : ReplyOk h rep reply) :
      Dialogue h (0x05 :: 0x02 :: 0x01 :: 0x00 :: reply)

theorem replyOk_failure (h : List Obs) :
    ReplyOk h SOCKS5_REP_GENERAL_FAILURE (nullReply SOCKS5_REP_GENERAL_FAILURE SOCKS5_ATYP_IPV4) :=
  ⟨isReply_nullReply _, fun success => absurd success (by decide)⟩

theorem Script.dialogue {h ds : List Obs} (script : Script h ds) :
    ∃ full, Dialogue h full ∧ queued ds <+: full := by
  cases script with
  | silent => exact ⟨_, .refused, by simp⟩
  | method method store known =>
      rcases known with rfl | rfl | rfl
      · exact ⟨_, .refused, List.prefix_rfl⟩
      · exact ⟨_, .noauth _ _ (replyOk_failure h), _, rfl⟩
      · exact ⟨_, .denied 1 (by decide), [1, 1], rfl⟩
  | status status before store =>
      by_cases ok : status = 0
      · subst ok
        exact ⟨_, .userpass _ _ (replyOk_failure h), _, rfl⟩
      · exact ⟨_, .denied status ok, List.prefix_rfl⟩
  | reply rep reply ds warranted ok =>
      cases warranted with
      | noauth => exact ⟨_, .noauth rep reply ok, List.prefix_rfl⟩
      | userpass => exact ⟨_, .userpass rep reply ok, List.prefix_rfl⟩

/-- Replies to the request that were queued. -/
def replies (h : List Obs) : List Obs :=
  h.filter fun
    | .replied _ _ => true
    | _ => false

/-- The decisions after which nothing more is said to the client. -/
inductive Refused : List Obs → Prop where
  | method (store : Users) : Refused [.chose SOCKS5_METHOD_NONE store]
  | status (status : UInt8) (before store : Users) (failure : status ≠ SOCKS5_AUTH_OK) :
      Refused [.validated status store, .chose SOCKS5_METHOD_USERPASS before]
  | reply (rep : UInt8) (reply : List UInt8) (ds : List Obs) (failure : rep ≠ SOCKS5_REP_SUCCESS) :
      Refused (.replied rep reply :: ds)

theorem replies_decisions (h : List Obs) : replies (decisions h) = replies h := by
  unfold replies decisions
  rw [List.filter_filter]
  congr 1
  funext what
  cases what <;> rfl

theorem Script.length_replies_le {h ds : List Obs} (script : Script h ds) :
    (replies ds).length ≤ 1 := by
  cases script with
  | silent | method | status => simp [replies]
  | reply rep reply ds warranted ok => cases warranted <;> simp [replies]

theorem Admitted.not_refused {s : Session} {ds : List Obs} {input : List UInt8}
    (admitted : s.Admitted ds input) : ¬Refused ds := by
  intro refused
  cases admitted with
  | noauth => nomatch refused
  | userpass =>
      cases refused with
      | status _ _ _ failure => exact failure rfl

theorem Stage.answering_of_refused {s : Session} (stage : s.Stage) (going : ¬s.Ended)
    (refused : Refused (decisions s.hist)) : s.Answering := by
  unfold Stage at stage
  split at stage
  · rw [stage.1] at refused
    nomatch refused
  · rw [stage.1] at refused
    nomatch refused
  · next phase => exact .inl phase
  · rcases stage with ⟨-, -, -, -, -, -, store, decided⟩
    rw [decided] at refused
    nomatch refused
  · next phase => exact .inr (.inl phase)
  · rcases stage with ⟨-, input, admitted, -⟩
    exact absurd refused admitted.not_refused
  · rcases stage with ⟨-, -, -, input, admitted, -⟩
    exact absurd refused admitted.not_refused
  · rcases stage with ⟨-, -, -, input, admitted, -⟩
    exact absurd refused admitted.not_refused
  · next phase => exact .inr (.inr phase)
  · rcases stage with ⟨-, ds, input, reply, admitted, -, decided, -⟩
    rw [decided] at refused
    cases refused with
    | reply _ _ _ failure => exact absurd rfl failure
  · next phase => exact absurd (.inl phase) going
  · next phase => exact absurd (.inr phase) going

theorem Relayed.decisions_hist {s : Session} {late early : List Obs} {pipelined : List UInt8}
    (relayed : s.Relayed late pipelined early)
    (split : relaySplit s.hist = some (late, pipelined, early)) :
    decisions s.hist = decisions early := by
  rw [eq_append_of_relaySplit split, decisions_append_of_plain relayed.undecided]
  rfl

/-- During the handshake the client was sent a part of the queued replies. -/
theorem Reachable.sent_handshake {trusted : Prop} {s : Session} (reachable : s.Reachable trusted) :
    sent (handshake s.hist) <+: queued s.hist := by
  have flow := reachable.invariant.1
  unfold handshake
  cases split : relaySplit s.hist with
  | none =>
      rw [← (flow.early split).1.balance]
      exact List.prefix_append _ _
  | some parts =>
      rcases parts with ⟨late, pipelined, early⟩
      have relayed := (flow.late split).2
      rw [queued_eq_decisions, relayed.decisions_hist split, ← queued_eq_decisions]
      exact relayed.answered ▸ List.prefix_rfl

end Session

theorem AtRest.not_ended {trusted : Prop} {c : Conn} {e : Ends} (rest : AtRest trusted c e) :
    ¬c.session.Ended := by
  rintro (phase | phase)
  · exact rest.waits.1 (by simp [stmState, show c.current = _ from phase])
  · exact rest.waits.2 (by simp [stmState, show c.current = _ from phase])

namespace World

variable {trusted : Prop} {w : World} {k : ConnId} {cell : Cell}

theorem Ok.session (ok : w.Ok trusted) (found : w.heap k = some cell) :
    cell.conn.session.Reachable trusted := by
  rcases ok with ⟨view, inv⟩
  cases cell with
  | live c =>
      rcases inv.resting found with ⟨e, -, rest⟩
      cases mode : w.mode with
      | running | joining | stopped =>
          rw [mode] at rest
          exact rest.reachable
      | destroyed =>
          rw [mode] at rest
          exact rest.elim
  | freed c references => exact (inv.freed found).2.2

theorem Ok.atRest {c : Conn} (ok : w.Ok trusted) (found : w.heap k = some (.live c))
    (active : w.mode = .running ∨ w.mode = .joining) : ∃ e, AtRest trusted c e := by
  rcases ok with ⟨view, inv⟩
  rcases inv.resting found with ⟨e, -, rest⟩
  refine ⟨e, ?_⟩
  rcases active with mode | mode <;> simpa only [mode, Resting] using rest

theorem writeBuffer_ne_nil {c : Conn} {e : Ends} (rest : AtRest trusted c e)
    (answering : c.session.Answering) : c.writeBuffer.contents ≠ [] := by
  have armed := rest.armed
  rcases answering with phase | phase | phase
  · rw [show stmState c = .negWrite by simp [stmState, show c.current = _ from phase]] at armed
    exact armed.2.2.2
  · rw [show stmState c = .authWrite by simp [stmState, show c.current = _ from phase]] at armed
    exact armed.2.2.2
  · rw [show stmState c = .reqWrite by simp [stmState, show c.current = _ from phase]] at armed
    exact armed.2.2.2.1

/-! ## A run

A client that offers no authentication asks for an address and sends two bytes along with its
request; the origin answers one byte, and both peers close. The theorems below are applied to it. -/

/-- The state `main()` starts from when no user is configured. -/
def unprotected : World := initial usersInit ⟨true, []⟩ 0 ⟨2026, 7, 9, 14, 22, 1⟩

/-- The kernel has nothing to offer. -/
def quiet : Answers := Answers.idle 0 ⟨2026, 7, 9, 14, 22, 1⟩

def loopback : Sockaddr := .inet ⟨[127, 0, 0, 1], rfl⟩ ⟨0, 80⟩

/-- A listener is opened and a client arrives as descriptor 4. -/
def arrival : List Event :=
  [.foreign (.opened 3 OP_READ true),
    .read 3 { quiet with accepts := [⟨.ok 4, true, true, true⟩] }]

/-- The greeting, its answer, and the request for a name that has to be looked up. -/
def lookup : List Event :=
  [.read 4 { quiet with recvs := [.data [5, 1, 0]] },
    .write 4 { quiet with sends := [.taken 9] },
    .read 4 { quiet with recvs := [.data [5, 1, 0, 3, 2, 104, 105, 0, 80]] }]

/-- The greeting, its answer in two parts, and the request with two bytes behind it. -/
def request : List Event :=
  [.read 4 { quiet with recvs := [.data [5, 1, 0]] },
    .write 4 { quiet with sends := [.taken 1] },
    .write 4 { quiet with sends := [.taken 9] },
    .read 4
      { quiet with
        recvs := [.data [5, 1, 0, 1, 127, 0, 0, 1, 0, 80, 104, 105]]
        attempts := [⟨.ok 5, none, none, loopback⟩] }]

/-- The reply goes out, the bytes are relayed, and both peers close. -/
def conversation : List Event :=
  [.write 4 { quiet with sends := [.taken 99] },
    .write 5 { quiet with sends := [.taken 99] },
    .read 5 { quiet with recvs := [.data [111]], sends := [.taken 99] },
    .read 4 { quiet with recvs := [.data []] },
    .read 5 { quiet with recvs := [.data []] }]

/-- What a test finds in the state a run ends in. -/
def endsWith (events : List Event) (test : World → Bool) : Bool :=
  match unprotected.run events with
  | .ok w => test w
  | .error _ => false

theorem run_of_endsWith {events : List Event} {test : World → Bool}
    (passed : endsWith events test = true) :
    ∃ w, unprotected.run events = .ok w ∧ test w = true := by
  unfold endsWith at passed
  split at passed
  · next w ran => exact ⟨w, ran, passed⟩
  · cases passed

theorem exists_of_endsWith {events : List Event} {test : World → Bool}
    (passed : endsWith events test = true) : ∃ w, w.Reachable ∧ test w = true := by
  rcases run_of_endsWith passed with ⟨w, ran, passed⟩
  exact ⟨w, ⟨usersInit, _, _, _, events, ran⟩, passed⟩

/-- A test of what happened to a connection. -/
def histTest (k : ConnId) (test : List Obs → Bool) (w : World) : Bool :=
  (w.heap k).any fun cell => test cell.conn.hist

theorem exists_of_histTest {test : List Obs → Bool} (passed : histTest k test w = true) :
    ∃ cell, w.heap k = some cell ∧ test cell.conn.hist = true := by
  simpa [histTest, Option.any_eq_true] using passed

/-- A test of a live connection. -/
def liveTest (k : ConnId) (test : Conn → Bool) (w : World) : Bool :=
  match w.heap k with
  | some (.live c) => test c
  | _ => false

theorem exists_of_liveTest {test : Conn → Bool} (passed : liveTest k test w = true) :
    ∃ c, w.heap k = some (.live c) ∧ test c = true := by
  unfold liveTest at passed
  split at passed
  · next c found => exact ⟨c, found, passed⟩
  · cases passed

/-! ## Authentication -/

/-- No client is served without being entitled to it. Whenever a connection entered a request phase
or the relay, or tried to reach an origin, its decisions begin with the ones that admitted it; and a
connection with a refused method or a failed status has opened no origin socket. -/
theorem served_only_if_entitled (reachable : w.Reachable) (found : w.heap k = some cell) :
    (∀ what ∈ cell.conn.hist, what.isAdmission = true →
      ∃ ds, ds <:+ decisions cell.conn.hist ∧ Session.Warranted cell.conn.hist ds) ∧
    (cell.conn.method = SOCKS5_METHOD_NONE ∨ cell.conn.authStatus ≠ SOCKS5_AUTH_OK →
      ∀ target result, .attempt target result ∉ cell.conn.hist) := by
  have session := reachable.ok.session found
  refine ⟨fun what happened admission => session.warranted happened admission, ?_⟩
  intro rejected target result attempted
  rcases session.accepted attempted rfl with ⟨method, status⟩
  rcases rejected with refused | failed
  · exact method refused
  · exact failed status

theorem served_only_if_entitled_in_conversation :
    ∃ (w : World) (cell : Cell), w.Reachable ∧ w.heap 0 = some cell ∧
      (∃ what ∈ cell.conn.hist, what.isAdmission = true) ∧
      ∃ ds, ds <:+ decisions cell.conn.hist ∧ Session.Warranted cell.conn.hist ds := by
  have admitted : endsWith (arrival ++ request)
      (histTest 0 fun h => h.any Obs.isAdmission) = true := by decide +kernel
  rcases exists_of_endsWith admitted with ⟨w, reachable, passed⟩
  rcases exists_of_histTest passed with ⟨cell, found, some⟩
  rcases List.any_eq_true.mp some with ⟨what, happened, admission⟩
  exact ⟨w, cell, reachable, found, ⟨what, happened, admission⟩,
    (served_only_if_entitled reachable found).1 what happened admission⟩

/-! ## The handshake -/

/-- What is said before relaying. -/
theorem handshake_follows_script (reachable : w.Reachable) (found : w.heap k = some cell) :
    (∃ full, Session.Dialogue cell.conn.hist full ∧
      sent (Session.handshake cell.conn.hist) <+: full) ∧
    (relaySplit cell.conn.hist = none →
      sent cell.conn.hist ++ cell.conn.writeBuffer.contents = queued cell.conn.hist ∧
        fetched cell.conn.hist = []) ∧
    (Session.replies cell.conn.hist).length ≤ 1 ∧
    (∀ late pipelined early, relaySplit cell.conn.hist = some (late, pipelined, early) →
      sent early = queued early ∧
        ∃ reply ds, decisions early = .replied SOCKS5_REP_SUCCESS reply :: ds) ∧
    (Session.Refused (decisions cell.conn.hist) → relaySplit cell.conn.hist = none ∧
      (w.mode = .running ∨ w.mode = .joining →
        ∀ c, cell = .live c → c.writeBuffer.contents ≠ [])) := by
  have session := reachable.ok.session found
  have flow := session.invariant.1
  have script := session.script
  -- A refusal is not the grant with which relaying begins.
  have unsplit : Session.Refused (decisions cell.conn.hist) → relaySplit cell.conn.hist = none := by
    intro refused
    by_contra split
    rcases session.granted (Option.isSome_iff_ne_none.mpr split) with ⟨reply, ds, decided⟩
    rw [show decisions cell.conn.hist = _ from decided] at refused
    cases refused with
    | reply _ _ _ failure => exact failure rfl
  refine ⟨?_, fun none => ?_, ?_, fun late pipelined early split => ?_, fun refused => ?_⟩
  · rcases script.dialogue with ⟨full, dialogue, begins⟩
    refine ⟨full, dialogue, List.IsPrefix.trans ?_ begins⟩
    rw [← queued_eq_decisions]
    exact session.sent_handshake
  · have early := (flow.early none).1
    exact ⟨early.balance, early.fetched⟩
  · rw [← Session.replies_decisions]
    exact script.length_replies_le
  · rcases session.granted (Option.isSome_iff_exists.mpr ⟨_, split⟩) with ⟨reply, ds, decided⟩
    have relayed := (flow.late split).2
    refine ⟨relayed.answered, reply, ds, ?_⟩
    rw [← decided, relayed.decisions_hist split]
  · refine ⟨unsplit refused, ?_⟩
    rintro active c rfl
    rcases reachable.ok.atRest found active with ⟨e, rest⟩
    exact writeBuffer_ne_nil rest
      (session.invariant.2.answering_of_refused rest.not_ended refused)

theorem handshake_follows_script_in_conversation :
    ∃ (w : World) (cell : Cell), w.Reachable ∧ w.heap 0 = some cell ∧
      sent (Session.handshake cell.conn.hist) = [5, 0, 5, 0, 0, 1, 127, 0, 0, 1, 0, 80] ∧
      ∃ full, Session.Dialogue cell.conn.hist full ∧
        sent (Session.handshake cell.conn.hist) <+: full := by
  have said : endsWith (arrival ++ request ++ conversation)
      (histTest 0 fun h => sent (Session.handshake h) = [5, 0, 5, 0, 0, 1, 127, 0, 0, 1, 0, 80]) =
        true := by
    decide +kernel
  rcases exists_of_endsWith said with ⟨w, reachable, passed⟩
  rcases exists_of_histTest passed with ⟨cell, found, same⟩
  exact ⟨w, cell, reachable, found, of_decide_eq_true same,
    (handshake_follows_script reachable found).1⟩

/-! ## The relay -/

/-- Both relayed streams are kept: what the origin was sent, followed by what is still buffered for
it, is what the client had pipelined followed by what it sent since; and what the client was sent
since, followed by what is buffered for it, is what the origin sent. Each write side is shut in
order, and a relay is done only when both directions are. -/
theorem relay_keeps_streams (reachable : w.Reachable) (found : w.heap k = some cell) :
    (∀ late pipelined early, relaySplit cell.conn.hist = some (late, pipelined, early) →
      forwarded cell.conn.hist ++ cell.conn.readBuffer.contents = pipelined ++ received late ∧
        sent late ++ cell.conn.writeBuffer.contents = fetched cell.conn.hist) ∧
    Always Session.Orderly cell.conn.hist := by
  have session := reachable.ok.session found
  refine ⟨fun late pipelined early split => ?_, session.orderly⟩
  have relayed := (session.invariant.1.late split).2
  rcases relayed.totals split with ⟨up, down⟩
  exact ⟨up ▸ relayed.upstream, down ▸ relayed.downstream⟩

theorem relay_keeps_streams_in_conversation :
    ∃ (w : World) (cell : Cell) (late early : List Obs), w.Reachable ∧ w.heap 0 = some cell ∧
      relaySplit cell.conn.hist = some (late, [104, 105], early) ∧
      forwarded cell.conn.hist ++ cell.conn.readBuffer.contents = [104, 105] ++ received late ∧
      Always Session.Orderly cell.conn.hist := by
  have relayed : endsWith (arrival ++ request ++ conversation)
      (histTest 0 fun h => (relaySplit h).any fun parts => parts.2.1 = [104, 105]) = true := by
    decide +kernel
  rcases exists_of_endsWith relayed with ⟨w, reachable, passed⟩
  rcases exists_of_histTest passed with ⟨cell, found, some⟩
  rcases Option.any_eq_true _ _ |>.mp some with ⟨⟨late, pipelined, early⟩, split, same⟩
  obtain rfl : pipelined = [104, 105] := of_decide_eq_true same
  rcases relay_keeps_streams reachable found with ⟨streams, orderly⟩
  exact ⟨w, cell, late, early, reachable, found, split, (streams late _ early split).1, orderly⟩

end World

end SocksProxy
