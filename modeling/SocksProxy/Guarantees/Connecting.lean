import SocksProxy.Accounting.Acts
import SocksProxy.Guarantees.Process
import SocksProxy.Session.Candidates

/-!
# Reaching a destination

What becomes of a request, for every run of the process and every answer of the
network: the candidates are tried in order and one at a time, the first one that
works is reported, and when none does the reply tells the error of the last.
-/

namespace SocksProxy

open History Prog

/-! ## One candidate at a time -/

/-- The open sockets. -/
def Local.sockets (l : Local) : Fd → Option Socket := l.sh.kern.sockets

section

variable {l : Local}

theorem wlp_closeFd {fd : Fd} {post : Unit → Local → Prop}
    (closed : ∀ l', l'.sockets = Function.update l.sockets fd none → post () l') :
    wlp (closeFd fd) post l := by
  simp only [closeFd, wlp_bind, wlp_get]
  cases l.sh.kern.sockets fd with
  | none => exact (wlp_throw ..).mpr trivial
  | some socket =>
      simp only [modifyShared, wlp_modify]
      exact closed _ rfl

end

section

variable {trusted : Prop} {view : View} {id : ConnId} {fd : Fd} {c : Conn} {e : Ends} {sh : Shared}
  {phase next : State}

/-- Between two dispatches a request that was not answered has no candidates yet, or waits for
one. -/
theorem AtRest.unanswered (rest : AtRest trusted c e) (unanswered : verdict c.hist = none) :
    trials c.hist = [] ∧ c.nextAddr = [] ∨ c.current = some .reqConnecting := by
  have asking := rest.reachable.asking
  have stage := rest.reachable.invariant.2
  have replied : ∀ {rep reply ds}, decisions c.hist ≠ .replied rep reply :: ds := by
    intro rep reply ds decided
    rcases verdict_of_decided decided with ⟨early, found⟩
    simp [unanswered] at found
  have idle : c.session.latest = none → c.nextAddr = [] →
      trials c.hist = [] ∧ c.nextAddr = [] := fun silent targets => ⟨trials_eq_nil silent, targets⟩
  cases current : c.current with
  | none =>
      simp only [Session.Asking, Conn.session, current] at asking
      exact .inl (idle asking.1 asking.2)
  | some state =>
      have known : stmState c = state := by simp [stmState, current]
      cases state with
      | negRead | negWrite | authRead | authWrite =>
          simp only [Session.Asking, Conn.session, current] at asking
          exact .inl (idle asking.1 asking.2)
      | reqRead =>
          have hungry := (rest.drained _ current rfl).1
          have running : c.request.stopped = false := by
            simpa [Session.Hungry, Conn.session, current] using hungry
          have silent := rest.reachable.untried hungry
          simp only [Session.Asking, Conn.session, current] at asking
          rcases asking.2 silent with none | ⟨complete, -⟩
          · exact .inl (idle silent none)
          · simp [Socks5Request.stopped, complete] at running
      | reqResolve =>
          have armed := rest.armed
          rw [known] at armed
          rcases rest.reachable.search.unknown armed.2.2.2.1 with ⟨untried, targets, -⟩
          exact .inl ⟨untried, targets⟩
      | reqConnecting => exact .inr rfl
      | reqWrite =>
          simp only [Session.Stage, Conn.session, current] at stage
          rcases stage with ⟨-, ds, input, rep, reply, -, -, decided, -⟩
          exact absurd decided replied
      | relay =>
          simp only [Session.Stage, Conn.session, current] at stage
          rcases stage with ⟨-, ds, input, reply, -, -, decided, -⟩
          exact absurd decided replied
      | done => exact absurd known rest.waits.1
      | error => exact absurd known rest.waits.2

/-- `socks5_advance` after a handler that waits for the origin or has queued the reply. -/
theorem wp_socks5Advance_of_waiting (jumped : Jumped trusted view id fd phase next c e sh)
    (waiting : next = .reqWrite ∨ next = .reqConnecting) :
    wp (socks5Advance fd next)
      (fun _ l => ∃ now, l = ⟨id, .live { c with lastActivity := now }, sh⟩) ⟨id, .live c, sh⟩ := by
  have notReading : isReadState next = false := by rcases waiting with rfl | rfl <;> rfl
  have goesOn : next ≠ .done ∧ next ≠ .error := by rcases waiting with rfl | rfl <;> simp
  unfold socks5Advance
  rw [wp_bind, wp_get, wp_bind, wp_modifyConn, wp_bind]
  refine advanceLoop_of_idle (by simp [notReading]) ?_
  rw [wp_bind, wp_getConn, if_neg (by simp [goesOn, jumped.arrived]), wp_pure]
  exact ⟨sh.env.now, rfl⟩

/-- A report about the candidate that is waited for answers the request or leads to a later
candidate. -/
theorem wp_socks5Write_connecting {b : End}
    (sound : sh.Sound (Function.update view id (some e)) none) (rest : AtRest trusted c e)
    (current : c.current = some .reqConnecting) (origin : e.origin = some b)
    (settled : trusted → b.socket.status ≠ .inProgress) :
    wp (socks5Write b.fd)
      (fun _ l => ∃ c', l.cell = .live c' ∧
        (c'.current = some .reqWrite ∨
          c'.current = some .reqConnecting ∧ c'.nextAddr.length < c.nextAddr.length))
      ⟨id, .live c, sh⟩ := by
  simp only [socks5Write, stmHandler, handleFirst, wp_bind, wp_getConn, current, reduceCtorEq,
    if_false, wp_pure, Option.bind_some, onWriteReady]
  have handled : wp (requestConnecting b.fd)
      (Attempted trusted view id b.fd .reqConnecting c.nextAddr.length) ⟨id, .live c, sh⟩ :=
    wp_requestConnecting (rest.entered sound current) origin settled
  refine wp_mono handled ?_
  rintro next l ⟨rfl | ⟨rfl, shorter⟩, returned⟩
  · rw [wp_bind]
    refine wp_jump ⟨by simp, returned⟩ fun c₁ e₁ sh₁ jumped => ?_
    rw [wp_pure]
    refine wp_mono (wp_socks5Advance_of_waiting jumped (.inl rfl)) ?_
    rintro _ _ ⟨now, rfl⟩
    exact ⟨_, rfl, .inl jumped.current⟩
  · rcases returned with ⟨c₁, e₁, sh₁, rfl, sound₁, fits₁, current₁, reachable₁, armed₁, -, -⟩
    have jumped : Jumped trusted view id b.fd .reqConnecting .reqConnecting c₁ e₁ sh₁ := by
      refine ⟨sound₁, fits₁.holds, current₁, ?_, fits₁.arrived, fun _ => ⟨fits₁, armed₁⟩,
        by simp [isReadState], by simp [isReadState]⟩
      simpa [Session.enter, Conn.session, current₁] using reachable₁
    simp only [jump, code_le_maxState, if_false, wp_bind, wp_getConn, current₁, if_true, wp_pure]
    refine wp_mono (wp_socks5Advance_of_waiting jumped (.inr rfl)) ?_
    rintro _ _ ⟨now, rfl⟩
    exact ⟨_, rfl, .inr ⟨current₁, shorter⟩⟩

end

namespace World

/-- The origin socket connection `k` waits for, if it does. -/
def awaitedOrigin (w : World) (k : ConnId) : Option Fd :=
  match w.heap k with
  | some (.live c) => if c.current = some .reqConnecting then c.originFd else none
  | _ => none

/-- One report after the other about the origin sockets connection `k` waits for, each with the
kernel's answers to what is done about it, until it waits for none. -/
def originReports (k : ConnId) : List Answers → World → Except Fault World
  | [], w => .ok w
  | env :: envs, w =>
      match w.awaitedOrigin k with
      | none => .ok w
      | some fd =>
          match w.step (.write fd env) with
          | .error fault => .error fault
          | .ok w' => originReports k envs w'

variable {w : World} {k : ConnId} {c : Conn}

/-- One report answers the request or leads to a later candidate. -/
theorem Ok.originReport {fd : Fd} (ok : w.Ok False) (running : w.mode = .running)
    (found : w.heap k = some (.live c)) (current : c.current = some .reqConnecting)
    (originFd : c.originFd = some fd) (env : Answers) :
    ∃ w' c', w.step (.write fd env) = .ok w' ∧ w'.mode = .running ∧ w'.heap k = some (.live c') ∧
      (c'.current = some .reqWrite ∨
        c'.current = some .reqConnecting ∧ c'.nextAddr.length < c.nextAddr.length) := by
  rcases ok with ⟨view, inv⟩
  rcases inv.resting found with ⟨e, mine, resting⟩
  have rest : AtRest False c e := by simpa only [running, Resting] using resting
  have armed := rest.armed
  rw [show stmState c = .reqConnecting by simp [stmState, current]] at armed
  rcases Option.map_eq_some_iff.mp armed.2.1 with ⟨b, origin, interest⟩
  obtain rfl : b.fd = fd := by simpa [origin] using rest.fits.originFd.symm.trans originFd
  have item := (inv.sound.table.registered k .origin b
    (by simp [View.ends, mine, Ends.get, origin])).1
  have sound : (w.withEnv env).sh.Sound (Function.update view k (some e)) none := by
    rw [← mine, Function.update_eq_self]
    exact (inv.withEnv env).sound
  rcases wp_socks5Write_connecting sound rest current origin False.elim with
    ⟨_, l, ran, c', live, outcome⟩
  have stepped : w.step (.write b.fd env) =
      .ok { w.withEnv env with heap := Function.update w.heap k (some l.cell), sh := l.sh } := by
    have registered : (w.withEnv env).sh.sel.items b.fd = some ⟨b.interest, .conn k⟩ := item
    simp only [step, running, if_true, dispatchWrite, registered, interest, OP_WRITE, onConn,
      show (w.withEnv env).heap k = some (.live c) from found, ran, Except.map]
    rfl
  exact ⟨_, c', stepped, running, by simp [live], outcome⟩

/-- The reports lead to an answer, whatever they say, after at most one for every candidate. -/
theorem Reachable.originReports {envs : List Answers} (reachable : w.Reachable)
    (running : w.mode = .running) (found : w.heap k = some (.live c))
    (current : c.current = some .reqConnecting) (enough : c.nextAddr.length < envs.length) :
    ∃ w' c', World.originReports k envs w = .ok w' ∧ w'.Reachable ∧
      w'.heap k = some (.live c') ∧ (verdict c'.hist).isSome := by
  induction envs generalizing w c with
  | nil => simp at enough
  | cons env envs ih =>
      rcases reachable.ok.atRest found (.inl running) with ⟨e, rest⟩
      have armed := rest.armed
      rw [show stmState c = .reqConnecting by simp [stmState, current]] at armed
      rcases Option.map_eq_some_iff.mp armed.2.1 with ⟨b, origin, -⟩
      have originFd : c.originFd = some b.fd := by simp [rest.fits.originFd, origin]
      have awaited : w.awaitedOrigin k = some b.fd := by
        simp [awaitedOrigin, found, current, originFd]
      rcases reachable.ok.originReport running found current originFd env with
        ⟨w', c', stepped, running', found', outcome⟩
      have reachable' := reachable.step stepped
      simp only [World.originReports, awaited, stepped]
      rcases outcome with answered | ⟨current', shorter⟩
      · refine ⟨w', c', ?_, reachable', found', ?_⟩
        · cases envs with
          | nil => rfl
          | cons _ _ => simp [World.originReports, awaitedOrigin, found', answered]
        · have stage := (reachable'.ok.session found').invariant.2
          simp only [Session.Stage, Conn.session, Cell.conn, answered] at stage
          rcases stage with ⟨-, ds, input, rep, reply, -, -, decided, -⟩
          rcases verdict_of_decided decided with ⟨early, known⟩
          simp [known]
      · refine ih reachable' running' found' current' ?_
        simp only [List.length_cons] at enough
        omega

/-- A request that was refused leaves its connection with the client alone. -/
theorem Inv.refused {trusted : Prop} {view : View} {rep : UInt8} {early : List Obs}
    (inv : Inv trusted view w) (running : w.mode = .running) (found : w.heap k = some (.live c))
    (answered : verdict c.hist = some (rep, early)) (failure : rep ≠ SOCKS5_REP_SUCCESS) :
    c.originFd = none ∧ ∀ fd, w.sh.sel.dispatchesTo k fd = true → c.clientFd = some fd := by
  rcases inv.resting found with ⟨e, mine, resting⟩
  have rest : AtRest trusted c e := by simpa only [running, Resting] using resting
  have armed := rest.armed
  rcases rest.reachable.invariant.2.answered rest.not_ended answered with
    ⟨phase, granted⟩ | ⟨-, success⟩
  · rw [show stmState c = .reqWrite by simp [stmState, show c.current = _ from phase]] at armed
    have refused : ¬c.connected = true := fun connected => failure (granted.mp connected)
    have vacant : e.origin = none := by
      have opened := armed.2.2.2.2.1
      simpa [Bool.eq_false_iff.mpr refused] using opened.symm
    have originFd : c.originFd = none := by rw [rest.fits.originFd, vacant, Option.map_none]
    refine ⟨originFd, fun fd dispatched => ?_⟩
    rw [dispatchesTo_iff inv mine, ← rest.fits.clientFd, ← rest.fits.originFd,
      originFd] at dispatched
    exact dispatched.resolve_right (by simp)
  · exact absurd success failure

end World

/-- How a connection went through its candidates: in order, each once, all but the latest in vain. A
CONNECT that has any is not answered before one of them was tried; and if nothing else interfered,
the answer reports the first that could be reached or, after all of them, the error of the last. -/
structure Sought (c : Conn) : Prop where
  ordered : trials c.hist ≠ [] →
    ((trials c.hist).map Prod.fst).reverse ++ c.nextAddr = candidates c.hist c.request
  passed : ∀ trial ∈ (trials c.hist).tail, trial.Failed
  begun : ∀ rep early, verdict c.hist = some (rep, early) → c.request.Connects →
    candidates c.hist c.request ≠ [] → trials early ≠ []
  answered : ∀ rep early, verdict c.hist = some (rep, early) → c.request.Connects →
    candidates c.hist c.request ≠ [] → Session.Undisturbed early →
    (∃ target fails, trials early = (target, .succeeded) :: fails ∧ rep = SOCKS5_REP_SUCCESS) ∨
      ∃ target error fails, trials early = (target, .failed error) :: fails ∧
        ((trials early).map Prod.fst).reverse = candidates c.hist c.request ∧
        rep = repFromErrno (some error)

theorem sought_of_reachable {trusted : Prop} {c : Conn} (reachable : c.session.Reachable trusted) :
    Sought c := by
  have search := reachable.search
  have begun : ∀ rep early, verdict c.hist = some (rep, early) → c.request.Connects →
      candidates c.hist c.request ≠ [] → trials early ≠ [] := by
    intro rep early answered connects known
    rcases search.explained rep early answered with ⟨⟨-, resolved⟩, -, answer⟩
    refine answer.tried connects ?_
    rwa [candidates, ← resolved]
  refine ⟨fun tried => search.ordered (.inl tried), search.passed, begun, ?_⟩
  intro rep early answered connects known undisturbed
  have tried := begun rep early answered connects known
  rcases search.explained rep early answered with ⟨⟨same, -⟩, -, answer⟩
  refine (answer.of_undisturbed undisturbed tried).imp_right ?_
  rintro ⟨target, error, fails, failed, all, told⟩
  refine ⟨target, error, fails, failed, ?_, told⟩
  have ordered := search.ordered (.inl (same.trans_ne tried))
  rw [show c.session.targets = [] from all, List.append_nil, same] at ordered
  exact ordered

namespace World

/-! ## Trying the candidates -/

def otherHost : Sockaddr := .inet ⟨[127, 0, 0, 2], rfl⟩ ⟨0, 80⟩

/-- A client asks for a name with two addresses, and the first one does not answer at once. -/
def inquiry : List Event :=
  lookup ++
  [.worker (.pop ⟨0, by decide⟩),
    .worker (.finish ⟨0, by decide⟩ ⟨0, [loopback, otherHost]⟩),
    .worker (.notify ⟨0, by decide⟩ true),
    .block [{ quiet with attempts := [⟨.ok 5, none, some .einprogress, loopback⟩] }]]

/-- The first address refuses, and the second one cannot be reached. -/
def disappointment : List Event :=
  [.settle 5 (some .econnrefused),
    .write 5 { quiet with attempts := [⟨.ok 5, none, some .ehostunreach, loopback⟩] }]

/-- A test of the reply and of the candidates tried before it. -/
def verdictTest (k : ConnId) (test : Conn → UInt8 → List Obs → Bool) (w : World) : Bool :=
  (w.heap k).any fun cell => (verdict cell.conn.hist).any fun answer =>
    test cell.conn answer.1 answer.2

theorem exists_of_verdictTest {w : World} {k : ConnId} {test : Conn → UInt8 → List Obs → Bool}
    (passed : verdictTest k test w = true) :
    ∃ cell rep early, w.heap k = some cell ∧ verdict cell.conn.hist = some (rep, early) ∧
      test cell.conn rep early = true := by
  rcases (Option.any_eq_true _ _).mp passed with ⟨cell, found, inside⟩
  rcases (Option.any_eq_true _ _).mp inside with ⟨⟨rep, early⟩, answered, holds⟩
  exact ⟨cell, rep, early, found, answered, holds⟩

/-- A run in which both addresses of a name fail, with nothing else in the way. -/
theorem exists_disappointed :
    ∃ (w : World) (cell : Cell) (early : List Obs), w.Reachable ∧ w.heap 0 = some cell ∧
      verdict cell.conn.hist = some (SOCKS5_REP_HOST_UNREACHABLE, early) ∧
      cell.conn.request.Connects ∧
      candidates cell.conn.hist cell.conn.request = [loopback, otherHost] ∧
      Session.Undisturbed early := by
  have ended : endsWith (arrival ++ inquiry ++ disappointment)
      (verdictTest 0 fun c rep early => rep = SOCKS5_REP_HOST_UNREACHABLE &&
        (c.request.state = .done && c.request.cmd = SOCKS5_CMD_CONNECT) &&
        candidates c.hist c.request = [loopback, otherHost] &&
        trials early = [(otherHost, .failed .ehostunreach), (loopback, .failed .econnrefused)] &&
        early.all fun
          | .timedOut | .named _ => false
          | _ => true) = true := by
    decide +kernel
  rcases exists_of_endsWith ended with ⟨w, reachable, passed⟩
  rcases exists_of_verdictTest passed with ⟨cell, rep, early, found, answered, holds⟩
  simp only [Bool.and_eq_true, decide_eq_true_eq, List.all_eq_true] at holds
  rcases holds with ⟨⟨⟨⟨rfl, connects⟩, known⟩, tried⟩, calm⟩
  have undisturbed : Session.Undisturbed early :=
    ⟨fun late => by simpa using calm _ late, by simp [tried], fun name told => by
      simpa using calm _ told⟩
  exact ⟨w, cell, early, reachable, found, answered, connects, known, undisturbed⟩

/-- A sweep that finds the first address still pending gives up, with the second one untried. -/
theorem gives_up_with_untried_address :
    ∃ (w : World) (cell : Cell) (early : List Obs), w.Reachable ∧ w.heap 0 = some cell ∧
      verdict cell.conn.hist = some (SOCKS5_REP_TTL_EXPIRED, early) ∧
      trials early = [(loopback, .pending)] ∧
      candidates cell.conn.hist cell.conn.request = [loopback, otherHost] ∧
      cell.conn.nextAddr = [otherHost] := by
  have ended : endsWith (arrival ++ inquiry ++ [.reap 1000 []])
      (verdictTest 0 fun c rep early => rep = SOCKS5_REP_TTL_EXPIRED &&
        trials early = [(loopback, .pending)] &&
        candidates c.hist c.request = [loopback, otherHost] &&
        c.nextAddr = [otherHost]) = true := by
    decide +kernel
  rcases exists_of_endsWith ended with ⟨w, reachable, passed⟩
  rcases exists_of_verdictTest passed with ⟨cell, rep, early, found, answered, holds⟩
  simp only [Bool.and_eq_true, decide_eq_true_eq] at holds
  rcases holds with ⟨⟨⟨rfl, tried⟩, known⟩, untried⟩
  exact ⟨w, cell, early, reachable, found, answered, tried, known, untried⟩

/-- Unless a sweep has timed the connection out, the selector refused its socket or the socket has
no name while candidates were left, a failure reply for a CONNECT that has candidates means that all
of them were tried: the candidates that were tried are the whole list, and none is left. -/
theorem gives_up_only_when_exhausted {w : World} {k : ConnId} {cell : Cell} {rep : UInt8}
    {early : List Obs} (reachable : w.Reachable) (found : w.heap k = some cell)
    (answered : verdict cell.conn.hist = some (rep, early)) (failure : rep ≠ SOCKS5_REP_SUCCESS)
    (connects : cell.conn.request.Connects)
    (known : candidates cell.conn.hist cell.conn.request ≠ [])
    (undisturbed : cell.conn.nextAddr ≠ [] → Session.Undisturbed early) :
    cell.conn.nextAddr = [] ∧
      ((trials early).map Prod.fst).reverse = candidates cell.conn.hist cell.conn.request := by
  have session := reachable.ok.session found
  have tried := (sought_of_reachable session).begun rep early answered connects known
  rcases session.search.explained rep early answered with ⟨⟨same, -⟩, -, answer⟩
  have all : cell.conn.nextAddr = [] := by
    by_contra left
    rcases answer.of_undisturbed (undisturbed left) tried with
      ⟨_, _, -, success⟩ | ⟨_, _, _, -, all, -⟩
    · exact failure success
    · exact left all
  have ordered := session.search.ordered (.inl (same.trans_ne tried))
  rw [show cell.conn.session.targets = [] from all, List.append_nil] at ordered
  exact ⟨all, same ▸ ordered⟩

theorem gives_up_only_when_exhausted_after_disappointment :
    ∃ (w : World) (cell : Cell) (early : List Obs), w.Reachable ∧ w.heap 0 = some cell ∧
      verdict cell.conn.hist = some (SOCKS5_REP_HOST_UNREACHABLE, early) ∧
      cell.conn.nextAddr = [] ∧ ((trials early).map Prod.fst).reverse = [loopback, otherHost] := by
  rcases exists_disappointed with
    ⟨w, cell, early, reachable, found, answered, connects, known, undisturbed⟩
  rcases gives_up_only_when_exhausted reachable found answered (by decide) connects
    (by simp [known]) fun _ => undisturbed with ⟨none, all⟩
  exact ⟨w, cell, early, reachable, found, answered, none, all.trans known⟩

end World

end SocksProxy
