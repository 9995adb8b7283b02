import SocksProxy.Accounting.Moves
import SocksProxy.Guarantees.Connections

/-!
# Iterations of the selector

The events of a run come from the loop of `main()`: `pselect()` reports which
descriptors are ready, `handle_iteration` dispatches to them in ascending order,
and the block notifications and the reaper follow. What was reported is not asked
for again during the scan. A descriptor number that a handler closes and another
handler opens again is therefore dispatched with the readiness of its old socket,
and a connection attempt that is still pending passes for an established one.
-/

namespace SocksProxy

/-- What happens without a dispatch to a SOCKS5 connection. -/
inductive Background where
  | worker (step : WorkerStep)
  | settle (fd : Fd) (error : Option Errno)
  | admin (command : AdminCommand)
  | foreign (action : ForeignAction)

def Background.event : Background → Event
  | .worker step => .worker step
  | .settle fd error => .settle fd error
  | .admin command => .admin command
  | .foreign action => .foreign action

/-- One round of the loop of `main()`: what happens while `pselect()` waits, what it reports, and
what the calls made for each descriptor are answered. -/
structure Iteration where
  waiting : List Background
  readable : List Fd
  writable : List Fd
  before : Fd → List Background
  between : Fd → List Background
  reads : Fd → Answers
  writes : Fd → Answers
  notified : List Answers
  after : List Background
  now : Int
  reaped : List Answers

namespace Iteration

/-- What `handle_iteration` does for one descriptor. -/
def scan (it : Iteration) (fd : Fd) : List Event :=
  (it.before fd).map Background.event ++
    (if fd ∈ it.readable then [.read fd (it.reads fd)] else []) ++
    (it.between fd).map Background.event ++
    if fd ∈ it.writable then [.write fd (it.writes fd)] else []

/-- `handle_iteration`: the highest descriptor is the one registered when it begins. -/
def dispatches (it : Iteration) (maxFd : Nat) : List Event :=
  (List.range (maxFd + 1)).flatMap it.scan

/-- What follows in `selector_select` and in the loop of `main()`. -/
def rest (it : Iteration) : List Event :=
  .block it.notified :: (it.after.map Background.event ++ [.reap it.now it.reaped])

/-- The events of an iteration in whose polled state `maxFd` is the highest descriptor. -/
def events (it : Iteration) (maxFd : Nat) : List Event := it.dispatches maxFd ++ it.rest

/-- `pselect()` reports descriptors that were asked for, and reports a socket as writable only once
its connection attempt has ended. -/
def reports (it : Iteration) (polled : World) : Bool :=
  (it.readable.all fun fd => (polled.sh.sel.items fd).any fun item => item.interest.read) &&
    it.writable.all fun fd =>
      ((polled.sh.sel.items fd).any fun item => item.interest.write) &&
        decide ((polled.sh.kern.sockets fd).map Socket.status ≠ some .inProgress)

end Iteration

namespace World

/-- A descriptor dispatched as writable has not been handed out since the readiness was reported. -/
def unused (polled : Kernel) (w : World) : Event → Bool
  | .write fd _ => decide (w.sh.kern.opened fd = polled.opened fd)
  | _ => true

/-- The same for all dispatches of a scan. -/
def intact (polled : Kernel) : World → List Event → Bool
  | _, [] => true
  | w, event :: rest =>
      w.unused polled event &&
        match w.step event with
        | .ok w' => intact polled w' rest
        | .error _ => true

/-- No descriptor number that was reported writable is used again before its turn. -/
def unrecycled (it : Iteration) (polled : World) : Bool :=
  intact polled.sh.kern polled (it.dispatches polled.sh.sel.maxFd)

/-- Any number of iterations of the loop, each with readiness sets as `pselect()` reports them. In
`allowed`, a further condition on the iterations can be made. -/
inductive Iterates (allowed : Iteration → World → Bool) (start : World) : World → Prop where
  | refl : Iterates allowed start start
  | tail {w polled w' : World} (it : Iteration) (earlier : Iterates allowed start w)
      (waited : w.run (it.waiting.map Background.event) = .ok polled)
      (reported : it.reports polled = true) (condition : allowed it polled = true)
      (ran : polled.run (it.events polled.sh.sel.maxFd) = .ok w') : Iterates allowed start w'

/-- Run iterations, checking that their readiness sets can be reported. -/
def iterate (allowed : Iteration → World → Bool) (w : World) : List Iteration → Option World
  | [] => some w
  | it :: later =>
      match w.run (it.waiting.map Background.event) with
      | .error _ => none
      | .ok polled =>
          if it.reports polled && allowed it polled then
            match polled.run (it.events polled.sh.sel.maxFd) with
            | .error _ => none
            | .ok w' => iterate allowed w' later
          else none

section

variable {allowed : Iteration → World → Bool} {start w w' polled : World} {it : Iteration}

theorem iterates_of_iterate {its : List Iteration} (earlier : Iterates allowed start w)
    (ran : w.iterate allowed its = some w') : Iterates allowed start w' := by
  induction its generalizing w with
  | nil =>
      cases ran
      exact earlier
  | cons it later ih =>
      unfold iterate at ran
      split at ran
      · cases ran
      · next waited =>
          split at ran
          · next checked =>
              rcases Bool.and_eq_true_iff.mp checked with ⟨reported, condition⟩
              split at ran
              · cases ran
              · next finished => exact ih (earlier.tail it waited reported condition finished) ran
          · cases ran

/-! ## What the kernel hands out -/

theorem Turn.renews {own : Fd → Prop} {l l' : Local} (turn : Turn own l l') :
    l.sh.kern.Renews l'.sh.kern := by
  cases turn with
  | act act =>
      cases act with
      | shared same => exact same.kern
      | free references list pool others =>
          dsimp only
          split <;> exact .refl _
      | _ => exact .refl _
  | move next handshake last => exact .refl _
  | openRelay bytes early => exact .refl _

theorem Serves.renews (serves : Serves w w') : w.sh.kern.Renews w'.sh.kern := by
  cases serves with
  | turn found turn => exact Turn.renews turn
  | idle idle _ => exact idle.kern

theorem Admits.renews (admits : Admits w w') : w.sh.kern.Renews w'.sh.kern := by
  cases admits with
  | accept client size now below same users => exact same.kern
  | idle idle _ => exact idle.kern

theorem renews_of_serves (serves : Relation.ReflTransGen Serves w w') :
    w.sh.kern.Renews w'.sh.kern := by
  induction serves with
  | refl => exact .refl _
  | tail _ serves ih => exact ih.trans serves.renews

/-- Whatever happens, only a number that is handed out anew gets a pending connection attempt. -/
theorem Moves.renews {event : Event} (moves : Moves event w w') : w.sh.kern.Renews w'.sh.kern := by
  cases moves with
  | serve serves => exact renews_of_serves serves
  | accept admits =>
      induction admits with
      | refl => exact .refl _
      | tail _ admits ih => exact ih.trans admits.renews
  | admin command _ => exact (idle_applyAdmin w command).kern
  | @shutdown m _ mode before after =>
      have later := renews_of_serves after
      exact (renews_of_serves before).trans later

/-! ## Honest runs -/

theorem honestRun_append {first second : List Event} (honest : w.HonestRun first)
    (later : ∀ w', w.run first = .ok w' → w'.HonestRun second) : w.HonestRun (first ++ second) := by
  induction first generalizing w with
  | nil => exact later w rfl
  | cons event rest ih =>
      refine ⟨honest.1, fun w' stepped => ih (honest.2 w' stepped) fun w'' ran => later w'' ?_⟩
      simp only [World.run, stepped]
      exact ran

theorem honestRun_of_no_write {events : List Event}
    (silent : ∀ fd env, Event.write fd env ∉ events) : w.HonestRun events := by
  induction events generalizing w with
  | nil => trivial
  | cons event rest ih =>
      refine ⟨?_, fun w' _ => ih fun fd env member => silent fd env (List.mem_cons_of_mem _ member)⟩
      cases event with
      | write fd env => exact absurd List.mem_cons_self (silent fd env)
      | _ => trivial

theorem write_not_mem_background (happened : List Background) (fd : Fd) (env : Answers) :
    Event.write fd env ∉ happened.map Background.event := by
  intro member
  rcases List.mem_map.mp member with ⟨background, -, same⟩
  cases background <;> cases same

/-- Readiness that was true when it was reported is true when it is dispatched, for a number that
has not been handed out since. -/
theorem honestRun_of_intact {events : List Event} (reported : polled.sh.kern.Renews w.sh.kern)
    (writable : ∀ fd env, Event.write fd env ∈ events → ¬polled.sh.kern.Pending fd)
    (scanned : intact polled.sh.kern w events = true) : w.HonestRun events := by
  induction events generalizing w with
  | nil => trivial
  | cons event rest ih =>
      rcases Bool.and_eq_true_iff.mp scanned with ⟨fresh, later⟩
      refine ⟨?_, fun w' stepped => ?_⟩
      · cases event with
        | write fd env =>
            intro socket found pending
            have same : w.sh.kern.opened fd = polled.sh.kern.opened fd := of_decide_eq_true fresh
            refine writable fd env List.mem_cons_self ((reported fd).2 same ?_)
            simp [Kernel.Pending, found, pending]
        | _ => trivial
      · have going : intact polled.sh.kern w' rest = true := by simpa [stepped] using later
        exact ih (reported.trans (step_moves stepped).renews)
          (fun fd env member => writable fd env (List.mem_cons_of_mem _ member)) going

theorem mem_writable {maxFd : Nat} {fd : Fd} {env : Answers}
    (member : Event.write fd env ∈ it.dispatches maxFd) : fd ∈ it.writable := by
  rcases List.mem_flatMap.mp member with ⟨other, -, member⟩
  simp only [Iteration.scan, List.mem_append] at member
  rcases member with ((before | read) | between) | write
  · exact absurd before (write_not_mem_background _ fd env)
  · split at read <;> simp at read
  · exact absurd between (write_not_mem_background _ fd env)
  · split at write
    · next writable =>
        simp only [List.mem_singleton, Event.write.injEq] at write
        exact write.1 ▸ writable
    · cases write

theorem honestRun_iteration (reported : it.reports polled = true)
    (condition : unrecycled it polled = true) :
    polled.HonestRun (it.events polled.sh.sel.maxFd) := by
  refine honestRun_append (honestRun_of_intact (.refl _) (fun fd env member => ?_) condition)
    fun w' _ => honestRun_of_no_write fun fd env member => ?_
  · have writable := mem_writable member
    have both := (Bool.and_eq_true_iff.mp (List.all_eq_true.mp
      (Bool.and_eq_true_iff.mp reported).2 fd writable)).2
    simpa [Kernel.Pending] using of_decide_eq_true both
  · simp only [Iteration.rest, List.mem_cons, List.mem_append, reduceCtorEq, false_or,
      List.not_mem_nil, or_false] at member
    exact write_not_mem_background _ fd env member

/-- The invariant, with write readiness that can be relied on, along iterations that use no reported
number again. -/
theorem Iterates.ok (iterates : Iterates unrecycled start w) (ok : start.Ok True) : w.Ok True := by
  induction iterates with
  | refl => exact ok
  | @tail w polled w' it earlier waited reported condition ran ih =>
      rcases run_ok ih fun _ => honestRun_of_no_write (write_not_mem_background it.waiting) with
        ⟨same, waited', ok', -⟩
      obtain rfl : polled = same := by simpa [waited] using waited'
      rcases run_ok ok' fun _ => honestRun_iteration reported condition with ⟨same, ran', ok'', -⟩
      obtain rfl : w' = same := by simpa [ran] using ran'
      exact ok''

/-- In every run of iterations in which no number reported writable is used again before its turn,
a connection is reported established only where `connect()` has succeeded. -/
theorem established_only_if_connected {users : Users} {log : AccessLog} {now : Int}
    {calendar : CalendarTime}
    (iterates : Iterates unrecycled (initial users log now calendar) w) {k : ConnId} {cell : Cell}
    (found : w.heap k = some cell) {status : SocketStatus}
    (reported : .established status ∈ cell.conn.hist) : status = .connected :=
  ((iterates.ok (ok_initial users log now calendar)).session found).established reported

end

/-! ## Three connections -/

/-- An iteration in which nothing happens but the dispatches to some descriptors. -/
def dispatching (readable writable : List Fd) (reads writes : Fd → Answers) : Iteration where
  waiting := []
  readable
  writable
  before := fun _ => []
  between := fun _ => []
  reads
  writes
  notified := []
  after := []
  now := 0
  reaped := []

/-- Three clients arrive as descriptors 4, 5 and 6 and are greeted. -/
def greetings : List Iteration :=
  [{ dispatching [3] [] (fun _ => { quiet with accepts :=
        [⟨.ok 4, true, true, true⟩, ⟨.ok 5, true, true, true⟩, ⟨.ok 6, true, true, true⟩] })
      (fun _ => quiet) with
      waiting := [.foreign (.opened 3 OP_READ true)] },
    dispatching [4, 5, 6] [] (fun _ => { quiet with recvs := [.data [5, 1, 0]] }) fun _ => quiet,
    dispatching [] [4, 5, 6] (fun _ => quiet) fun _ => { quiet with sends := [.taken 9] }]

/-- A client asks for an address; `socket()` returns `fd` and `connect()` answers `result`. -/
def asking (fd : Fd) (result : Option Errno) : Answers :=
  { quiet with
    recvs := [.data [5, 1, 0, 1, 127, 0, 0, 1, 0, 80]]
    attempts := [⟨.ok fd, none, result, loopback⟩] }

/-- The client on 4 is connected to an origin on 7, which does not take its first byte. -/
def congestion : List Iteration :=
  [dispatching [4] [] (fun _ => asking 7 none) fun _ => quiet,
    dispatching [] [4] (fun _ => quiet) fun _ => { quiet with sends := [.taken 99] },
    dispatching [4] [] (fun _ =>
      { quiet with recvs := [.data [104]], sends := [.error .eagain] }) fun _ => quiet]

/-- In one iteration, the origin on 7 is writable again, the client on 4 has reset its connection,
and the two others make their requests, whose sockets get the numbers 4 and 7. -/
def takeover : List Iteration :=
  [dispatching [4, 5, 6] [7]
    (fun fd =>
      if fd = 4 then { quiet with recvs := [.error .other] }
      else if fd = 5 then asking 4 (some .einprogress)
      else asking 7 (some .einprogress))
    fun _ => quiet]

/-- The third connection is told that its origin is connected while the attempt is still pending. -/
theorem pending_attempt_reported_established :
    ∃ (w : World) (cell : Cell), Iterates (fun _ _ => true) unprotected w ∧
      w.heap 2 = some cell ∧ .established .inProgress ∈ cell.conn.hist := by
  have passed : ((unprotected.iterate (fun _ _ => true)
      (greetings ++ congestion ++ takeover)).any fun w => (w.heap 2).any fun cell =>
        cell.conn.hist.any fun
          | .established status => decide (status = .inProgress)
          | _ => false) = true := by
    decide +kernel
  rcases Option.any_eq_true _ _ |>.mp passed with ⟨w, ran, passed⟩
  rcases Option.any_eq_true _ _ |>.mp passed with ⟨cell, found, passed⟩
  rcases List.any_eq_true.mp passed with ⟨what, happened, pending⟩
  refine ⟨w, cell, iterates_of_iterate .refl ran, found, ?_⟩
  split at pending
  · next status =>
      obtain rfl : status = .inProgress := of_decide_eq_true pending
      exact happened
  · cases pending

/-- Up to there, the first connection was established for good. -/
theorem established_only_if_connected_without_takeover :
    ∃ (w : World) (cell : Cell) (status : SocketStatus), Iterates unrecycled unprotected w ∧
      w.heap 0 = some cell ∧ .established status ∈ cell.conn.hist ∧ status = .connected := by
  have passed : ((unprotected.iterate unrecycled (greetings ++ congestion)).any fun w =>
      (w.heap 0).any fun cell => cell.conn.hist.any fun
        | .established _ => true
        | _ => false) = true := by
    decide +kernel
  rcases Option.any_eq_true _ _ |>.mp passed with ⟨w, ran, passed⟩
  rcases Option.any_eq_true _ _ |>.mp passed with ⟨cell, found, passed⟩
  rcases List.any_eq_true.mp passed with ⟨what, happened, reported⟩
  have iterates := iterates_of_iterate .refl ran
  split at reported
  · next status =>
      exact ⟨w, cell, status, iterates, found, happened,
        established_only_if_connected iterates found happened⟩
  · cases reported

end World

end SocksProxy
