import SocksProxy.Accounting.Moves
import SocksProxy.Guarantees.Connections
import SocksProxy.Server.LogLines
import SocksProxy.Session.Records

/-!
# The access log of a run

What is appended to the access log during a run: the records of the connections,
each in full, in the order in which they were written. Together with what a
session records this says what the log tells about every connection.
-/

namespace SocksProxy

open Prog History Session

/-- A record in the log, with the connection it was written for and the time it was written at. -/
structure Entry where
  conn : ConnId
  time : CalendarTime
  record : Record

/-- The line of an entry. -/
def Entry.line (entry : Entry) : List UInt8 :=
  accessLogLine entry.time entry.record.1 entry.record.2.1 entry.record.2.2

/-- A turn writes a record exactly when it notes one. -/
theorem Turn.records {own : Fd → Prop} {l l' : Local} (turn : Turn own l l') :
    (records l'.cell.conn.hist = records l.cell.conn.hist ∧ l'.sh.log = l.sh.log) ∨
      ∃ user dest result,
        records l'.cell.conn.hist = (user, dest, result) :: records l.cell.conn.hist ∧
          l'.sh.log = accessLogRecord l.sh.log l.sh.env.calendar user dest result := by
  cases turn with
  | act act =>
      cases act with
      | conn hist current counted client origin => exact .inl ⟨congrArg Session.records hist, rfl⟩
      | shared same => exact .inl ⟨rfl, same.log⟩
      | observe what fits =>
          refine .inl ⟨?_, rfl⟩
          cases what <;> simp_all [Obs.isPlain, Obs.isInput, Cell.conn]
      | resume | choose | validate => exact .inl ⟨rfl, rfl⟩
      | relay fromClient bytes phase => cases fromClient <;> exact .inl ⟨rfl, rfl⟩
      | log user dest result => exact .inr ⟨user, dest, result, rfl, rfl⟩
      | deactivate counted gone => exact .inl ⟨rfl, rfl⟩
      | free references list pool others =>
          refine .inl ⟨rfl, ?_⟩
          dsimp only
          split <;> rfl
  | move next handshake last =>
      refine .inl ⟨?_, rfl⟩
      simp only [Cell.conn]
      split <;> rfl
  | openRelay bytes early => exact .inl ⟨rfl, rfl⟩

/-- A reply calls for a record, no other decision does. -/
theorem Session.due_eq_replies (s : Session) :
    s.due = (replies s.hist).filterMap (dueRecord s.method s.auth s.request) := by
  unfold due
  induction s.hist with
  | nil => rfl
  | cons what rest ih =>
      cases what <;> simp_all [replies, dueRecord, List.filterMap_cons]

namespace World

/-- The records written for connection `k`, oldest first. -/
def recordsOf (entries : List Entry) (k : ConnId) : List Record :=
  (entries.filter fun entry => entry.conn = k).map Entry.record

/-- What was appended to the log since it held `log`, connection by connection. -/
structure Booked (log : AccessLog) (entries : List Entry) (w : World) : Prop where
  isOpen : w.sh.log.isOpen = true
  file : w.sh.log.file = log.file ++ entries.flatMap Entry.line
  known : ∀ k, (w.heap k).isSome → k < w.nextId
  records : ∀ k, recordsOf entries k =
    ((w.heap k).elim [] fun cell => records cell.conn.hist).reverse

section

variable {log : AccessLog} {entries : List Entry} {w w' : World} {k : ConnId} {cell : Cell}
  {l : Local}

theorem recordsOf_append (first second : List Entry) (k : ConnId) :
    recordsOf (first ++ second) k = recordsOf first k ++ recordsOf second k := by
  simp [recordsOf]

theorem Booked.turn (booked : Booked log entries w) (found : w.heap k = some cell)
    (turn : Turn anyFd ⟨k, cell, w.sh⟩ l) : ∃ entries', Booked log entries' (w.put k l) := by
  have known : ∀ other, ((w.put k l).heap other).isSome → other < w.nextId := by
    intro other known
    by_cases mine : other = k
    · exact mine ▸ booked.known k (by simp [found])
    · exact booked.known other (by simpa [put, mine] using known)
  rcases turn.records with ⟨same, file⟩ | ⟨user, dest, result, more, file⟩
  · refine ⟨entries, ?_, ?_, known, fun other => ?_⟩
    · exact file ▸ booked.isOpen
    · exact file ▸ booked.file
    · rw [booked.records other]
      by_cases mine : other = k
      · subst mine
        simp [put, found, same]
      · simp [put, mine]
  · have written : l.sh.log = { w.sh.log with
        file := w.sh.log.file ++ accessLogLine w.sh.env.calendar user dest result } := by
      rw [file, accessLogRecord, if_pos booked.isOpen]
    refine ⟨entries ++ [⟨k, w.sh.env.calendar, user, dest, result⟩], ?_, ?_, known, fun other => ?_⟩
    · exact written ▸ booked.isOpen
    · simp only [put, written, booked.file, List.flatMap_append, List.flatMap_cons,
        List.flatMap_nil, List.append_nil, List.append_assoc]
      rfl
    · rw [recordsOf_append, booked.records other]
      by_cases mine : other = k
      · subst mine
        simp [put, found, more, recordsOf]
      · simp [put, mine, recordsOf, Ne.symm mine]

theorem Booked.idle (booked : Booked log entries w) (idle : Idle w w') :
    Booked log entries w' := by
  refine ⟨?_, ?_, ?_, ?_⟩
  · rw [idle.log]
    exact booked.isOpen
  · rw [idle.log]
    exact booked.file
  · rw [idle.heap, idle.nextId]
    exact booked.known
  · rw [idle.heap]
    exact booked.records

theorem Booked.served (booked : Booked log entries w)
    (serves : Relation.ReflTransGen Serves w w') : ∃ entries', Booked log entries' w' := by
  induction serves with
  | refl => exact ⟨entries, booked⟩
  | tail _ serves ih =>
      rcases ih with ⟨entries', booked'⟩
      cases serves with
      | turn found turn => exact booked'.turn found turn
      | idle idle _ => exact ⟨entries', booked'.idle idle⟩

theorem Booked.admits (booked : Booked log entries w) (admits : Admits w w') :
    Booked log entries w' := by
  cases admits with
  | idle idle _ => exact booked.idle idle
  | accept client size now below same users =>
      have vacant : w.heap w.nextId = none := by
        by_contra taken
        exact Nat.lt_irrefl _ (booked.known _ (Option.isSome_iff_ne_none.mpr taken))
      refine ⟨?_, ?_, fun other known => ?_, fun other => ?_⟩
      · rw [same.log]
        exact booked.isOpen
      · rw [same.log]
        exact booked.file
      · by_cases mine : other = w.nextId
        · exact mine ▸ Nat.lt_succ_self _
        · exact Nat.lt_succ_of_lt (booked.known other (by simpa [mine] using known))
      · rw [booked.records other]
        by_cases mine : other = w.nextId
        · subst mine
          simp [vacant, Cell.conn, newConn, Session.records]
        · simp [mine]

theorem Booked.moves (booked : Booked log entries w) {event : Event} (moves : Moves event w w') :
    ∃ entries', Booked log entries' w' := by
  cases moves with
  | serve serves => exact booked.served serves
  | accept admits =>
      refine ⟨entries, ?_⟩
      induction admits with
      | refl => exact booked
      | tail _ admits ih => exact ih.admits admits
  | admin command _ => exact ⟨entries, booked.idle (idle_applyAdmin w command)⟩
  | @shutdown m _ mode before after =>
      rcases booked.served before with ⟨entries', booked'⟩
      have changed : Booked log entries' { m with mode } :=
        ⟨booked'.isOpen, booked'.file, booked'.known, booked'.records⟩
      exact changed.served after

theorem booked_run {users : Users} {now : Int} {calendar : CalendarTime} {events : List Event}
    (ran : (initial users log now calendar).run events = .ok w) (enabled : log.isOpen = true) :
    ∃ entries, Booked log entries w := by
  refine run_keeps (P := fun w => ∃ entries, Booked log entries w) ?_ ?_ ran
  · rintro event v v' ⟨entries, booked⟩ moves
    exact booked.moves moves
  · exact ⟨[], enabled, by simp [initial], by simp [initial], by simp [initial, recordsOf]⟩

/-- One access record for each request that was parsed and answered. With the log enabled, what a
run appends is a list of records; a connection that queued no reply to a parsed request has none
among them, and one that did has exactly one, with the result the reply reports, the destination
that was parsed and the user that was admitted. -/
theorem one_record_per_answer {users : Users} {now : Int} {calendar : CalendarTime}
    {events : List Event} (ran : (initial users log now calendar).run events = .ok w)
    (enabled : log.isOpen = true) :
    ∃ entries : List Entry, w.sh.log.file = log.file ++ entries.flatMap Entry.line ∧
      (∀ entry ∈ entries, (w.heap entry.conn).isSome) ∧
      ∀ k cell, w.heap k = some cell →
        (replies cell.conn.hist).length ≤ 1 ∧
        (replies cell.conn.hist = [] ∨ requestDone cell.conn.request = false →
          recordsOf entries k = []) ∧
        (requestDone cell.conn.request = true →
          ∀ rep reply, .replied rep reply ∈ cell.conn.hist →
            recordsOf entries k = [(loggedUser cell.conn.method cell.conn.auth,
              formatRequestDst cell.conn.request, resultToken rep)] ∧
            (chosenMethod cell.conn.hist = SOCKS5_METHOD_NOAUTH →
              loggedUser cell.conn.method cell.conn.auth = ascii "-") ∧
            (chosenMethod cell.conn.hist ≠ SOCKS5_METHOD_NOAUTH →
              ∃ store, .validated SOCKS5_AUTH_OK store ∈ cell.conn.hist ∧
                usersValidate store cell.conn.auth.user cell.conn.auth.password = true ∧
                loggedUser cell.conn.method cell.conn.auth = cell.conn.auth.user.map
                  fun byte => if 0x21 ≤ byte ∧ byte ≤ 0x7E then byte else 0x3F)) := by
  rcases booked_run ran enabled with ⟨entries, booked⟩
  have reachable : w.Reachable := ⟨users, log, now, calendar, events, ran⟩
  refine ⟨entries, booked.file, fun entry member => ?_, fun k cell found => ?_⟩
  · -- The records of a connection that does not exist are none.
    by_contra unknown
    have none := booked.records entry.conn
    rw [Option.not_isSome_iff_eq_none.mp unknown] at none
    simp only [recordsOf, Option.elim_none, List.reverse_nil, List.map_eq_nil_iff,
      List.filter_eq_nil_iff] at none
    simpa using none entry member
  · have session := reachable.ok.session found
    have told := session.told
    have single : (replies cell.conn.hist).length ≤ 1 := by
      rw [← replies_decisions]
      exact session.script.length_replies_le
    have due : recordsOf entries k = ((replies cell.conn.hist).filterMap
        (dueRecord cell.conn.method cell.conn.auth cell.conn.request)).reverse := by
      rw [booked.records k, found, Option.elim_some]
      exact congrArg List.reverse (told.records.trans (due_eq_replies cell.conn.session))
    refine ⟨single, fun none => ?_, fun complete rep reply replied => ?_⟩
    · rw [due]
      rcases none with none | incomplete
      · rw [none]
        rfl
      · rw [List.reverse_eq_nil_iff, List.filterMap_eq_nil_iff]
        intro what _
        cases what <;> simp [dueRecord, incomplete]
    · have only : replies cell.conn.hist = [.replied rep reply] := by
        have member : .replied rep reply ∈ replies cell.conn.hist :=
          List.mem_filter.mpr ⟨replied, rfl⟩
        have one : (replies cell.conn.hist).length = 1 :=
          Nat.le_antisymm single (List.length_pos_of_mem member)
        rcases List.length_eq_one_iff.mp one with ⟨what, only⟩
        rw [only, List.mem_singleton] at member
        rw [only, member]
      have unreplied : ¬Unreplied (decisions cell.conn.hist) :=
        fun silent => silent rep reply (List.mem_filter.mpr ⟨replied, rfl⟩)
      have user := (told.vouched unreplied).loggedUser
      have method : chosenMethod cell.conn.hist = cell.conn.method := session.recorded.1.symm
      rw [due, only, method]
      exact ⟨by simp [dueRecord, complete], user⟩

/-- Whether a connection that has parsed its request was granted it. -/
def grantTest (cell : Cell) : Bool :=
  requestDone cell.conn.request && cell.conn.hist.any fun
    | .replied rep _ => rep = SOCKS5_REP_SUCCESS
    | _ => false

theorem replied_of_grantTest {cell : Cell} (passed : grantTest cell = true) :
    requestDone cell.conn.request = true ∧
      ∃ reply, .replied SOCKS5_REP_SUCCESS reply ∈ cell.conn.hist := by
  rcases Bool.and_eq_true_iff.mp passed with ⟨complete, replied⟩
  rcases List.any_eq_true.mp replied with ⟨what, happened, success⟩
  refine ⟨complete, ?_⟩
  split at success
  · next rep reply =>
      obtain rfl : rep = SOCKS5_REP_SUCCESS := of_decide_eq_true success
      exact ⟨reply, happened⟩
  · cases success

theorem one_record_per_answer_in_conversation :
    ∃ (w : World) (entries : List Entry) (cell : Cell),
      unprotected.run (arrival ++ request ++ conversation) = .ok w ∧
      w.sh.log.file = entries.flatMap Entry.line ∧ w.heap 0 = some cell ∧
      recordsOf entries 0 = [(loggedUser cell.conn.method cell.conn.auth,
        formatRequestDst cell.conn.request, resultToken SOCKS5_REP_SUCCESS)] := by
  have granted : endsWith (arrival ++ request ++ conversation)
      (fun w => (w.heap 0).any grantTest) = true := by
    decide +kernel
  rcases run_of_endsWith granted with ⟨w, ran, passed⟩
  rcases Option.any_eq_true _ _ |>.mp passed with ⟨cell, found, tested⟩
  rcases replied_of_grantTest tested with ⟨complete, reply, happened⟩
  rcases one_record_per_answer ran rfl with ⟨entries, file, -, records⟩
  exact ⟨w, entries, cell, ran, file, found,
    ((records 0 cell found).2.2 complete _ reply happened).1⟩

end

/-! ## The fields of a record -/

/-- A client that asks for the domain `a:1 OK`. -/
def forgery : List Event :=
  [.read 4 { quiet with recvs := [.data [5, 1, 0]] },
    .write 4 { quiet with sends := [.taken 9] },
    .read 4
      { quiet with
        recvs := [.data [5, 1, 0, 3, 6, 0x61, 0x3A, 0x31, 0x20, 0x4F, 0x4B, 0, 80]]
        calloc := false }]

/-- The record of a request that failed has six fields, and the fifth one begins with `OK`. -/
theorem record_broken_by_space :
    ∃ (w : World) (cell : Cell) (text : List UInt8), w.Reachable ∧ w.heap 0 = some cell ∧
      requestDone cell.conn.request = true ∧ cell.conn.request.address = ascii "a:1 OK" ∧
      w.sh.log.file = text ++ [0x0A] ∧
      text.splitOn 0x20 = [ascii "2026-07-09T14:22:01Z", ascii "-", ascii "CONNECT", ascii "a:1",
        ascii "OK:80", ascii "GENERAL-FAILURE"] := by
  have ended : endsWith (arrival ++ forgery) (fun w =>
      ((w.heap 0).any fun cell => requestDone cell.conn.request &&
        cell.conn.request.address = ascii "a:1 OK") &&
      w.sh.log.file =
        ascii "2026-07-09T14:22:01Z - CONNECT a:1 OK:80 GENERAL-FAILURE" ++ [0x0A]) = true := by
    decide +kernel
  rcases exists_of_endsWith ended with ⟨w, reachable, passed⟩
  simp only [Bool.and_eq_true, decide_eq_true_eq, Option.any_eq_true] at passed
  rcases passed with ⟨⟨cell, found, complete, asked⟩, written⟩
  exact ⟨w, cell, _, reachable, found, complete, asked, written, by decide⟩

end World

/-- Whatever the request, `socks5_log_access` appends one line of printable text. It splits at its
spaces into the five fields that were logged, and into five pieces at all, exactly if the request
has no space in a domain. -/
theorem records_split_into_fields (id : ConnId) (c : Conn) (sh : Shared) (rep : UInt8)
    (isOpen : sh.log.isOpen = true) :
    ∃ (l : Local) (text : List UInt8),
      socks5LogAccess (resultToken rep) ⟨id, .live c, sh⟩ = .ok ((), l) ∧
      l.sh.log.file = sh.log.file ++ (text ++ [0x0A]) ∧
      (∀ byte ∈ text, 0x20 ≤ byte ∧ byte ≤ 0x7e) ∧
      (text.splitOn 0x20 =
        [timestamp sh.env.calendar, loggedUser c.method c.auth, ascii "CONNECT",
          formatRequestDst c.request, resultToken rep] ↔
        (c.request.atyp = SOCKS5_ATYP_DOMAIN → 0x20 ∉ c.request.address)) ∧
      ((text.splitOn 0x20).length = 5 ↔
        (c.request.atyp = SOCKS5_ATYP_DOMAIN → 0x20 ∉ c.request.address)) := by
  have who := visible_loggedUser c.method c.auth
  have outcome := visible_resultToken rep
  have written : wp (socks5LogAccess (resultToken rep)) (fun _ l => l.sh.log.file =
      sh.log.file ++ (recordText sh.env.calendar (loggedUser c.method c.auth)
        (formatRequestDst c.request) (resultToken rep) ++ [0x0A])) ⟨id, .live c, sh⟩ := by
    simp only [socks5LogAccess, wp_bind, wp_getConn, wp_modifyShared, wp_observe,
      accessLogRecord, isOpen, if_true, accessLogLine_eq]
  have spaceless := spaceless_formatRequestDst_iff c.request
  rcases written with ⟨⟨⟩, l, ran, appended⟩
  refine ⟨l, _, ran, appended,
    printable_recordText _ who.printable (printable_formatRequestDst _) outcome.printable, ?_, ?_⟩
  · exact (splitOn_recordText_iff _ who outcome).trans spaceless
  · rw [length_splitOn_recordText _ who outcome, Nat.add_eq_left, List.count_eq_zero]
    exact spaceless

/-- The record of a request for the domain `hi`. -/
theorem records_split_into_fields_for_domain :
    ∃ (l : Local) (text : List UInt8),
      socks5LogAccess (resultToken SOCKS5_REP_SUCCESS)
        ⟨0, .live { World.newConn 4 512 0 with request := { Socks5Request.zero with
          state := .done, atyp := SOCKS5_ATYP_DOMAIN, addrLen := 2
          dstAddr := (Socks5Request.zero.dstAddr.set 0 0x68).set 1 0x69, dstPort := 80 } },
          World.unprotected.sh⟩ = .ok ((), l) ∧
      l.sh.log.file = text ++ [0x0A] ∧
      text.splitOn 0x20 = [ascii "2026-07-09T14:22:01Z", ascii "-", ascii "CONNECT",
        ascii "hi:80", ascii "OK"] := by
  rcases records_split_into_fields 0 { World.newConn 4 512 0 with
      request := { Socks5Request.zero with
        state := .done, atyp := SOCKS5_ATYP_DOMAIN, addrLen := 2
        dstAddr := (Socks5Request.zero.dstAddr.set 0 0x68).set 1 0x69, dstPort := 80 } }
    World.unprotected.sh SOCKS5_REP_SUCCESS rfl with
    ⟨l, text, ran, written, -, fields, -⟩
  exact ⟨l, text, ran, written, (fields.mpr (by decide +kernel)).trans (by decide +kernel)⟩

end SocksProxy
