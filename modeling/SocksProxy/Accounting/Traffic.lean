import Mathlib.Algebra.BigOperators.Group.Finset.Piecewise
import SocksProxy.Accounting.Moves
import SocksProxy.Guarantees.Connections

/-!
# Byte counters

`relay_read` counts bytes as it reads them. The two counters are therefore the
sums, over all connections, of what was read since the connection began to
relay; what the client had sent along with its request was read before and is
forwarded without being counted.
-/

namespace SocksProxy

open Prog History

/-- What a connection added to `bytes_client_to_origin`: the bytes read from the client while
relaying. -/
def uploaded (h : List Obs) : Nat :=
  match relaySplit h with
  | some (late, _, _) => (received late).length
  | none => 0

/-- What a connection added to `bytes_origin_to_client`. -/
def downloaded (h : List Obs) : Nat :=
  match relaySplit h with
  | some (late, _, _) => (fetched late).length
  | none => 0

/-- The history of a connection knows whether it relays. -/
structure Conn.Split (c : Conn) : Prop where
  late : (relaySplit c.hist).isSome → c.Late
  relay : c.current = some .relay → (relaySplit c.hist).isSome

theorem Conn.Split.of_not_late {c : Conn} (split : c.Split) (early : ¬c.Late) :
    relaySplit c.hist = none := by
  by_contra relaying
  exact early (split.late (Option.isSome_iff_ne_none.mpr relaying))

theorem Conn.Reads.not_late {c : Conn} (reads : c.Reads) : ¬c.Late := by
  rcases reads with ⟨phase, current, reading⟩
  rintro (late | late | late) <;>
    · rw [current, Option.some.injEq] at late
      subst late
      cases reading

theorem isSome_relaySplit_cons {what : Obs} {h : List Obs}
    (goesOn : ∀ bytes, what ≠ .leftover bytes) :
    (relaySplit (what :: h)).isSome = (relaySplit h).isSome := by
  rw [relaySplit_cons _ goesOn, Option.isSome_map]

theorem Conn.Split.cons {c : Conn} {what : Obs} (split : c.Split)
    (goesOn : ∀ bytes, what ≠ .leftover bytes) : { c with hist := what :: c.hist }.Split where
  late relaying := split.late (isSome_relaySplit_cons goesOn ▸ relaying)
  relay phase := (isSome_relaySplit_cons goesOn).trans (split.relay phase)

theorem uploaded_cons {what : Obs} {h : List Obs} (goesOn : ∀ bytes, what ≠ .leftover bytes) :
    uploaded (what :: h) =
      uploaded h + if (relaySplit h).isSome then what.receivedBytes.length else 0 := by
  unfold uploaded
  rw [relaySplit_cons _ goesOn]
  cases relaySplit h <;> simp

theorem downloaded_cons {what : Obs} {h : List Obs} (goesOn : ∀ bytes, what ≠ .leftover bytes) :
    downloaded (what :: h) =
      downloaded h + if (relaySplit h).isSome then what.fetchedBytes.length else 0 := by
  unfold downloaded
  rw [relaySplit_cons _ goesOn]
  cases relaySplit h <;> simp

/-- Observations outside the relay add nothing, and neither do observations without input. -/
theorem amounts_cons {what : Obs} {h : List Obs} (goesOn : ∀ bytes, what ≠ .leftover bytes)
    (nothing : relaySplit h = none ∨ what.isInput = false) :
    uploaded (what :: h) = uploaded h ∧ downloaded (what :: h) = downloaded h := by
  rw [uploaded_cons goesOn, downloaded_cons goesOn]
  rcases nothing with early | silent
  · simp [early]
  · cases what <;> simp_all [Obs.isInput]

/-- What a turn adds to the byte counters is what it adds to the history of its connection. -/
structure Counts (l l' : Local) (up down : Nat) : Prop where
  split : l'.cell.conn.Split
  uploaded : uploaded l'.cell.conn.hist = uploaded l.cell.conn.hist + up
  downloaded : downloaded l'.cell.conn.hist = downloaded l.cell.conn.hist + down
  clientToOrigin : l'.sh.metrics.bytesClientToOrigin =
    l.sh.metrics.bytesClientToOrigin + UInt64.ofNat up
  originToClient : l'.sh.metrics.bytesOriginToClient =
    l.sh.metrics.bytesOriginToClient + UInt64.ofNat down

theorem Counts.nothing {l l' : Local} (split : l'.cell.conn.Split)
    (amounts : SocksProxy.uploaded l'.cell.conn.hist = SocksProxy.uploaded l.cell.conn.hist ∧
      SocksProxy.downloaded l'.cell.conn.hist = SocksProxy.downloaded l.cell.conn.hist)
    (metrics : l'.sh.metrics.bytesClientToOrigin = l.sh.metrics.bytesClientToOrigin ∧
      l'.sh.metrics.bytesOriginToClient = l.sh.metrics.bytesOriginToClient) : Counts l l' 0 0 :=
  ⟨split, amounts.1, amounts.2, by simp [metrics.1], by simp [metrics.2]⟩

theorem bytes_metricsConnectionClosed (m : Metrics) :
    (metricsConnectionClosed m).bytesClientToOrigin = m.bytesClientToOrigin ∧
      (metricsConnectionClosed m).bytesOriginToClient = m.bytesOriginToClient := by
  unfold metricsConnectionClosed
  split <;> exact ⟨rfl, rfl⟩

theorem bytes_metricsConnectionOpened (m : Metrics) :
    (metricsConnectionOpened m).bytesClientToOrigin = m.bytesClientToOrigin ∧
      (metricsConnectionOpened m).bytesOriginToClient = m.bytesOriginToClient := by
  unfold metricsConnectionOpened
  dsimp only
  split <;> exact ⟨rfl, rfl⟩

theorem Turn.traffic {own : Fd → Prop} {l l' : Local} (turn : Turn own l l')
    (split : l.cell.conn.Split) : ∃ up down, Counts l l' up down := by
  cases turn with
  | act act =>
      cases act with
      | @conn id c c' sh hist current counted client origin =>
          refine ⟨0, 0, .nothing ⟨?_, ?_⟩ ⟨congrArg uploaded hist, congrArg downloaded hist⟩
            ⟨rfl, rfl⟩⟩
          · simpa [Cell.conn, Conn.Late, hist, current] using split.late
          · simpa [Cell.conn, hist, current] using split.relay
      | shared same =>
          exact ⟨0, 0, .nothing split ⟨rfl, rfl⟩
            ⟨congrArg _ same.metrics, congrArg _ same.metrics⟩⟩
      | resume paused armed => exact ⟨0, 0, .nothing split ⟨rfl, rfl⟩ ⟨rfl, rfl⟩⟩
      | @observe id c sh what fits =>
          -- Neither moves the split of the history: what is read here is read before the relay.
          have goesOn : ∀ bytes, what ≠ .leftover bytes := by
            rintro bytes rfl
            simp [Obs.isPlain, Obs.isInput] at fits
          have nothing : relaySplit c.hist = none ∨ what.isInput = false := by
            rcases fits with plain | ⟨-, reads⟩
            · right
              cases what <;> simp_all [Obs.isPlain, Obs.isInput]
            · exact .inl (split.of_not_late reads.not_late)
          exact ⟨0, 0, .nothing (split.cons goesOn) (amounts_cons goesOn nothing) ⟨rfl, rfl⟩⟩
      | @choose id c sh p =>
          have goesOn : ∀ bytes,
              Obs.chose (negotiationMethod p (authRequired sh.users)) sh.users ≠
                .leftover bytes := by
            simp
          exact ⟨0, 0, .nothing (split.cons goesOn) (amounts_cons goesOn (.inr rfl)) ⟨rfl, rfl⟩⟩
      | @validate id c sh status =>
          have goesOn : ∀ bytes, Obs.validated status sh.users ≠ .leftover bytes := by simp
          exact ⟨0, 0, .nothing (split.cons goesOn) (amounts_cons goesOn (.inr rfl)) ⟨rfl, rfl⟩⟩
      | @relay id c sh fromClient bytes phase =>
          have relaying : (relaySplit c.hist).isSome = true := split.relay phase
          cases fromClient with
          | true =>
              have goesOn : ∀ other, Obs.received bytes ≠ .leftover other := by simp
              refine ⟨bytes.length, 0, split.cons goesOn, ?_, ?_, rfl, ?_⟩
              · simp [Cell.conn, uploaded_cons goesOn, relaying]
              · simp [Cell.conn, downloaded_cons goesOn]
              · simp [metricsBytesClientToOrigin]
          | false =>
              have goesOn : ∀ other, Obs.fetched bytes ≠ .leftover other := by simp
              refine ⟨0, bytes.length, split.cons goesOn, ?_, ?_, ?_, rfl⟩
              · simp [Cell.conn, uploaded_cons goesOn]
              · simp [Cell.conn, downloaded_cons goesOn, relaying]
              · simp [metricsBytesOriginToClient]
      | @log id c sh user dest result =>
          have goesOn : ∀ bytes, Obs.logged user dest result ≠ .leftover bytes := by simp
          exact ⟨0, 0, .nothing (split.cons goesOn) (amounts_cons goesOn (.inr rfl)) ⟨rfl, rfl⟩⟩
      | @deactivate id c sh counted gone =>
          exact ⟨0, 0, .nothing ⟨split.late, split.relay⟩ ⟨rfl, rfl⟩
            (bytes_metricsConnectionClosed sh.metrics)⟩
      | @free id c sh references list pool =>
          refine ⟨0, 0, .nothing ⟨split.late, split.relay⟩ ⟨rfl, rfl⟩ ?_⟩
          dsimp only
          split
          · exact bytes_metricsConnectionClosed sh.metrics
          · exact ⟨rfl, rfl⟩
  | @move id c sh next handshake last =>
      have goesOn : ∀ bytes, Obs.entered next ≠ .leftover bytes := by simp
      have hist : (relaySplit (if c.current = some next then c.hist
          else .entered next :: c.hist)).isSome = (relaySplit c.hist).isSome := by
        split
        · rfl
        · exact isSome_relaySplit_cons goesOn
      refine ⟨0, 0, .nothing ⟨fun relaying => ?_, fun relays => ?_⟩ ?_ ⟨rfl, rfl⟩⟩
      · rcases last (split.late (hist ▸ relaying)) with rfl | rfl
        · exact .inr (.inl rfl)
        · exact .inr (.inr rfl)
      · exact absurd (Option.some.inj relays) handshake
      · simp only [Cell.conn]
        split
        · exact ⟨rfl, rfl⟩
        · exact amounts_cons goesOn (.inr rfl)
  | @openRelay id c sh bytes early =>
      have none := split.of_not_late early
      refine ⟨0, 0, .nothing ⟨fun _ => .inl rfl, fun _ => rfl⟩ ?_ ⟨rfl, rfl⟩⟩
      simp [Cell.conn, uploaded, downloaded, relaySplit, show relaySplit c.hist = _ from none]

namespace World

/-- What the connections of the process added to a counter. -/
def total (amount : List Obs → Nat) (w : World) : Nat :=
  ∑ k ∈ Finset.range w.nextId, (w.heap k).elim 0 fun cell => amount cell.conn.hist

/-- The byte counters are the totals over all connections. -/
structure Tally (w : World) : Prop where
  known : ∀ k, (w.heap k).isSome → k < w.nextId
  split : ∀ k cell, w.heap k = some cell → cell.conn.Split
  clientToOrigin : w.sh.metrics.bytesClientToOrigin = UInt64.ofNat (w.total uploaded)
  originToClient : w.sh.metrics.bytesOriginToClient = UInt64.ofNat (w.total downloaded)

section

variable {w w' : World} {k : ConnId} {cell : Cell} {l : Local}

theorem total_put {amount : List Obs → Nat} {n : Nat} (less : k < w.nextId)
    (found : w.heap k = some cell)
    (added : amount l.cell.conn.hist = amount cell.conn.hist + n) :
    (w.put k l).total amount = w.total amount + n := by
  have member : k ∈ Finset.range w.nextId := Finset.mem_range.mpr less
  have others : ∀ other ∈ (Finset.range w.nextId).erase k,
      ((w.put k l).heap other).elim 0 (fun cell => amount cell.conn.hist) =
        (w.heap other).elim 0 fun cell => amount cell.conn.hist := by
    intro other inside
    simp only [put, Function.update_of_ne (Finset.ne_of_mem_erase inside)]
  unfold total
  rw [show (w.put k l).nextId = w.nextId from rfl, ← Finset.add_sum_erase _ _ member,
    ← Finset.add_sum_erase (Finset.range w.nextId) _ member, Finset.sum_congr rfl others, found]
  simp only [put, Function.update_self, Option.elim_some, added]
  omega

theorem Tally.turn (tally : w.Tally) (found : w.heap k = some cell)
    (turn : Turn anyFd ⟨k, cell, w.sh⟩ l) : (w.put k l).Tally := by
  have less : k < w.nextId := tally.known k (by simp [found])
  rcases turn.traffic (tally.split k cell found) with ⟨up, down, counts⟩
  refine ⟨fun other known => ?_, fun other cell' now => ?_, ?_, ?_⟩
  · by_cases mine : other = k
    · exact mine ▸ less
    · exact tally.known other (by simpa [put, mine] using known)
  · by_cases mine : other = k
    · subst mine
      simp only [put, Function.update_self, Option.some.injEq] at now
      exact now ▸ counts.split
    · simp only [put, Function.update_of_ne mine] at now
      exact tally.split other cell' now
  · rw [total_put less found counts.uploaded, UInt64.ofNat_add, ← tally.clientToOrigin]
    exact counts.clientToOrigin
  · rw [total_put less found counts.downloaded, UInt64.ofNat_add, ← tally.originToClient]
    exact counts.originToClient

theorem Tally.idle (tally : w.Tally) (idle : Idle w w') : w'.Tally := by
  have same : ∀ amount, w'.total amount = w.total amount := by
    intro amount
    simp only [total, idle.heap, idle.nextId]
  refine ⟨?_, ?_, ?_, ?_⟩
  · rw [idle.heap, idle.nextId]
    exact tally.known
  · rw [idle.heap]
    exact tally.split
  · rw [idle.metrics, same]
    exact tally.clientToOrigin
  · rw [idle.metrics, same]
    exact tally.originToClient

theorem Tally.serves (tally : w.Tally) (serves : Serves w w') : w'.Tally := by
  cases serves with
  | turn found turn => exact tally.turn found turn
  | idle idle _ => exact tally.idle idle

theorem Tally.admits (tally : w.Tally) (admits : Admits w w') : w'.Tally := by
  cases admits with
  | idle idle _ => exact tally.idle idle
  | @accept sh' client size now below same =>
      have opened : sh'.metrics = metricsConnectionOpened w.sh.metrics := same.metrics
      have bytes := bytes_metricsConnectionOpened w.sh.metrics
      -- A new connection has relayed nothing.
      have same : ∀ amount : List Obs → Nat, amount [] = 0 → ({ w with
          heap := Function.update w.heap w.nextId (some (.live (newConn client size now)))
          nextId := w.nextId + 1
          sh := sh' } : World).total amount = w.total amount := by
        intro amount nothing
        simp only [total, Finset.sum_range_succ, Function.update_self, Option.elim_some]
        rw [show (Cell.live (newConn client size now)).conn.hist = [] from rfl, nothing,
          Nat.add_zero]
        refine Finset.sum_congr rfl fun other inside => ?_
        rw [Function.update_of_ne (Nat.ne_of_lt (Finset.mem_range.mp inside))]
      refine ⟨fun other known => ?_, fun other cell' now => ?_, ?_, ?_⟩
      · by_cases mine : other = w.nextId
        · exact mine ▸ Nat.lt_succ_self _
        · exact Nat.lt_succ_of_lt (tally.known other (by simpa [mine] using known))
      · by_cases mine : other = w.nextId
        · subst mine
          simp only [Function.update_self, Option.some.injEq] at now
          exact now ▸ ⟨by simp [Cell.conn, newConn, relaySplit], by simp [Cell.conn, newConn]⟩
        · simp only [Function.update_of_ne mine] at now
          exact tally.split other cell' now
      · rw [same uploaded rfl, ← tally.clientToOrigin]
        exact (congrArg _ opened).trans bytes.1
      · rw [same downloaded rfl, ← tally.originToClient]
        exact (congrArg _ opened).trans bytes.2

theorem Tally.served (tally : w.Tally) (serves : Relation.ReflTransGen Serves w w') :
    w'.Tally := by
  induction serves with
  | refl => exact tally
  | tail _ serves ih => exact ih.serves serves

theorem Tally.moves (tally : w.Tally) {event : Event} (moves : Moves event w w') : w'.Tally := by
  cases moves with
  | serve serves => exact tally.served serves
  | accept admits =>
      induction admits with
      | refl => exact tally
      | tail _ admits ih => exact ih.admits admits
  | admin command _ => exact tally.idle (idle_applyAdmin w command)
  | @shutdown m _ mode before after =>
      have reached := tally.served before
      have changed : { m with mode }.Tally :=
        ⟨reached.known, reached.split, reached.clientToOrigin, reached.originToClient⟩
      exact changed.served after

theorem Reachable.tally (reachable : w.Reachable) : w.Tally := by
  rcases reachable with ⟨users, log, now, calendar, events, ran⟩
  refine run_keeps (fun _ _ _ tally moves => tally.moves moves) ?_ ran
  exact ⟨by simp [initial], by simp [initial], rfl, rfl⟩

/-- The byte counters of a run are the sums of what its connections read while relaying. For a
connection that is done relaying, what was counted towards the origin falls short of what was sent
there by the bytes that were pipelined, and so is right exactly if there were none; what was counted
towards the client is what was sent to it. -/
theorem counted_bytes_without_pipelining (reachable : w.Reachable) :
    w.sh.metrics.bytesClientToOrigin = UInt64.ofNat (w.total uploaded) ∧
    w.sh.metrics.bytesOriginToClient = UInt64.ofNat (w.total downloaded) ∧
    ∀ k cell late pipelined early, w.heap k = some cell → cell.conn.current = some .done →
      relaySplit cell.conn.hist = some (late, pipelined, early) →
      (forwarded cell.conn.hist).length = pipelined.length + uploaded cell.conn.hist ∧
        (uploaded cell.conn.hist = (forwarded cell.conn.hist).length ↔ pipelined = []) ∧
        downloaded cell.conn.hist = (sent late).length := by
  have tally := reachable.tally
  refine ⟨tally.clientToOrigin, tally.originToClient, ?_⟩
  intro k cell late pipelined early found done split
  have session := reachable.ok.session found
  rcases session.delivered done (Option.isSome_iff_exists.mpr ⟨_, split⟩) with ⟨unread, out⟩
  have relayed := (session.invariant.1.late split).2
  have up : forwarded late = pipelined ++ received late := by simpa [unread] using relayed.upstream
  have down : sent late = fetched late := by simpa [out] using relayed.downstream
  have all : forwarded cell.conn.hist = forwarded late := (relayed.totals split).1
  rw [uploaded, downloaded, split, all, up, down, List.length_append]
  refine ⟨rfl, ?_, rfl⟩
  rw [← List.length_eq_zero_iff]
  dsimp only
  omega

end

/-- The request without anything behind it, then one byte each way, and both peers close. -/
def exchange : List Event :=
  [.read 4 { quiet with recvs := [.data [5, 1, 0]] },
    .write 4 { quiet with sends := [.taken 9] },
    .read 4
      { quiet with
        recvs := [.data [5, 1, 0, 1, 127, 0, 0, 1, 0, 80]]
        attempts := [⟨.ok 5, none, none, loopback⟩] },
    .write 4 { quiet with sends := [.taken 99] },
    .read 4 { quiet with recvs := [.data [104]], sends := [.taken 99] },
    .read 5 { quiet with recvs := [.data [111]], sends := [.taken 99] },
    .read 4 { quiet with recvs := [.data []] },
    .read 5 { quiet with recvs := [.data []] }]

theorem counted_bytes_without_pipelining_in_exchange :
    ∃ (w : World) (cell : Cell) (late early : List Obs), w.Reachable ∧ w.heap 0 = some cell ∧
      cell.conn.current = some .done ∧ relaySplit cell.conn.hist = some (late, [], early) ∧
      (forwarded cell.conn.hist).length = 1 ∧
      uploaded cell.conn.hist = (forwarded cell.conn.hist).length ∧
      downloaded cell.conn.hist = (sent late).length := by
  have passed : endsWith (arrival ++ exchange) (fun w => (w.heap 0).any fun cell =>
      decide (cell.conn.current = some .done) &&
        (relaySplit cell.conn.hist).any (fun parts => decide (parts.2.1 = [])) &&
        decide ((forwarded cell.conn.hist).length = 1)) = true := by
    decide +kernel
  rcases exists_of_endsWith passed with ⟨w, reachable, tested⟩
  rcases Option.any_eq_true _ _ |>.mp tested with ⟨cell, found, tested⟩
  simp only [Bool.and_eq_true, decide_eq_true_eq, Option.any_eq_true] at tested
  rcases tested with ⟨⟨done, ⟨late, pipelined, early⟩, split, rfl⟩, one⟩
  have counted := (counted_bytes_without_pipelining reachable).2.2 0 cell late [] early found done
    split
  exact ⟨w, cell, late, early, reachable, found, done, split, one,
    counted.2.1.mpr rfl, counted.2.2⟩

/-- The two bytes the client sends along with its request are forwarded and never counted: the only
connection of the run is done relaying, and the counter is still zero. -/
theorem pipelined_bytes_not_counted :
    ∃ (w : World) (cell : Cell) (late early : List Obs),
      unprotected.run (arrival ++ request ++ conversation) = .ok w ∧
      w.nextId = 1 ∧ w.heap 0 = some cell ∧ cell.conn.current = some .done ∧
      relaySplit cell.conn.hist = some (late, [104, 105], early) ∧
      forwarded cell.conn.hist = [104, 105] ∧ w.sh.metrics.bytesClientToOrigin = 0 := by
  have relayed : endsWith (arrival ++ request ++ conversation) (fun w =>
      (w.heap 0).any fun cell => w.nextId = 1 && cell.conn.current = some .done &&
        (relaySplit cell.conn.hist).any (fun parts => parts.2.1 = [104, 105]) &&
        forwarded cell.conn.hist = [104, 105] && w.sh.metrics.bytesClientToOrigin = 0) = true := by
    decide +kernel
  rcases run_of_endsWith relayed with ⟨w, ran, passed⟩
  rcases Option.any_eq_true _ _ |>.mp passed with ⟨cell, found, tested⟩
  simp only [Bool.and_eq_true, decide_eq_true_eq, Option.any_eq_true] at tested
  rcases tested with ⟨⟨⟨⟨one, done⟩, ⟨late, pipelined, early⟩, split, rfl⟩, sent⟩, zero⟩
  exact ⟨w, cell, late, early, ran, one, found, done, split, sent, zero⟩

end World

end SocksProxy
