import Mathlib.Algebra.BigOperators.Group.Finset.Basic
import Mathlib.Data.Finset.Card
import Mathlib.Order.Bounds.Defs
import SocksProxy.Accounting.Moves
import SocksProxy.Guarantees.Process

/-!
# Counters

What the counters of `metrics.c` say, in every run: the connections counted as
active are those on the list, every connection is counted once when it is
admitted and once when it goes, and the highest count is kept.
-/

namespace SocksProxy

open Prog

section

variable {m : Metrics}

theorem toNat_metricsConnectionOpened (room : m.activeConnections.toNat + 1 < 2 ^ 64) :
    (metricsConnectionOpened m).activeConnections.toNat = m.activeConnections.toNat + 1 := by
  have counted : (m.activeConnections + 1).toNat = m.activeConnections.toNat + 1 := by
    rw [UInt64.toNat_add]
    exact Nat.mod_eq_of_lt room
  unfold metricsConnectionOpened
  dsimp only
  split <;> exact counted

theorem max_metricsConnectionOpened :
    (metricsConnectionOpened m).maxActiveConnections.toNat =
      max m.maxActiveConnections.toNat (metricsConnectionOpened m).activeConnections.toNat := by
  unfold metricsConnectionOpened
  dsimp only
  split
  · next more => exact (max_eq_right (UInt64.lt_iff_toNat_lt.mp more).le).symm
  · next less => exact (max_eq_left (UInt64.le_iff_toNat_le.mp (UInt64.not_lt.mp less))).symm

theorem historical_metricsConnectionOpened :
    (metricsConnectionOpened m).historicalConnections = m.historicalConnections + 1 := by
  unfold metricsConnectionOpened
  dsimp only
  split <;> rfl

theorem toNat_metricsConnectionClosed (active : 0 < m.activeConnections.toNat) :
    (metricsConnectionClosed m).activeConnections.toNat + 1 = m.activeConnections.toNat := by
  have positive : 0 < m.activeConnections := UInt64.lt_iff_toNat_lt.mpr active
  have one : (1 : UInt64) ≤ m.activeConnections := UInt64.le_iff_toNat_le.mpr active
  simp only [metricsConnectionClosed, positive, if_true, UInt64.toNat_sub_of_le _ _ one]
  exact Nat.sub_add_cancel active

theorem metricsConnectionClosed_le :
    (metricsConnectionClosed m).activeConnections.toNat ≤ m.activeConnections.toNat := by
  rcases Nat.eq_zero_or_pos m.activeConnections.toNat with zero | active
  · have none : ¬0 < m.activeConnections := fun positive =>
      absurd (UInt64.lt_iff_toNat_lt.mp positive) (by simp [zero])
    rw [metricsConnectionClosed, if_neg none]
  · have less := toNat_metricsConnectionClosed active
    omega

theorem metricsConnectionClosed_frame :
    (metricsConnectionClosed m).maxActiveConnections = m.maxActiveConnections ∧
      (metricsConnectionClosed m).historicalConnections = m.historicalConnections := by
  unfold metricsConnectionClosed
  split <;> exact ⟨rfl, rfl⟩

end

/-- Whether the connection counts as active. -/
def Cell.counted (cell : Cell) : Bool := cell.conn.activeCounted

/-- The counters of connections are left alone. -/
structure Shared.SameCounts (sh sh' : Shared) : Prop where
  active : sh'.metrics.activeConnections = sh.metrics.activeConnections
  maxActive : sh'.metrics.maxActiveConnections = sh.metrics.maxActiveConnections
  historical : sh'.metrics.historicalConnections = sh.metrics.historicalConnections
  closings : sh'.closings = sh.closings

/-- A turn changes the counters only to take its connection out of them. -/
theorem Turn.counts {own : Fd → Prop} {l l' : Local} (turn : Turn own l l') :
    (l'.cell.counted = l.cell.counted ∧ l.sh.SameCounts l'.sh) ∨
      (l.cell.counted = true ∧ l'.cell.counted = false ∧ (l.sh.uncount l.id).SameCounts l'.sh) := by
  cases turn with
  | act act =>
      cases act with
      | conn hist current counted client origin => exact .inl ⟨counted, rfl, rfl, rfl, rfl⟩
      | shared same =>
          exact .inl ⟨rfl, congrArg _ same.metrics, congrArg _ same.metrics,
            congrArg _ same.metrics, same.closings⟩
      | resume | observe | choose | validate => exact .inl ⟨rfl, rfl, rfl, rfl, rfl⟩
      | relay fromClient bytes phase => cases fromClient <;> exact .inl ⟨rfl, rfl, rfl, rfl, rfl⟩
      | log user dest result => exact .inl ⟨rfl, rfl, rfl, rfl, rfl⟩
      | deactivate counted gone => exact .inr ⟨counted, rfl, rfl, rfl, rfl, rfl⟩
      | @free id c sh references list pool =>
          by_cases counted : c.activeCounted = true
          · rw [if_pos counted]
            exact .inr ⟨counted, rfl, rfl, rfl, rfl, rfl⟩
          · rw [if_neg counted]
            exact .inl ⟨(Bool.eq_false_iff.mpr counted).symm, rfl, rfl, rfl, rfl⟩
  | move next handshake last => exact .inl ⟨rfl, rfl, rfl, rfl, rfl⟩
  | openRelay bytes early => exact .inl ⟨rfl, rfl, rfl, rfl, rfl⟩

/-- A live connection is counted until its client is gone, a freed one is not. -/
def Cell.Tracked : Cell → Prop
  | .live c => c.activeCounted = true ∨ c.clientFd = none
  | .freed c _ => c.activeCounted = false

theorem Turn.tracked {own : Fd → Prop} {l l' : Local} (turn : Turn own l l')
    (tracked : l.cell.Tracked) : l'.cell.Tracked := by
  cases turn with
  | act act =>
      cases act with
      | conn hist current counted client origin =>
          rcases tracked with before | before
          · exact .inl (counted.trans before)
          · rcases client with same | none
            · exact .inr (same.trans before)
            · exact .inr none
      | deactivate counted gone => exact .inr gone
      | free references list pool others => rfl
      | _ => exact tracked
  | move next handshake last => exact tracked
  | openRelay bytes early => exact tracked

namespace World

/-- The connections counted as active. -/
def counted (w : World) : Finset ConnId :=
  (Finset.range w.nextId).filter fun k => (w.heap k).any Cell.counted = true

/-- What the counters of connections say. -/
structure Ledger (w : World) : Prop where
  known : ∀ k, (w.heap k).isSome ↔ k < w.nextId
  tracked : ∀ k cell, w.heap k = some cell → cell.Tracked
  active : w.sh.metrics.activeConnections.toNat = w.counted.card
  historical : w.sh.metrics.historicalConnections = UInt64.ofNat w.nextId
  topped : w.sh.metrics.activeConnections.toNat ≤ w.sh.metrics.maxActiveConnections.toNat
  peak : w.sh.metrics.maxActiveConnections.toNat ≤ w.nextId
  once : (w.sh.closings.map Prod.fst).Nodup
  closed : ∀ k, k ∈ w.sh.closings.map Prod.fst ↔ k < w.nextId ∧ k ∉ w.counted
  positive : ∀ closing ∈ w.sh.closings, 0 < closing.2.toNat

section

variable {w w' : World} {k : ConnId} {cell : Cell} {l : Local}

theorem mem_counted : k ∈ w.counted ↔ k < w.nextId ∧ (w.heap k).any Cell.counted = true := by
  simp [counted]

theorem ledger_initial (users : Users) (log : AccessLog) (now : Int) (calendar : CalendarTime) :
    (initial users log now calendar).Ledger where
  known := by simp [initial]
  tracked := by simp [initial]
  active := by simp [initial, counted, metricsInit]
  historical := rfl
  topped := Nat.le_refl _
  peak := Nat.le_refl _
  once := List.nodup_nil
  closed := by simp [initial]
  positive := by simp [initial]

theorem Ledger.idle (ledger : w.Ledger) (idle : Idle w w') : w'.Ledger := by
  have same : w'.counted = w.counted := by simp only [counted, idle.heap, idle.nextId]
  refine ⟨?_, ?_, ?_, ?_, ?_, ?_, ?_, ?_, ?_⟩
  · rw [idle.heap, idle.nextId]
    exact ledger.known
  · rw [idle.heap]
    exact ledger.tracked
  · rw [idle.metrics, same]
    exact ledger.active
  · rw [idle.metrics, idle.nextId]
    exact ledger.historical
  · rw [idle.metrics]
    exact ledger.topped
  · rw [idle.metrics, idle.nextId]
    exact ledger.peak
  · rw [idle.closings]
    exact ledger.once
  · rw [idle.closings, idle.nextId, same]
    exact ledger.closed
  · rw [idle.closings]
    exact ledger.positive

theorem counted_put_of_eq (found : w.heap k = some cell) (same : l.cell.counted = cell.counted) :
    (w.put k l).counted = w.counted := by
  ext other
  simp only [mem_counted, put]
  by_cases mine : other = k
  · subst mine
    simp [found, same]
  · simp [mine]

theorem counted_put_of_false (uncounted : l.cell.counted = false) :
    (w.put k l).counted = w.counted.erase k := by
  ext other
  simp only [mem_counted, put, Finset.mem_erase]
  by_cases mine : other = k
  · subst mine
    simp [uncounted]
  · simp [mine]

theorem Ledger.turn (ledger : w.Ledger) (found : w.heap k = some cell)
    (turn : Turn anyFd ⟨k, cell, w.sh⟩ l) : (w.put k l).Ledger := by
  have known : ∀ other, ((w.put k l).heap other).isSome ↔ other < w.nextId := by
    intro other
    rw [← ledger.known other, put]
    by_cases mine : other = k
    · subst mine
      simp [found]
    · simp [mine]
  have tracked : ∀ other cell', (w.put k l).heap other = some cell' → cell'.Tracked := by
    intro other cell' now
    by_cases mine : other = k
    · subst mine
      simp only [put, Function.update_self, Option.some.injEq] at now
      exact now ▸ turn.tracked (ledger.tracked other cell found)
    · simp only [put, Function.update_of_ne mine] at now
      exact ledger.tracked other cell' now
  rcases turn.counts with ⟨same, counts⟩ | ⟨before, after, counts⟩
  · have set := counted_put_of_eq found same
    refine ⟨known, tracked, ?_, ?_, ?_, ?_, ?_, ?_, ?_⟩
    · rw [set]
      exact counts.active ▸ ledger.active
    · exact counts.historical.trans ledger.historical
    · exact counts.active ▸ counts.maxActive ▸ ledger.topped
    · exact counts.maxActive ▸ ledger.peak
    · exact counts.closings ▸ ledger.once
    · rw [set]
      exact counts.closings ▸ ledger.closed
    · exact counts.closings ▸ ledger.positive
  · -- The turn uncounts connection `k`, so the set of counted ones and the counter both drop.
    have mine : k ∈ w.counted :=
      mem_counted.mpr ⟨(ledger.known k).mp (by simp [found]), by simpa [found] using before⟩
    have some : 0 < w.sh.metrics.activeConnections.toNat := by
      rw [ledger.active]
      exact Finset.card_pos.mpr ⟨k, mine⟩
    have less := toNat_metricsConnectionClosed some
    have frame := metricsConnectionClosed_frame (m := w.sh.metrics)
    have set : (w.put k l).counted = w.counted.erase k := counted_put_of_false after
    have fresh : k ∉ w.sh.closings.map Prod.fst := fun old => ((ledger.closed k).mp old).2 mine
    have active : (w.put k l).sh.metrics.activeConnections.toNat + 1 =
        w.sh.metrics.activeConnections.toNat := by
      rw [← less]
      exact congrArg (fun n => UInt64.toNat n + 1) counts.active
    have maxActive : (w.put k l).sh.metrics.maxActiveConnections =
        w.sh.metrics.maxActiveConnections := counts.maxActive.trans frame.1
    have closings : (w.put k l).sh.closings =
        (k, w.sh.metrics.activeConnections) :: w.sh.closings := counts.closings
    refine ⟨known, tracked, ?_, counts.historical.trans (frame.2.trans ledger.historical),
      ?_, ?_, ?_, ?_, ?_⟩
    · rw [set, Finset.card_erase_of_mem mine, ← ledger.active]
      omega
    · rw [maxActive]
      have topped := ledger.topped
      omega
    · rw [maxActive]
      exact ledger.peak
    · rw [closings, List.map_cons]
      exact List.nodup_cons.mpr ⟨fresh, ledger.once⟩
    · intro other
      rw [closings, List.map_cons, List.mem_cons, ledger.closed other, set, Finset.mem_erase]
      have member := mem_counted.mp mine
      constructor
      · rintro (rfl | ⟨old, absent⟩)
        · exact ⟨member.1, fun both => both.1 rfl⟩
        · exact ⟨old, fun both => absent both.2⟩
      · rintro ⟨old, outside⟩
        by_cases same : other = k
        · exact .inl same
        · exact .inr ⟨old, fun inside => outside ⟨same, inside⟩⟩
    · rw [closings]
      intro closing listed
      rcases List.mem_cons.mp listed with rfl | older
      · exact some
      · exact ledger.positive closing older

theorem Ledger.serves (ledger : w.Ledger) (serves : Serves w w') : w'.Ledger := by
  cases serves with
  | turn found turn => exact ledger.turn found turn
  | idle idle _ => exact ledger.idle idle

theorem Ledger.admits (ledger : w.Ledger) (admits : Admits w w') : w'.Ledger := by
  cases admits with
  | idle idle _ => exact ledger.idle idle
  | @accept sh' client size now below same =>
      have vacant : w.heap w.nextId = none := by
        simpa using (ledger.known w.nextId).not.mpr (Nat.lt_irrefl _)
      have limit : w.sh.config.maxConnections.toNat < 2 ^ 32 := UInt32.toNat_lt _
      have opened : sh'.metrics = metricsConnectionOpened w.sh.metrics := same.metrics
      have active := toNat_metricsConnectionOpened (m := w.sh.metrics) (by omega)
      have peak := max_metricsConnectionOpened (m := w.sh.metrics)
      have outside : w.nextId ∉ w.counted := fun member =>
        Nat.lt_irrefl _ (mem_counted.mp member).1
      have set : ({ w with
            heap := Function.update w.heap w.nextId (some (.live (newConn client size now)))
            nextId := w.nextId + 1
            sh := sh' } : World).counted = insert w.nextId w.counted := by
        ext other
        simp only [mem_counted, Finset.mem_insert]
        by_cases mine : other = w.nextId
        · subst mine
          simp [Cell.counted, Cell.conn, newConn]
        · have order : other < w.nextId + 1 ↔ other < w.nextId :=
            ⟨fun less => Nat.lt_of_le_of_ne (Nat.lt_succ_iff.mp less) mine, Nat.lt_succ_of_lt⟩
          simp [mine, order]
      have few : w.counted.card ≤ w.nextId := by
        simpa [counted] using Finset.card_filter_le (Finset.range w.nextId)
          fun k => (w.heap k).any Cell.counted = true
      refine ⟨fun other => ?_, fun other cell' now => ?_, ?_, ?_, ?_, ?_, ?_, ?_, ?_⟩
      · by_cases mine : other = w.nextId
        · subst mine
          simp
        · simp only [Function.update_of_ne mine, ledger.known other]
          exact ⟨Nat.lt_succ_of_lt, fun less => Nat.lt_of_le_of_ne (Nat.lt_succ_iff.mp less) mine⟩
      · by_cases mine : other = w.nextId
        · subst mine
          simp only [Function.update_self, Option.some.injEq] at now
          exact now ▸ Or.inl rfl
        · simp only [Function.update_of_ne mine] at now
          exact ledger.tracked other cell' now
      · rw [set, Finset.card_insert_of_notMem outside, ← ledger.active]
        exact (congrArg (fun m => m.activeConnections.toNat) opened).trans active
      · simp only [opened, historical_metricsConnectionOpened, ledger.historical]
        exact (UInt64.ofNat_add _ _).symm
      · simp only [opened, peak]
        exact le_max_right _ _
      · simp only [opened, peak, active]
        refine max_le (Nat.le_succ_of_le ledger.peak) ?_
        rw [ledger.active]
        exact Nat.succ_le_succ few
      · simp only [same.closings]
        exact ledger.once
      · intro other
        rw [set, Finset.mem_insert]
        simp only [same.closings, ledger.closed other]
        constructor
        · rintro ⟨old, absent⟩
          refine ⟨Nat.lt_succ_of_lt old, ?_⟩
          rintro (rfl | member)
          · exact Nat.lt_irrefl _ old
          · exact absent member
        · rintro ⟨less, absent⟩
          have older : other ≠ w.nextId := fun same => absent (.inl same)
          exact ⟨Nat.lt_of_le_of_ne (Nat.lt_succ_iff.mp less) older, fun member =>
            absent (.inr member)⟩
      · simp only [same.closings]
        exact ledger.positive

theorem Ledger.mode (ledger : w.Ledger) (mode : Mode) : { w with mode }.Ledger :=
  ⟨ledger.known, ledger.tracked, ledger.active, ledger.historical, ledger.topped, ledger.peak,
    ledger.once, ledger.closed, ledger.positive⟩

theorem Ledger.served (ledger : w.Ledger) (serves : Relation.ReflTransGen Serves w w') :
    w'.Ledger := by
  induction serves with
  | refl => exact ledger
  | tail _ serves ih => exact ih.serves serves

theorem Ledger.admitted (ledger : w.Ledger) (admits : Relation.ReflTransGen Admits w w') :
    w'.Ledger := by
  induction admits with
  | refl => exact ledger
  | tail _ admits ih => exact ih.admits admits

theorem Ledger.moves (ledger : w.Ledger) {event : Event} (moves : Moves event w w') :
    w'.Ledger := by
  cases moves with
  | serve serves => exact ledger.served serves
  | accept admits => exact ledger.admitted admits
  | admin command _ => exact ledger.idle (idle_applyAdmin w command)
  | shutdown mode before after => exact ((ledger.served before).mode mode).served after

/-! ## The highest count -/

/-- Serving connections never raises the count. -/
theorem Ledger.falls (ledger : w.Ledger) (serves : Relation.ReflTransGen Serves w w') :
    w'.sh.metrics.maxActiveConnections = w.sh.metrics.maxActiveConnections ∧
      w'.sh.metrics.activeConnections.toNat ≤ w.sh.metrics.activeConnections.toNat := by
  induction serves with
  | refl => exact ⟨rfl, Nat.le_refl _⟩
  | @tail middle last before serves ih =>
      rcases ih with ⟨same, less⟩
      have reached := ledger.served before
      cases serves with
      | idle idle _ => exact ⟨idle.metrics ▸ same, idle.metrics ▸ less⟩
      | turn found turn =>
          rcases turn.counts with ⟨-, counts⟩ | ⟨-, -, counts⟩
          · exact ⟨counts.maxActive.trans same, counts.active ▸ less⟩
          · refine ⟨counts.maxActive.trans (metricsConnectionClosed_frame.1.trans same), ?_⟩
            calc (middle.put _ _).sh.metrics.activeConnections.toNat
                = (metricsConnectionClosed middle.sh.metrics).activeConnections.toNat :=
                  congrArg UInt64.toNat counts.active
              _ ≤ middle.sh.metrics.activeConnections.toNat := metricsConnectionClosed_le
              _ ≤ w.sh.metrics.activeConnections.toNat := less

/-- Admissions raise the count, and its maximum with it. -/
theorem Ledger.rises (ledger : w.Ledger) (admits : Relation.ReflTransGen Admits w w') :
    w'.sh.metrics.maxActiveConnections.toNat =
      max w.sh.metrics.maxActiveConnections.toNat w'.sh.metrics.activeConnections.toNat ∧
      w.sh.metrics.activeConnections.toNat ≤ w'.sh.metrics.activeConnections.toNat := by
  induction admits with
  | refl => exact ⟨(max_eq_left ledger.topped).symm, Nat.le_refl _⟩
  | @tail middle last before admits ih =>
      rcases ih with ⟨peak, more⟩
      cases admits with
      | idle idle _ => exact ⟨idle.metrics ▸ peak, idle.metrics ▸ more⟩
      | @accept sh' client size now below same =>
          have limit : middle.sh.config.maxConnections.toNat < 2 ^ 32 := UInt32.toNat_lt _
          have opened : sh'.metrics = metricsConnectionOpened middle.sh.metrics := same.metrics
          have active := toNat_metricsConnectionOpened (m := middle.sh.metrics) (by omega)
          have top := max_metricsConnectionOpened (m := middle.sh.metrics)
          simp only [opened]
          constructor <;> omega

theorem Ledger.tops (ledger : w.Ledger) {event : Event} (moves : Moves event w w') :
    w'.sh.metrics.maxActiveConnections.toNat =
      max w.sh.metrics.maxActiveConnections.toNat w'.sh.metrics.activeConnections.toNat := by
  have topped := ledger.topped
  cases moves with
  | serve serves =>
      rcases ledger.falls serves with ⟨same, less⟩
      rw [same]
      omega
  | accept admits => exact (ledger.rises admits).1
  | admin command _ =>
      have same := (idle_applyAdmin w command).metrics
      rw [same]
      omega
  | shutdown mode before after =>
      rcases ledger.falls before with ⟨same, less⟩
      rcases ((ledger.served before).mode mode).falls after with ⟨same', less'⟩
      rw [same', same]
      exact (max_eq_left (le_trans (le_trans less' less) topped)).symm

/-- The states of a run between its events, the first and the last included. -/
def visited (w : World) : List Event → List World
  | [] => [w]
  | event :: rest =>
      match w.step event with
      | .error _ => [w]
      | .ok w' => w :: w'.visited rest

theorem mem_visited (w : World) (events : List Event) : w ∈ w.visited events := by
  cases events with
  | nil => exact List.mem_singleton.mpr rfl
  | cons event rest =>
      unfold visited
      split <;> simp

/-- Along a run the books are kept, and the maximum covers all counts on the way. -/
theorem Ledger.run {events : List Event} (ledger : w.Ledger) (ran : w.run events = .ok w') :
    w'.Ledger ∧
    w.sh.metrics.maxActiveConnections.toNat ≤ w'.sh.metrics.maxActiveConnections.toNat ∧
    (∀ v ∈ w.visited events,
      v.sh.metrics.activeConnections.toNat ≤ w'.sh.metrics.maxActiveConnections.toNat) ∧
    (w'.sh.metrics.maxActiveConnections.toNat = w.sh.metrics.maxActiveConnections.toNat ∨
      ∃ v ∈ w.visited events,
        v.sh.metrics.activeConnections.toNat = w'.sh.metrics.maxActiveConnections.toNat) := by
  induction events generalizing w with
  | nil =>
      cases ran
      refine ⟨ledger, Nat.le_refl _, fun v member => ?_, .inl rfl⟩
      rw [visited, List.mem_singleton] at member
      exact member ▸ ledger.topped
  | cons event rest ih =>
      rcases run_cons ran with ⟨middle, stepped, ran⟩
      simp only [visited, stepped]
      have moves := step_moves stepped
      have tops := ledger.tops moves
      rcases ih (ledger.moves moves) ran with ⟨last, more, covers, attained⟩
      have grown := Nat.le_trans (le_of_le_of_eq (le_max_left _ _) tops.symm) more
      refine ⟨last, grown, fun v member => ?_, ?_⟩
      · rcases List.mem_cons.mp member with rfl | later
        · exact Nat.le_trans ledger.topped grown
        · exact covers v later
      · rcases attained with same | ⟨v, later, attained⟩
        · rcases max_choice w.sh.metrics.maxActiveConnections.toNat
            middle.sh.metrics.activeConnections.toNat with old | new
          · exact .inl (same.trans (tops.trans old))
          · exact .inr ⟨middle, List.mem_cons_of_mem _ (mem_visited middle rest),
              (same.trans (tops.trans new)).symm⟩
        · exact .inr ⟨v, List.mem_cons_of_mem _ later, attained⟩

/-! ## Connections on the list -/

/-- Freeing a connection does not touch it while it lives. -/
theorem wlp_socks5ConnFreeIfUnreferenced {sh : Shared} :
    wlp socks5ConnFreeIfUnreferenced (fun _ l => ∀ c, l.cell = .live c → cell = .live c)
      ⟨k, cell, sh⟩ := by
  simp only [socks5ConnFreeIfUnreferenced, onPool, wlp_bind, wlp_get, wlp_focus]
  intro slot pool _
  rw [wlp_ite]
  split
  · exact (wlp_pure ..).mpr fun c live => live
  · rw [wlp_bind]
    intro _ l _
    rw [wlp_bind]
    intro _ l' _
    rw [wlp_bind]
    intro c l'' _
    rw [wlp_modify]
    intro c' live
    cases live

theorem live_of_freeUnreferenced {owners : List ConnId} {c : Conn}
    (ran : freeUnreferenced owners w = .ok w') (live : w'.heap k = some (.live c)) :
    w.heap k = some (.live c) := by
  induction owners generalizing w with
  | nil =>
      cases ran
      exact live
  | cons owner rest ih =>
      simp only [freeUnreferenced, onConn] at ran
      split at ran
      · cases ran
      · next middle handled =>
          split at handled
          · cases handled
          · next cell found =>
              split at handled
              · cases handled
              · next l freed =>
                  cases handled
                  have before := ih ran
                  by_cases mine : k = owner
                  · subst mine
                    simp only [Function.update_self, Option.some.injEq] at before
                    rw [found, wlp_socks5ConnFreeIfUnreferenced _ _ freed c before]
                  · simpa [mine] using before

/-- Once the process stops serving, its connections are left as they are or freed. -/
theorem live_of_step {event : Event} {c : Conn} (stepped : w.step event = .ok w')
    (stopped : w'.mode = .stopped) (live : w'.heap k = some (.live c)) :
    w.heap k = some (.live c) := by
  -- Serving goes on only in a process that runs.
  have served : w.mode = .running → Relation.ReflTransGen Serves w w' →
      w.heap k = some (.live c) := by
    intro running serves
    rw [mode_of_serves serves, running] at stopped
    cases stopped
  cases steps_of_step stepped with
  | read env running ran =>
      rcases moves_dispatchRead ran with serves | admits
      · exact served running (serves_withEnv serves)
      · rw [mode_of_admits admits] at stopped
        exact absurd (running.symm.trans stopped) (by decide)
  | write env running ran => exact served running (serves_withEnv (serves_dispatchWrite ran))
  | block running ran => exact served running (serves_handleBlockNotifications ran)
  | reap running ran => exact served running (serves_reapIdle ran)
  | idle | worker | settle | admin | foreign | stopBegin => exact live
  | stopJoined pool joining freed =>
      have before := live_of_freeUnreferenced freed live
      exact before
  | destroy => cases stopped

/-- Every live connection still has its client. -/
def Attended (w : World) : Prop :=
  ∀ k c, w.heap k = some (.live c) → c.clientFd.isSome = true

theorem attended_step {event : Event} (ok : w.Ok False) (attended : w.Attended)
    (stepped : w.step event = .ok w') : w'.Attended := by
  rcases step_ok ok event False.elim with ⟨same, stepped', ⟨view, inv⟩, -⟩
  obtain rfl : w' = same := by simpa [stepped] using stepped'
  intro k c live
  rcases inv.resting live with ⟨e, -, rest⟩
  cases mode : w'.mode with
  | running | joining =>
      rw [mode] at rest
      rw [rest.fits.clientFd, Option.isSome_map]
      exact rest.fits.present
  | stopped => exact attended k c (live_of_step stepped mode live)
  | destroyed =>
      rw [mode] at rest
      exact rest.elim

theorem attended_run {events : List Event} (ok : w.Ok False) (attended : w.Attended)
    (ran : w.run events = .ok w') : w'.Attended := by
  induction events generalizing w with
  | nil =>
      cases ran
      exact attended
  | cons event rest ih =>
      rcases run_cons ran with ⟨middle, stepped, ran⟩
      rcases step_ok ok event False.elim with ⟨same, stepped', ok', -⟩
      obtain rfl : middle = same := by simpa [stepped] using stepped'
      exact ih ok' (attended_step ok attended stepped) ran

/-- Between events a connection is counted exactly while it lives. -/
theorem Ledger.mem_counted_iff (ledger : w.Ledger) (attended : w.Attended) :
    k ∈ w.counted ↔ ∃ c, w.heap k = some (.live c) := by
  rw [mem_counted]
  constructor
  · rintro ⟨-, active⟩
    rcases (Option.any_eq_true _ _).mp active with ⟨cell, found, counted⟩
    cases cell with
    | live c => exact ⟨c, found⟩
    | freed c references => exact absurd (counted.symm.trans (ledger.tracked k _ found)) (by decide)
  · rintro ⟨c, live⟩
    refine ⟨(ledger.known k).mp (by simp [live]), ?_⟩
    have present := attended k c live
    rcases ledger.tracked k _ live with counted | gone
    · rw [live, Option.any_some]
      exact counted
    · simp [gone] at present

/-- The counters in every run. The active connections are those on the list; the historical ones
are all that ever were on it, in the arithmetic of the counter; the maximum is the highest of the
counts so far; `metrics_connection_closed` is called once for every connection that was freed, for
no other, and never when the count is zero. No connection is admitted at or above the limit, and a
new limit closes nothing. -/
theorem connection_counters {users : Users} {log : AccessLog} {now : Int} {calendar : CalendarTime}
    {events : List Event} (ran : (initial users log now calendar).run events = .ok w) :
    (∃ order : List ConnId, order.Nodup ∧ Chain w.sh.list.next w.sh.list.head order ∧
      w.sh.metrics.activeConnections.toNat = order.length) ∧
    (∀ k, (w.heap k).isSome ↔ k < w.nextId) ∧
    w.sh.metrics.historicalConnections = UInt64.ofNat w.nextId ∧
    IsGreatest
      { n | ∃ v ∈ (initial users log now calendar).visited events,
        v.sh.metrics.activeConnections.toNat = n }
      w.sh.metrics.maxActiveConnections.toNat ∧
    w.sh.metrics.activeConnections ≤ w.sh.metrics.maxActiveConnections ∧
    (w.nextId < 2 ^ 64 →
      w.sh.metrics.maxActiveConnections ≤ w.sh.metrics.historicalConnections) ∧
    (w.sh.closings.map Prod.fst).Nodup ∧
    (∀ k, k ∈ w.sh.closings.map Prod.fst ↔
      ∃ c references, w.heap k = some (.freed c references)) ∧
    (∀ closing ∈ w.sh.closings, closing.2 ≠ 0) ∧
    (∀ client answer l l', acceptClient client answer l = .ok (true, l') →
      l.sh.metrics.activeConnections.toNat < l.sh.config.maxConnections.toNat) ∧
    ∀ v w', w.step (.admin (.setMaxConnections v)) = .ok w' →
      w'.heap = w.heap ∧ w'.sh.list = w.sh.list ∧ w'.sh.metrics = w.sh.metrics := by
  have initially : (initial users log now calendar).Ok False := ok_initial users log now calendar
  have attended : w.Attended := attended_run initially (by simp [Attended, initial]) ran
  rcases (ledger_initial users log now calendar).run ran with ⟨ledger, -, covers, attained⟩
  have reachable : w.Reachable := ⟨users, log, now, calendar, events, ran⟩
  rcases reachable.ok with ⟨view, inv⟩
  have counted : ∀ k, k ∈ w.counted ↔ ∃ c, w.heap k = some (.live c) :=
    fun k => ledger.mem_counted_iff attended
  refine ⟨?_, ledger.known, ledger.historical, ⟨?_, ?_⟩, UInt64.le_iff_toNat_le.mpr ledger.topped,
    fun room => ?_, ledger.once, fun k => ?_, fun closing member => ?_, fun client answer l l' =>
      ?_,
    fun v w' stepped => ?_⟩
  · rcases inv.listed_live with ⟨order, nodup, chain, -, members⟩
    refine ⟨order, nodup, chain, ?_⟩
    rw [ledger.active, ← List.toFinset_card_of_nodup nodup]
    congr 1
    ext k
    rw [counted k, List.mem_toFinset, members k]
  · rcases attained with zero | attained
    · refine ⟨initial users log now calendar, mem_visited _ events, ?_⟩
      rw [zero]
      rfl
    · exact attained
  · rintro _ ⟨v, member, rfl⟩
    exact covers v member
  · rw [UInt64.le_iff_toNat_le, ledger.historical, UInt64.toNat_ofNat_of_lt' room]
    exact ledger.peak
  · rw [ledger.closed k, counted k, ← ledger.known k]
    constructor
    · rintro ⟨known, dead⟩
      rcases Option.isSome_iff_exists.mp known with ⟨⟨c⟩ | ⟨c, references⟩, found⟩
      · exact absurd ⟨c, found⟩ dead
      · exact ⟨c, references, found⟩
    · rintro ⟨c, references, found⟩
      exact ⟨by simp [found], by simp [found]⟩
  · intro zero
    simpa [zero] using ledger.positive closing member
  · rcases l with ⟨id, cell, sh⟩
    intro accepted
    have outcome := wlp_acceptClient (show anyFd client from trivial) true l' accepted
    exact (outcome.admitted rfl).1
  · cases stepped
    split <;> exact ⟨rfl, rfl, rfl⟩

/-- A connection that is accepted is the only one on the list. -/
theorem connection_counters_in_conversation :
    ∃ w, unprotected.run (arrival ++ request) = .ok w ∧ w.sh.metrics.activeConnections = 1 ∧
      ∃ order : List ConnId, order.Nodup ∧ Chain w.sh.list.next w.sh.list.head order ∧
        w.sh.metrics.activeConnections.toNat = order.length := by
  have active : endsWith (arrival ++ request)
      (fun w => w.sh.metrics.activeConnections = 1) = true := by decide +kernel
  rcases run_of_endsWith active with ⟨w, ran, one⟩
  exact ⟨w, ran, of_decide_eq_true one, (connection_counters ran).1⟩

end

end World

end SocksProxy
