import Mathlib.Data.Finset.Card
import Mathlib.Data.Finset.Option
import SocksProxy.Guarantees.Connections

/-!
# What the process keeps track of

The results about the process as a whole, for every run: what refers to each
connection, when it is freed, what the selector waits for on its behalf, and
that no event makes the process fault.
-/

namespace SocksProxy

open History

/-- Whether the selector dispatches `fd` to connection `k`. -/
def Selector.dispatchesTo (sel : Selector) (k : ConnId) (fd : Fd) : Bool :=
  match sel.items fd with
  | some ⟨_, .conn owner⟩ => owner = k
  | _ => false

/-- The number of descriptors registered for connection `k`. -/
def Selector.registeredFor (sel : Selector) (k : ConnId) : Nat :=
  ((Finset.range FD_SETSIZE).filter fun fd => sel.dispatchesTo k fd).card

/-- The interest armed for a descriptor field. -/
def Selector.armed (sel : Selector) (fd : Option Fd) : Option Interest :=
  (fd.bind sel.items).map Item.interest

/-- What the selector must wait for in each state of a connection. -/
def Awaits (sel : Selector) (c : Conn) : Prop :=
  match stmState c with
  | .negRead | .authRead | .reqRead => sel.armed c.clientFd = some OP_READ ∧ c.originFd = none
  | .negWrite | .authWrite => sel.armed c.clientFd = some OP_WRITE ∧ c.originFd = none
  | .reqResolve => sel.armed c.clientFd = some OP_NOOP ∧ c.originFd = none
  | .reqConnecting =>
      sel.armed c.clientFd = some OP_NOOP ∧ sel.armed c.originFd = some OP_WRITE
  | .reqWrite =>
      sel.armed c.clientFd = some OP_WRITE ∧
        (c.originFd = none ∨ sel.armed c.originFd = some OP_NOOP)
  | .relay => (sel.armed c.clientFd).isSome ∧ (sel.armed c.originFd).isSome
  | .done | .error => False

/-- What refers to a live connection: its registered descriptors and its lookup, at least one of
them. Its descriptor fields are registered for it. -/
def Referred (w : World) (k : ConnId) (c : Conn) : Prop :=
  ∃ slot, w.sh.pool.slots k = some slot ∧
    slot.references = w.sh.sel.registeredFor k + (if slot.resolverJob.isSome then 1 else 0) ∧
    1 ≤ slot.references ∧
    ∀ fd, c.clientFd = some fd ∨ c.originFd = some fd → w.sh.sel.dispatchesTo k fd = true

theorem Resting.fds {trusted : Prop} {mode : Mode} {c : Conn} {e : Ends}
    (rest : Resting trusted mode c e) :
    c.clientFd = e.client.map End.fd ∧ c.originFd = e.origin.map End.fd ∧ 0 < e.count := by
  cases mode with
  | running | joining =>
      refine ⟨rest.fits.clientFd, rest.fits.originFd, ?_⟩
      refine lt_of_le_of_ne (Ends.count_nonneg _) fun zero => ?_
      have client : e.client = none := (Ends.of_count_eq_zero zero.symm).2 .client
      simpa [client] using rest.fits.present
  | stopped => exact ⟨rest.clientFd, rest.originFd, rest.referred⟩
  | destroyed => exact rest.elim

namespace World

variable {trusted : Prop} {view : View} {w : World} {k : ConnId} {c : Conn} {e : Ends}

/-- The selector dispatches to a connection exactly from its ends. -/
theorem dispatchesTo_iff (inv : Inv trusted view w) (mine : view k = some e) (fd : Fd) :
    w.sh.sel.dispatchesTo k fd = true ↔
      e.client.map End.fd = some fd ∨ e.origin.map End.fd = some fd := by
  constructor
  · intro dispatched
    unfold Selector.dispatchesTo at dispatched
    split at dispatched
    · next i owner item =>
        obtain rfl : owner = k := of_decide_eq_true dispatched
        simpa [View.ends, mine, Ends.get] using inv.sound.table.owned fd i owner item
    · cases dispatched
  · have registered : ∀ side a, e.get side = some a → w.sh.sel.dispatchesTo k a.fd = true := by
      intro side a has
      have item := (inv.sound.table.registered k side a (by simp [View.ends, mine, has])).1
      simp [Selector.dispatchesTo, item]
    rintro (client | origin)
    · rcases Option.map_eq_some_iff.mp client with ⟨a, has, rfl⟩
      exact registered .client a has
    · rcases Option.map_eq_some_iff.mp origin with ⟨a, has, rfl⟩
      exact registered .origin a has

theorem registeredFor_eq (inv : Inv trusted view w) (mine : view k = some e) :
    w.sh.sel.registeredFor k =
      (if e.client.isSome then 1 else 0) + if e.origin.isSome then 1 else 0 := by
  have small : ∀ side a, e.get side = some a → a.fd < FD_SETSIZE := by
    intro side a has
    have item := (inv.sound.table.registered k side a (by simp [View.ends, mine, has])).1
    exact inv.sound.table.range a.fd (by simp [item])
  have apart : ∀ a b, e.client = some a → e.origin = some b → a.fd ≠ b.fd := by
    intro a b client origin same
    have sides := inv.sound.table.distinct k .client a .origin b
      (by simp [View.ends, mine, Ends.get, client])
      (by simp [View.ends, mine, Ends.get, origin]) same
    cases sides
  have set : (Finset.range FD_SETSIZE).filter (fun fd => w.sh.sel.dispatchesTo k fd) =
      (e.client.map End.fd).toFinset ∪ (e.origin.map End.fd).toFinset := by
    ext fd
    simp only [Finset.mem_filter, Finset.mem_range, dispatchesTo_iff inv mine, Finset.mem_union,
      Option.mem_toFinset, Option.mem_def, and_iff_right_iff_imp]
    rintro (client | origin)
    · rcases Option.map_eq_some_iff.mp client with ⟨a, has, rfl⟩
      exact small .client a has
    · rcases Option.map_eq_some_iff.mp origin with ⟨a, has, rfl⟩
      exact small .origin a has
  unfold Selector.registeredFor
  rw [set]
  cases client : e.client with
  | none => cases origin : e.origin <;> simp
  | some a =>
      cases origin : e.origin with
      | none => simp
      | some b =>
          have ne := apart a b client origin
          simp only [Option.map_some, Option.toFinset_some, Option.isSome_some, if_true]
          rw [Finset.card_union_of_disjoint (by simpa using ne)]
          simp

theorem Inv.referred (inv : Inv trusted view w) (found : w.heap k = some (.live c)) :
    Referred w k c := by
  rcases inv.resting found with ⟨e, mine, rest⟩
  rcases rest.fds with ⟨clientFd, originFd, referred⟩
  rcases inv.sound.slots.exists_slot mine with ⟨slot, present, references, job⟩
  refine ⟨slot, present, ?_, ?_, fun fd held => ?_⟩
  · rw [references, registeredFor_eq inv mine, job]
    rcases e with ⟨_ | a, _ | b, _ | _⟩ <;> rfl
  · rw [references]
    exact referred
  · rw [dispatchesTo_iff inv mine, ← clientFd, ← originFd]
    exact held

theorem Inv.live_iff (inv : Inv trusted view w) :
    (∃ c, w.heap k = some (.live c)) ↔ (view k).isSome := by
  constructor
  · rintro ⟨c, found⟩
    rcases inv.resting found with ⟨e, mine, -⟩
    simp [mine]
  · intro alive
    rcases Option.isSome_iff_exists.mp alive with ⟨e, mine⟩
    rcases inv.live mine with ⟨c, found, -⟩
    exact ⟨c, found⟩

theorem Inv.listed_live (inv : Inv trusted view w) :
    ∃ order : List ConnId, order.Nodup ∧ Chain w.sh.list.next w.sh.list.head order ∧
      BackChain w.sh.list.prev none order ∧ ∀ k, k ∈ order ↔ ∃ c, w.heap k = some (.live c) := by
  rcases inv.sound.listed with ⟨order, forward, backward, -, members⟩
  exact ⟨order, forward.nodup, forward, backward, fun k => (members k).trans inv.live_iff.symm⟩

theorem Inv.owner_of_socket (inv : Inv trusted view w) {fd : Fd} {socket : Socket}
    (isOpen : w.sh.kern.sockets fd = some socket) : ∃ k, (view k).isSome := by
  rcases inv.sound.table.held fd socket isOpen with loose | owned
  · cases loose
  · rcases (Option.any_eq_true _ _).mp owned with ⟨⟨i, owner⟩, item, isConn⟩
    cases owner with
    | conn k =>
        rcases owner_of_item inv.sound item with ⟨e, side, a, mine, -⟩
        exact ⟨k, by simp [mine]⟩
    | listener | other => cases isConn

theorem Inv.destroyed (inv : Inv trusted view w) (destroyed : w.mode = .destroyed) (k : ConnId) :
    view k = none := by
  by_contra alive
  rcases Option.ne_none_iff_exists'.mp alive with ⟨e, mine⟩
  rcases inv.live mine with ⟨c, -, rest⟩
  rw [destroyed] at rest
  exact rest

/-! ## Lifetime -/

/-- The life of a connection and of its descriptors. Every live connection has exactly the
references that are accounted for and is on the list; it is freed with none left. No event faults,
whatever it is, so nothing touches a freed connection and no descriptor is closed twice; freed
connections stay freed; and once the selector is destroyed all connections are freed and all
descriptors closed. -/
theorem connection_lifetime (reachable : w.Reachable) :
    (∀ k c, w.heap k = some (.live c) → Referred w k c) ∧
    (∃ order : List ConnId, order.Nodup ∧ Chain w.sh.list.next w.sh.list.head order ∧
      BackChain w.sh.list.prev none order ∧ ∀ k, k ∈ order ↔ ∃ c, w.heap k = some (.live c)) ∧
    (∀ k c references, w.heap k = some (.freed c references) → references = 0) ∧
    (∀ event, ∃ w', w.step event = .ok w' ∧ Evolves w w') ∧
    (∀ fd, w.sh.kern.opened fd =
      w.sh.kern.closed fd + if (w.sh.kern.sockets fd).isSome then 1 else 0) ∧
    (w.mode = .destroyed →
      (∀ k c, w.heap k ≠ some (.live c)) ∧ ∀ fd, w.sh.kern.opened fd = w.sh.kern.closed fd) := by
  have ok := reachable.ok
  rcases ok with ⟨view, inv⟩
  refine ⟨fun k c => inv.referred, inv.listed_live, fun k c references found => ?_, fun event => ?_,
    inv.sound.table.counted, fun destroyed => ⟨fun k c found => ?_, fun fd => ?_⟩⟩
  · exact (inv.freed found).2.1
  · rcases step_ok ⟨view, inv⟩ event False.elim with ⟨w', stepped, -, evolves⟩
    exact ⟨w', stepped, evolves⟩
  · have alive := inv.live_iff.mp ⟨c, found⟩
    simp [inv.destroyed destroyed k] at alive
  · rw [inv.sound.table.counted fd]
    cases isOpen : w.sh.kern.sockets fd with
    | none => simp
    | some socket =>
        rcases inv.owner_of_socket isOpen with ⟨k, alive⟩
        simp [inv.destroyed destroyed k] at alive

/-- In the relay both descriptors are registered, and nothing is looked up. -/
theorem connection_lifetime_in_conversation :
    ∃ (w : World) (c : Conn), w.Reachable ∧ w.heap 0 = some (.live c) ∧ c.originFd = some 5 ∧
      Referred w 0 c := by
  have live : endsWith (arrival ++ request) (liveTest 0 fun c => c.originFd = some 5) = true := by
    decide +kernel
  rcases exists_of_endsWith live with ⟨w, reachable, passed⟩
  rcases exists_of_liveTest passed with ⟨c, found, connected⟩
  exact ⟨w, c, reachable, found, of_decide_eq_true connected,
    (connection_lifetime reachable).1 0 c found⟩

/-! ## Interests -/

theorem armed_eq (inv : Inv trusted view w) (mine : view k = some e) (side : Side) :
    w.sh.sel.armed ((e.get side).map End.fd) = (e.get side).map End.interest := by
  cases has : e.get side with
  | none => rfl
  | some a =>
      have item := (inv.sound.table.registered k side a (by simp [View.ends, mine, has])).1
      simp [Selector.armed, item]

theorem awaits_of_atRest (inv : Inv trusted view w) (mine : view k = some e)
    (rest : AtRest trusted c e) : Awaits w.sh.sel c := by
  have client : w.sh.sel.armed c.clientFd = e.client.map End.interest := by
    rw [rest.fits.clientFd]
    exact armed_eq inv mine .client
  have origin : w.sh.sel.armed c.originFd = e.origin.map End.interest := by
    rw [rest.fits.originFd]
    exact armed_eq inv mine .origin
  have absent : e.origin = none → c.originFd = none := by
    intro none
    rw [rest.fits.originFd, none, Option.map_none]
  have armed := rest.armed
  unfold Awaits
  rw [client, origin]
  cases phase : stmState c with
  | negRead | authRead | reqRead | negWrite | authWrite | reqResolve =>
      rw [phase] at armed
      exact ⟨armed.1, absent armed.2.1⟩
  | reqConnecting =>
      rw [phase] at armed
      exact ⟨armed.1, armed.2.1⟩
  | reqWrite =>
      rw [phase] at armed
      exact ⟨armed.1, armed.2.1.imp_left absent⟩
  | relay =>
      rw [phase] at armed
      have relays := armed.2
      split at relays
      · refine ⟨?_, by simp [relays.origin]⟩
        simpa using rest.fits.present
      · simp [relays.1, relays.2]
  | done => exact rest.waits.1 phase
  | error => exact rest.waits.2 phase

/-- As long as the process dispatches, every live connection has the interests of its state armed,
and none rests in a final state; and no sequence of events, in whatever order they arrive, makes a
handler abort or return a state that does not exist, or faults in any other way. -/
theorem interests_match_state (reachable : w.Reachable) :
    (w.mode = .running ∨ w.mode = .joining →
      ∀ k c, w.heap k = some (.live c) → Awaits w.sh.sel c) ∧
    ∀ events, ∃ w', w.run events = .ok w' := by
  have ok := reachable.ok
  refine ⟨fun active k c found => ?_, fun events => ?_⟩
  · rcases ok with ⟨view, inv⟩
    rcases inv.resting found with ⟨e, mine, rest⟩
    refine awaits_of_atRest inv mine (show AtRest False c e from ?_)
    rcases active with mode | mode <;> simpa only [mode, Resting] using rest
  · have finishes : ∃ w', w.run events = .ok w' ∧ w'.Ok False ∧ Evolves w w' := run_ok ok False.elim
    rcases finishes with ⟨w', ran, -⟩
    exact ⟨w', ran⟩

theorem interests_match_state_in_conversation :
    ∃ (w : World) (c : Conn), w.Reachable ∧ w.heap 0 = some (.live c) ∧ stmState c = .reqWrite ∧
      Awaits w.sh.sel c := by
  have live : endsWith (arrival ++ request) (fun w => w.mode = .running &&
      liveTest 0 (fun c => stmState c = .reqWrite) w) = true := by
    decide +kernel
  rcases exists_of_endsWith live with ⟨w, reachable, passed⟩
  rcases Bool.and_eq_true _ _ |>.mp passed with ⟨running, tested⟩
  rcases exists_of_liveTest tested with ⟨c, found, state⟩
  exact ⟨w, c, reachable, found, of_decide_eq_true state,
    (interests_match_state reachable).1 (.inl (of_decide_eq_true running)) 0 c found⟩

end World

end SocksProxy
