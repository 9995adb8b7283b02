import SocksProxy.Safety.Primitives

/-!
# Teardown

Closing the ends of a connection and freeing it. A connection is freed exactly
when nothing refers to it any more: its last end is closed and no job of the
resolver is left. Nothing touches it afterwards.
-/

namespace SocksProxy

open Prog

variable {id : ConnId} {c : Conn} {cell : Cell} {sh : Shared} {view : View} {e : Ends}

theorem wp_connMarkInactive {post : Unit → Local → Prop}
    (next : ∀ counted metrics closings,
      post () ⟨id, .live { c with activeCounted := counted }, { sh with metrics, closings }⟩) :
    wp connMarkInactive post ⟨id, .live c, sh⟩ := by
  simp only [connMarkInactive, wp_bind, wp_getConn, wp_ite, wp_modifyConn, wp_get, wp_modifyShared,
    wp_pure]
  split
  · exact next _ _ _
  · exact next c.activeCounted sh.metrics sh.closings

theorem wp_requireAlive {other : Option ConnId} {post : Unit → Local → Prop}
    (slots : Slots view sh.pool) (alive : ∀ k, other = some k → (view k).isSome)
    (next : post () ⟨id, cell, sh⟩) : wp (requireAlive other) post ⟨id, cell, sh⟩ := by
  cases other with
  | none => simpa [requireAlive] using next
  | some k =>
      rcases Option.isSome_iff_exists.mp (alive k rfl) with ⟨e, mine⟩
      rcases slots.exists_slot mine with ⟨s, present, -⟩
      simp only [requireAlive, wp_onPool, wp_bind, Pool.wp_slot, wp_pure]
      exact ⟨s, present, next⟩

theorem wp_socks5ConnFreeIfUnreferenced {post : Unit → Local → Prop}
    (slots : Slots (Function.update view id (some e)) sh.pool)
    (listed : Listed (Function.update view id (some e)) sh.list)
    (kept : 0 < e.count → post () ⟨id, .live c, sh⟩)
    (freed : e.count = 0 → ∀ counted metrics closings,
      post () ⟨id, .freed { c with activeCounted := counted } 0,
        { sh with
          metrics
          closings
          list := sh.list.remove id
          pool := { sh.pool with slots := Function.update sh.pool.slots id none } }⟩) :
    wp socks5ConnFreeIfUnreferenced post ⟨id, .live c, sh⟩ := by
  have mine : (Function.update view id (some e)) id = some e := Function.update_self ..
  rcases slots.exists_slot mine with ⟨s, present, references, -⟩
  have neighbours := listed.neighbours (k := id) (by simp)
  simp only [socks5ConnFreeIfUnreferenced, wp_bind, wp_get, wp_onPool, Pool.wp_slot, wp_ite,
    wp_pure]
  refine ⟨s, present, ?_⟩
  split
  · next positive => exact kept (references ▸ positive)
  · next unreferenced =>
      have zero : e.count = 0 := by
        have nonneg := e.count_nonneg
        omega
      refine wp_connMarkInactive fun counted metrics closings => ?_
      simp only [connListRemove, wp_bind, wp_get]
      refine wp_requireAlive slots neighbours.1 ?_
      rw [wp_bind]
      refine wp_requireAlive slots neighbours.2 ?_
      simp only [wp_modifyShared, wp_bind, wp_getConn, wp_modify, references, zero]
      exact freed zero counted metrics closings

/-- `socks5_retry_accept` arms the paused listener, which is no descriptor of a connection. -/
theorem wp_socks5RetryAccept {ends : ConnId → Side → Option End} {loose : Option (Fd × Socket)}
    {kern : Kernel} {post : Unit → Local → Prop}
    (table : Table ends loose sh.sel.items kern sh.acceptPausedFd)
    (next : ∀ sel paused, Table ends loose sel.items kern paused →
      post () ⟨id, cell, { sh with sel, acceptPausedFd := paused }⟩) :
    wp socks5RetryAccept post ⟨id, cell, sh⟩ := by
  have unchanged : post () ⟨id, cell, sh⟩ := next sh.sel sh.acceptPausedFd table
  simp only [socks5RetryAccept, wp_bind, wp_get]
  cases paused : sh.acceptPausedFd with
  | none => simpa using unchanged
  | some fd =>
      simp only [wp_bind, selectorSetInterest, wp_get]
      cases armed : sh.sel.setInterest fd OP_READ with
      | none => simpa using unchanged
      | some sel =>
          simp only [wp_bind, wp_modifyShared, wp_pure, if_true]
          refine next sel none ?_
          unfold Selector.setInterest at armed
          split at armed
          · cases armed
          · cases found : sh.sel.items fd with
            | none => simp [found] at armed
            | some item =>
                simp only [found, Option.some.injEq] at armed
                rw [← armed]
                have other := table.isConn_eq_false (table.resumable fd paused) found
                exact (table.armElsewhere found other OP_READ).pause (by simp)

/-- The descriptor fields after `socks5_close`. -/
def Conn.closeFd (c : Conn) (fd : Fd) : Conn :=
  if c.clientFd = some fd then { c with clientFd := none }
  else if c.originFd = some fd then { c with originFd := none }
  else c

/-- What a connection holds once the end on `side` is closed. -/
def Ends.close (e : Ends) (side : Side) (job : Bool) : Ends := { e.put side none with job }

theorem Ends.get_close (e : Ends) (side : Side) (job : Bool) :
    (e.close side job).get = (e.put side none).get := by
  funext other
  cases side <;> cases other <;> rfl

theorem Slots.setJob {pool pool' : Pool} {job : Bool} {s : Slot}
    (slots : Slots (Function.update view id (some e)) pool) (ok : pool'.Ok)
    (others : Pool.OthersKept id pool pool') (mine : pool'.slots id = some s)
    (references : s.references = ({ e with job } : Ends).count)
    (held : s.resolverJob.isSome = job) :
    Slots (Function.update view id (some { e with job })) pool' := by
  have changed := slots.change ok others mine references held
  rwa [Function.update_idem] at changed

theorem Ends.count_setJob (e : Ends) (job : Bool) :
    ({ e with job } : Ends).count =
      e.count - (if e.job then 1 else 0) + if job then 1 else 0 := by
  rcases e with ⟨_ | _, _ | _, _ | _⟩ <;> cases job <;> rfl

theorem Slots.release {pool pool' : Pool} {s : Slot}
    (slots : Slots (Function.update view id (some e)) pool) (present : pool.slots id = some s)
    (ok : pool'.Ok) (others : Pool.OthersKept id pool pool')
    (mine : pool'.slots id = some (Pool.releasedSlot s)) :
    Slots (Function.update view id (some { e with job := false })) pool' := by
  rcases slots.exists_slot (Function.update_self ..) with ⟨s', present', references, job⟩
  obtain rfl : s = s' := by simpa [present] using present'
  refine slots.setJob ok others mine ?_ ?_
  · rw [Ends.count_setJob]
    cases owns : s.resolverJob <;> simp_all [Pool.releasedSlot]
  · cases owns : s.resolverJob <;> simp_all [Pool.releasedSlot]

/-- The pool part of `socks5_close`: the last end cancels the job, another one takes a completed
one. -/
theorem wp_closeJob {last : Prop} [Decidable last] {rest : M Unit} {post : Unit → Local → Prop}
    (slots : Slots (Function.update view id (some e)) sh.pool)
    (next : ∀ job pool jobs env counted metrics closings, (job = true → e.job = true) →
      (last → job = false) → Slots (Function.update view id (some { e with job })) pool →
      wp rest post ⟨id, .live { c with activeCounted := counted },
        { sh.afterWorkers pool jobs env with metrics, closings }⟩) :
    wp (if last then do
          connMarkInactive
          locked (socks5ResolverCancelConn id)
          rest
        else do
          let _ ← locked (socks5ResolverTakeCompleted id)
          rest) post ⟨id, .live c, sh⟩ := by
  rw [wp_ite]
  split
  · next isLast =>
      rw [wp_bind]
      refine wp_connMarkInactive fun counted metrics closings => ?_
      rw [wp_bind]
      refine wp_locked slots fun pool jobs env kept => ?_
      rcases kept.exists_slot (Function.update_self ..) with ⟨s, present, -⟩
      refine wp_mono (Pool.wp_socks5ResolverCancelConn kept.ok present) ?_
      rintro _ pool' ⟨ok, others, mine⟩
      exact next false pool' jobs env counted metrics closings (by simp) (by simp)
        (kept.release present ok others mine)
  · next notLast =>
      rw [wp_bind]
      refine wp_locked slots fun pool jobs env kept => ?_
      rcases kept.exists_slot (Function.update_self ..) with ⟨s, present, references, job⟩
      refine wp_mono (Pool.wp_socks5ResolverTakeCompleted kept.ok present) ?_
      rintro _ pool' ⟨ok, others, -, mine⟩
      by_cases finished : s.resolverDone = true
      · rw [finished, if_pos rfl] at mine
        exact next false pool' jobs env c.activeCounted sh.metrics sh.closings (by simp) (by simp)
          (kept.release present ok others mine)
      · rw [if_neg finished] at mine
        exact next e.job pool' jobs env c.activeCounted sh.metrics sh.closings (fun held => held)
          (fun isLast => absurd isLast notLast) (kept.setJob ok others mine references job)

/-- `selector_unregister_fd` on an end of the connection closes it, and frees the connection if
nothing refers to it any more. -/
theorem wp_selectorUnregisterFd (side : Side) {a : End} {post : Unit → Local → Prop}
    (sound : sh.Sound (Function.update view id (some e)) none) (has : e.get side = some a)
    (kept : ∀ job counted sh', (job = true → e.job = true) →
      ((c.closeFd a.fd).clientFd = none ∧ (c.closeFd a.fd).originFd = none → job = false) →
      0 < (e.close side job).count →
      Shared.Sound (Function.update view id (some (e.close side job))) none sh' →
      post () ⟨id, .live { c.closeFd a.fd with activeCounted := counted }, sh'⟩)
    (freed : ∀ job counted sh', (e.close side job).count = 0 →
      Shared.Sound (Function.update view id none) none sh' →
      post () ⟨id, .freed { c.closeFd a.fd with activeCounted := counted } 0, sh'⟩) :
    wp (selectorUnregisterFd a.fd) post ⟨id, .live c, sh⟩ := by
  have mine : (Function.update view id (some e)) id = some e := Function.update_self ..
  have held : View.ends (Function.update view id (some e)) id side = some a := by
    simp [View.ends, has]
  rcases sound.table.registered id side a held with ⟨item, socket⟩
  have small : a.fd < FD_SETSIZE := sound.table.range a.fd (by simp [item])
  rcases sound.slots.exists_slot mine with ⟨s, present, references, -⟩
  have closed : (e.put side none).count = e.count + -1 := by
    rw [Ends.count_put, has]
    simp only [Option.isSome_some, if_true, Option.isSome_none, Bool.false_eq_true, if_false]
    omega
  have referred := sound.slots.refer mine present closed (e.job_put side none)
  rw [Function.update_idem] at referred
  simp only [selectorUnregisterFd, wp_bind, wp_get, Nat.not_le.mpr small, if_false, item, if_true,
    socks5Close, wp_getConn, closeFd, socket, wp_modifyShared, wp_modifyConn, addReferences,
    wp_onPool, Pool.wp_modifySlot]
  refine ⟨s, present, ?_⟩
  -- `socks5_close` cancels the job only when no descriptor is left.
  refine wp_closeJob referred fun job pool jobs env counted metrics closings older last slots => ?_
  have sameEnds : View.ends (Function.update view id (some (e.close side job))) =
      setEnd (View.ends (Function.update view id (some e))) id side none := by
    rw [← View.ends_put mine, Function.update_idem]
    funext k other
    by_cases same : k = id
    · subst same
      simp [View.ends, e.get_close]
    · simp [View.ends, same]
  have listed : Listed (Function.update view id (some (e.close side job))) sh.list := by
    have kept : Listed (Function.update (Function.update view id (some e)) id
        (some (e.close side job))) sh.list := sound.listed.update mine
    rwa [Function.update_idem] at kept
  rw [wp_bind]
  refine wp_socks5ConnFreeIfUnreferenced slots listed ?_ ?_
  · intro positive
    refine wp_socks5RetryAccept sound.table fun sel paused table => ?_
    rw [wp_modifyShared]
    refine kept job counted _ (by simpa using older) last positive
      ⟨?_, slots, listed, sound.sizes⟩
    rw [sameEnds]
    exact table.retire held
  · intro zero counted' metrics' closings'
    refine wp_socks5RetryAccept sound.table fun sel paused table => ?_
    rw [wp_modifyShared]
    have idle : (e.close side job).job = false ∧ ∀ other, (e.close side job).get other = none :=
      Ends.of_count_eq_zero zero
    refine freed job counted' _ zero ⟨?_, ?_, ?_, sound.sizes⟩
    · have closed : (Function.update view id (some (e.close side job))) id =
          some (e.close side job) := Function.update_self ..
      have unheld := View.ends_remove closed idle.2
      rw [Function.update_idem, sameEnds] at unheld
      rw [unheld]
      exact table.retire held
    · have free := slots.free (Function.update_self ..) idle.1
      rwa [Function.update_idem] at free
    · have unlisted := listed.remove (k := id) (by simp)
      rwa [Function.update_idem] at unlisted

theorem wp_socks5Done {post : Unit → Local → Prop}
    (sound : sh.Sound (Function.update view id (some e)) none) {a : End}
    (client : e.client = some a) (clientFd : c.clientFd = some a.fd)
    (originFd : c.originFd = e.origin.map End.fd)
    (freed : ∀ counted sh', Shared.Sound (Function.update view id none) none sh' →
      post () ⟨id, .freed
        { c with clientFd := none, originFd := none, activeCounted := counted } 0, sh'⟩) :
    wp socks5Done post ⟨id, .live c, sh⟩ := by
  -- Once the origin is closed, closing the client frees the connection.
  have closeClient : ∀ (e' : Ends) (counted : Bool) (sh' : Shared), e'.client = some a →
      e'.origin = none → Shared.Sound (Function.update view id (some e')) none sh' →
      wp (selectorUnregisterFd a.fd) post
        ⟨id, .live { c with clientFd := none, originFd := none, activeCounted := counted },
          sh'⟩ := by
    intro e' counted sh' mine alone sound'
    refine wp_selectorUnregisterFd .client sound' mine ?_ ?_
    · intro job counted' sh'' older last positive sound''
      obtain rfl : job = false := last ⟨rfl, rfl⟩
      simp [Ends.close, Ends.put, Ends.count, alone] at positive
    · intro job counted' sh'' zero sound''
      exact freed counted' sh'' sound''
  simp only [socks5Done, wp_bind, wp_getConn, wp_modifyConn, clientFd, originFd]
  cases origin : e.origin with
  | none => simpa using closeClient e c.activeCounted sh client origin sound
  | some b =>
      simp only [Option.map_some, wp_bind]
      refine wp_selectorUnregisterFd .origin sound origin ?_ ?_
      · intro job counted sh' older last positive sound'
        exact closeClient (e.close .origin job) counted sh' client rfl sound'
      · intro job counted sh' zero sound'
        simp [Ends.close, Ends.put, Ends.count, client] at zero
        split at zero <;> simp at zero

/-- `selector_unregister_fd` on the origin of a connection that keeps its client. -/
theorem wp_dropOrigin {post : Unit → Local → Prop}
    (sound : sh.Sound (Function.update view id (some e)) none) {a b : End}
    (client : e.client = some a) (origin : e.origin = some b) (idle : e.job = false)
    (clientFd : c.clientFd = some a.fd) (originFd : c.originFd = none ∨ c.originFd = some b.fd)
    (next : ∀ counted sh',
      Shared.Sound (Function.update view id (some { e with origin := none })) none sh' →
      post () ⟨id, .live { c with originFd := none, activeCounted := counted }, sh'⟩) :
    wp (selectorUnregisterFd b.fd) post ⟨id, .live c, sh⟩ := by
  have apart : a.fd ≠ b.fd := by
    intro same
    have clash := sound.table.distinct id .client a .origin b
      (by simp [View.ends, Ends.get, client]) (by simp [View.ends, Ends.get, origin]) same
    cases clash
  have closed : c.closeFd b.fd = { c with originFd := none } := by
    have notClient : c.clientFd ≠ some b.fd := by simpa [clientFd] using apart
    rw [Conn.closeFd, if_neg notClient]
    rcases originFd with gone | present
    · rw [if_neg (by simp [gone]), ← gone]
    · rw [if_pos present]
  refine wp_selectorUnregisterFd .origin sound origin ?_ ?_
  · intro job counted sh' older last positive sound'
    obtain rfl : job = false := by
      rw [← Bool.not_eq_true]
      exact fun held => by simp [idle] at older; simp [older] at held
    have same : e.close .origin false = { e with origin := none } := by
      simp [Ends.close, Ends.put, idle]
    rw [same] at sound'
    rw [closed]
    exact next counted sh' sound'
  · intro job counted sh' zero sound'
    have held := (Ends.of_count_eq_zero zero).2 .client
    simp [Ends.close, Ends.put, Ends.get, client] at held

end SocksProxy
