import SocksProxy.Safety.Shared

/-!
# Rules for the primitives of the handlers

One rule for every primitive operation of the handlers, over a state whose
shared part is sound. The rules hide what the environment answers: a handler
is verified for every sound shared state that can follow.
-/

namespace SocksProxy

open Prog

variable {id : ConnId} {c : Conn} {cell : Cell} {sh : Shared}

@[simp]
theorem wp_getConn {post : Conn → Local → Prop} :
    wp getConn post ⟨id, .live c, sh⟩ ↔ post c ⟨id, .live c, sh⟩ := by
  simp [getConn]

@[simp]
theorem wp_modifyConn {change : Conn → Conn} {post : Unit → Local → Prop} :
    wp (modifyConn change) post ⟨id, .live c, sh⟩ ↔ post () ⟨id, .live (change c), sh⟩ := by
  simp [modifyConn]

/-- A connection with a longer history. -/
@[simps]
def Conn.observed (c : Conn) (what : Obs) : Conn := { c with hist := what :: c.hist }

@[simp]
theorem wp_observe {what : Obs} {post : Unit → Local → Prop} :
    wp (observe what) post ⟨id, .live c, sh⟩ ↔ post () ⟨id, .live (c.observed what), sh⟩ := by
  simp [observe, Conn.observed]

@[simp]
theorem wp_modifyShared {change : Shared → Shared} {post : Unit → Local → Prop} :
    wp (modifyShared change) post ⟨id, cell, sh⟩ ↔ post () ⟨id, cell, change sh⟩ := by
  simp [modifyShared]

@[simp]
theorem wp_onPool {α : Type} {program : PoolM α} {post : α → Local → Prop} :
    wp (onPool program) post ⟨id, cell, sh⟩ ↔
      wp program (fun value pool => post value ⟨id, cell, { sh with pool }⟩) sh.pool := by
  simp [onPool]

section Environment

variable {view : View} {loose : Option (Fd × Socket)}

theorem wp_nextRecv {post : RecvAnswer → Local → Prop} (sound : sh.Sound view loose)
    (next : ∀ answer sh', Shared.Sound view loose sh' → post answer ⟨id, cell, sh'⟩) :
    wp nextRecv post ⟨id, cell, sh⟩ := by
  simp only [nextRecv, wp_bind, wp_get]
  cases sh.env.recvs with
  | nil => simpa using next _ _ sound
  | cons answer later => simpa using next answer _ (sound.env _)

theorem wp_nextSend {post : SendAnswer → Local → Prop} (sound : sh.Sound view loose)
    (next : ∀ answer sh', Shared.Sound view loose sh' → post answer ⟨id, cell, sh'⟩) :
    wp nextSend post ⟨id, cell, sh⟩ := by
  simp only [nextSend, wp_bind, wp_get]
  cases sh.env.sends with
  | nil => simpa using next _ _ sound
  | cons answer later => simpa using next answer _ (sound.env _)

theorem wp_recv {fd : Fd} {space : Nat} {post : RecvResult → Local → Prop} (room : 0 < space)
    (sound : sh.Sound view loose)
    (blocked : ∀ errno sh', wouldBlock errno = true → Shared.Sound view loose sh' →
      post (.failed errno) ⟨id, .live c, sh'⟩)
    (broken : ∀ errno sh', wouldBlock errno = false → Shared.Sound view loose sh' →
      post (.failed errno) ⟨id, .live (c.observed .ioError), sh'⟩)
    (ended : ∀ sh', Shared.Sound view loose sh' →
      post .zero ⟨id, .live (c.observed
        (if c.clientFd = some fd then .clientEof else .originEof)), sh'⟩)
    (data : ∀ bytes sh', bytes ≠ [] → bytes.length ≤ space → Shared.Sound view loose sh' →
      post (.bytes bytes) ⟨id, .live (c.observed
        (if c.clientFd = some fd then .received bytes else .fetched bytes)), sh'⟩) :
    wp (recv fd space) post ⟨id, .live c, sh⟩ := by
  simp only [recv, wp_bind, wp_getConn, Nat.ne_of_gt room, if_false]
  refine wp_nextRecv sound fun answer sh' sound' => ?_
  rcases answer with bytes | errno
  · cases bytes with
    | nil => simpa using ended sh' sound'
    | cons first rest =>
        cases taken : (first :: rest).take space with
        | nil =>
            rw [List.take_eq_nil_iff] at taken
            simp at taken
            omega
        | cons byte others =>
            have short : (byte :: others).length ≤ space := by
              rw [← taken, List.length_take]
              exact Nat.min_le_left _ _
            simpa [taken] using data (byte :: others) sh' (by simp) short sound'
  · simp only [observeError, wp_bind, wp_ite, wp_pure]
    split
    · next blocks => exact blocked errno sh' blocks sound'
    · next breaks => simpa using broken errno sh' (by simpa using breaks) sound'

theorem wp_send {fd : Fd} {pending : List UInt8} {post : SendResult → Local → Prop}
    (sound : sh.Sound view loose)
    (blocked : ∀ errno sh', wouldBlock errno = true → Shared.Sound view loose sh' →
      post (.failed errno) ⟨id, .live c, sh'⟩)
    (broken : ∀ errno sh', wouldBlock errno = false → Shared.Sound view loose sh' →
      post (.failed errno) ⟨id, .live (c.observed .ioError), sh'⟩)
    (stalled : ∀ sh', Shared.Sound view loose sh' →
      post .zero ⟨id, .live (c.observed .stalled), sh'⟩)
    (taken : ∀ bytes rest sh', bytes ≠ [] → pending = bytes ++ rest → Shared.Sound view loose sh' →
      post (.bytes bytes.length) ⟨id, .live (c.observed
        (if c.clientFd = some fd then .sent bytes else .forwarded bytes)), sh'⟩) :
    wp (send (some fd) pending) post ⟨id, .live c, sh⟩ := by
  simp only [send, wp_bind, wp_getConn, reduceCtorEq, if_false]
  refine wp_nextSend sound fun answer sh' sound' => ?_
  rcases answer with n | errno
  · cases portion : pending.take n with
    | nil => simpa [portion] using stalled sh' sound'
    | cons byte others =>
        have split : pending = (byte :: others) ++ pending.drop n := by
          rw [← portion, List.take_append_drop]
        simpa [portion] using taken (byte :: others) _ sh' (by simp) split sound'
  · simp only [observeError, wp_bind, wp_ite, wp_pure]
    split
    · next blocks => exact blocked errno sh' blocks sound'
    · next breaks => simpa using broken errno sh' (by simpa using breaks) sound'

/-- `selector_set_interest` on an end of the connection succeeds. -/
theorem wp_selectorSetInterest (side : Side) {e : Ends} {a : End} {fd : Option Fd}
    {interest : Interest} {post : Bool → Local → Prop}
    (sound : sh.Sound (Function.update view id (some e)) loose) (has : e.get side = some a)
    (known : fd = some a.fd)
    (next : ∀ sh', Shared.Sound
      (Function.update view id (some (e.put side (some { a with interest })))) loose sh' →
      post true ⟨id, cell, sh'⟩) :
    wp (selectorSetInterest fd interest) post ⟨id, cell, sh⟩ := by
  subst known
  have mine : (Function.update view id (some e)) id = some e := Function.update_self ..
  have held : View.ends (Function.update view id (some e)) id side = some a := by
    simp [View.ends, has]
  have item := (sound.table.registered id side a held).1
  have small : a.fd < FD_SETSIZE := sound.table.range a.fd (by simp [item])
  have armed := sound.arm mine has interest
  rw [Function.update_idem] at armed
  simp only [selectorSetInterest, wp_bind, wp_get, Selector.setInterest, Nat.not_le.mpr small,
    if_false, item]
  simpa using next _ armed

end Environment

section Workers

variable {view : View} {loose : Option (Fd × Socket)}

/-- The shared state after resolver threads ran: the pool, the notifications and the answers that
are left may have changed. -/
def Shared.afterWorkers (sh : Shared) (pool : Pool) (jobs : List Fd) (env : Answers) : Shared :=
  { sh with pool, sel := { sh.sel with resolutionJobs := jobs }, env }

theorem wp_workerStep {step : WorkerStep} {post : Unit → Shared → Prop} (slots : Slots view sh.pool)
    (next : ∀ pool jobs, Slots view pool → post () (sh.afterWorkers pool jobs sh.env)) :
    wp (workerStep step) post sh := by
  have unchanged : post () sh := next sh.pool sh.sel.resolutionJobs slots
  have ran : ∀ other : WorkerStep,
      wp (Prog.focus Shared.pool (fun pool sh => { sh with pool }) (resolverWorkerStep other))
        (fun _ sh' => ∃ pool, sh' = sh.afterWorkers pool sh.sel.resolutionJobs sh.env ∧
          Slots view pool) sh := by
    intro other
    rw [wp_focus]
    refine wp_mono (Pool.wp_resolverWorkerStep slots.ok other) ?_
    rintro _ pool ⟨ok, frame⟩
    exact ⟨pool, rfl, slots.worker ok frame⟩
  cases step with
  | pop w =>
      simp only [workerStep, wp_bind, wp_get]
      refine wp_mono (ran (.pop w)) ?_
      rintro _ _ ⟨pool, rfl, kept⟩
      rw [wp_pure]
      exact next pool _ kept
  | finish w answer =>
      simp only [workerStep, wp_bind, wp_get]
      refine wp_mono (ran (.finish w answer)) ?_
      rintro _ _ ⟨pool, rfl, kept⟩
      rw [wp_pure]
      exact next pool _ kept
  | notify w allocated =>
      simp only [workerStep, wp_bind, wp_get, wp_ite, wp_pure]
      split
      · exact unchanged
      · refine wp_mono (ran (.notify w allocated)) ?_
        rintro fd _ ⟨pool, rfl, kept⟩
        cases fd with
        | none => simpa using next pool _ kept
        | some fd =>
            rw [wp_modify]
            exact next pool (fd :: sh.sel.resolutionJobs) kept

theorem wp_workerSteps {steps : List WorkerStep} {post : Unit → Shared → Prop}
    (slots : Slots view sh.pool)
    (next : ∀ pool jobs, Slots view pool → post () (sh.afterWorkers pool jobs sh.env)) :
    wp (workerSteps steps) post sh := by
  induction steps generalizing sh with
  | nil =>
      simp only [workerSteps, wp_pure]
      exact next sh.pool sh.sel.resolutionJobs slots
  | cons step rest ih =>
      simp only [workerSteps, wp_bind]
      exact wp_workerStep slots fun pool jobs kept =>
        ih kept fun pool' jobs' kept' => next pool' jobs' kept'

theorem wp_runWorkers {post : Unit → Shared → Prop} (slots : Slots view sh.pool)
    (next : ∀ pool jobs env, Slots view pool → post () (sh.afterWorkers pool jobs env)) :
    wp runWorkers post sh := by
  simp only [runWorkers, wp_bind, wp_get]
  cases sh.env.workers with
  | nil =>
      simp only [wp_pure]
      exact next sh.pool sh.sel.resolutionJobs sh.env slots
  | cons batch later =>
      simp only [wp_bind, wp_modify]
      exact wp_workerSteps slots fun pool jobs kept => next pool jobs _ kept

/-- A critical section of the main thread, entered after resolver threads ran. -/
theorem wp_locked {α : Type} {program : PoolM α} {post : α → Local → Prop}
    (slots : Slots view sh.pool)
    (next : ∀ pool jobs env, Slots view pool →
      wp program (fun value pool' =>
        post value ⟨id, cell, sh.afterWorkers pool' jobs env⟩) pool) :
    wp (locked program) post ⟨id, cell, sh⟩ := by
  simp only [locked, wp_bind, wp_focus]
  refine wp_runWorkers slots fun pool jobs env kept => ?_
  rw [wp_onPool]
  exact next pool jobs env kept

end Workers

end SocksProxy
