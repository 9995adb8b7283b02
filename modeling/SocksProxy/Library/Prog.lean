import Mathlib.Tactic.Common

/-!
# Programs that may fault

Handlers of an event-driven server are modelled as programs over an explicit
state which either return a value or stop with a fault: a dereference of freed
memory, an `abort()`, a descriptor closed twice. This file gives the two
judgements the development uses about such programs.

`Prog.wp` is the weakest precondition for total correctness: it asserts that
the program does not fault *and* that its result satisfies the postcondition,
so a single induction over a run establishes both safety and an invariant.
`Prog.wlp` is the liberal one, which says nothing of a program that faults, and
`Prog.Keeps` the judgement built on it that an invariant survives the program,
from wherever it starts. `Prog.wpOr` lies between the two: it says which faults
there may be.
-/

namespace SocksProxy

/-- A program over the state `σ` that returns an `α` or stops with a fault. -/
abbrev Prog (σ φ α : Type) := StateT σ (Except φ) α

namespace Prog

variable {σ φ α β : Type}

/-- The program does not fault from `state` and its outcome satisfies `post`. -/
def wp (program : Prog σ φ α) (post : α → σ → Prop) (state : σ) : Prop :=
  ∃ value final, program state = .ok (value, final) ∧ post value final

@[simp]
theorem wp_pure (value : α) (post : α → σ → Prop) (state : σ) :
    wp (pure value : Prog σ φ α) post state ↔ post value state := by
  constructor
  · rintro ⟨result, final, ran, holds⟩
    cases ran
    exact holds
  · intro holds
    exact ⟨value, state, rfl, holds⟩

theorem bind_apply (first : Prog σ φ α) (next : α → Prog σ φ β) (state : σ) :
    (first >>= next) state =
      match first state with
      | .ok (value, middle) => next value middle
      | .error fault => .error fault := by
  change (StateT.bind first next) state = _
  unfold StateT.bind
  cases first state <;> rfl

theorem bind_of_ok {first : Prog σ φ α} {next : α → Prog σ φ β} {state middle : σ} {value : α}
    (ran : first state = .ok (value, middle)) : (first >>= next) state = next value middle := by
  rw [bind_apply, ran]

theorem get_bind_apply (next : σ → Prog σ φ β) (state : σ) :
    ((get : Prog σ φ σ) >>= next) state = next state state := rfl

theorem modify_bind_apply (change : σ → σ) (next : PUnit → Prog σ φ β) (state : σ) :
    ((modify change : Prog σ φ PUnit) >>= next) state = next ⟨⟩ (change state) := rfl

@[simp]
theorem wp_bind (first : Prog σ φ α) (next : α → Prog σ φ β) (post : β → σ → Prop)
    (state : σ) :
    wp (first >>= next) post state ↔ wp first (fun value => wp (next value) post) state := by
  constructor
  · rintro ⟨result, final, ran, holds⟩
    rw [bind_apply] at ran
    cases firstRan : first state with
    | error fault => simp [firstRan] at ran
    | ok outcome =>
        rw [firstRan] at ran
        exact ⟨outcome.1, outcome.2, firstRan, result, final, ran, holds⟩
  · rintro ⟨value, middle, firstRan, result, final, ran, holds⟩
    refine ⟨result, final, ?_, holds⟩
    rw [bind_apply, firstRan]
    exact ran

@[simp]
theorem wp_get (post : σ → σ → Prop) (state : σ) :
    wp (get : Prog σ φ σ) post state ↔ post state state :=
  wp_pure (φ := φ) state post state

@[simp]
theorem wp_set (replacement : σ) (post : PUnit → σ → Prop) (state : σ) :
    wp (set replacement : Prog σ φ PUnit) post state ↔ post ⟨⟩ replacement := by
  constructor
  · rintro ⟨result, final, ran, holds⟩
    cases ran
    exact holds
  · intro holds
    exact ⟨⟨⟩, replacement, rfl, holds⟩

@[simp]
theorem wp_modify (change : σ → σ) (post : PUnit → σ → Prop) (state : σ) :
    wp (modify change : Prog σ φ PUnit) post state ↔ post ⟨⟩ (change state) := by
  constructor
  · rintro ⟨result, final, ran, holds⟩
    cases ran
    exact holds
  · intro holds
    exact ⟨⟨⟩, change state, rfl, holds⟩

@[simp]
theorem wp_throw (fault : φ) (post : α → σ → Prop) (state : σ) :
    wp (throw fault : Prog σ φ α) post state ↔ False := by
  constructor
  · rintro ⟨result, final, ran, -⟩
    cases ran
  · exact False.elim

@[simp]
theorem wp_ite (condition : Prop) [Decidable condition] (yes no : Prog σ φ α)
    (post : α → σ → Prop) (state : σ) :
    wp (if condition then yes else no) post state ↔
      if condition then wp yes post state else wp no post state := by
  split <;> rfl

/-- Consequence rule: a weaker postcondition has a weaker precondition. -/
theorem wp_mono {program : Prog σ φ α} {post weaker : α → σ → Prop} {state : σ}
    (established : wp program post state)
    (weaken : ∀ value final, post value final → weaker value final) :
    wp program weaker state := by
  rcases established with ⟨value, final, ran, holds⟩
  exact ⟨value, final, ran, weaken value final holds⟩

@[simp]
theorem wp_map (change : α → β) (program : Prog σ φ α) (post : β → σ → Prop) (state : σ) :
    wp (change <$> program) post state ↔ wp program (fun value => post (change value)) state := by
  rw [← bind_pure_comp, wp_bind]
  constructor
  · exact fun established => wp_mono established fun value final holds => by simpa using holds
  · exact fun established => wp_mono established fun value final holds => by simpa using holds

/-- Run a program on a part of the state. -/
def focus {τ : Type} (get : σ → τ) (put : τ → σ → σ) (program : Prog τ φ α) : Prog σ φ α :=
  fun state =>
    match program (get state) with
    | .ok (value, part) => .ok (value, put part state)
    | .error fault => .error fault

@[simp]
theorem wp_focus {τ : Type} (get : σ → τ) (put : τ → σ → σ) (program : Prog τ φ α)
    (post : α → σ → Prop) (state : σ) :
    wp (focus get put program) post state ↔
      wp program (fun value part => post value (put part state)) (get state) := by
  unfold wp focus
  cases program (get state) with
  | error fault => simp
  | ok outcome =>
      rcases outcome with ⟨value, part⟩
      simp

/-! ## Partial correctness -/

/-- Whenever the program returns from `state`, its outcome satisfies `post`. -/
def wlp (program : Prog σ φ α) (post : α → σ → Prop) (state : σ) : Prop :=
  ∀ value final, program state = .ok (value, final) → post value final

@[simp]
theorem wlp_pure (value : α) (post : α → σ → Prop) (state : σ) :
    wlp (pure value : Prog σ φ α) post state ↔ post value state := by
  constructor
  · exact fun holds => holds value state rfl
  · rintro holds _ _ ⟨⟩
    exact holds

@[simp]
theorem wlp_bind (first : Prog σ φ α) (next : α → Prog σ φ β) (post : β → σ → Prop)
    (state : σ) :
    wlp (first >>= next) post state ↔ wlp first (fun value => wlp (next value) post) state := by
  constructor
  · intro holds value middle firstRan result final ran
    refine holds result final ?_
    rw [bind_apply, firstRan]
    exact ran
  · intro holds result final ran
    rw [bind_apply] at ran
    cases firstRan : first state with
    | error fault => simp [firstRan] at ran
    | ok outcome =>
        rw [firstRan] at ran
        exact holds outcome.1 outcome.2 firstRan result final ran

@[simp]
theorem wlp_get (post : σ → σ → Prop) (state : σ) :
    wlp (get : Prog σ φ σ) post state ↔ post state state :=
  wlp_pure (φ := φ) state post state

@[simp]
theorem wlp_modify (change : σ → σ) (post : PUnit → σ → Prop) (state : σ) :
    wlp (modify change : Prog σ φ PUnit) post state ↔ post ⟨⟩ (change state) := by
  constructor
  · exact fun holds => holds _ _ rfl
  · rintro holds _ _ ⟨⟩
    exact holds

@[simp]
theorem wlp_throw (fault : φ) (post : α → σ → Prop) (state : σ) :
    wlp (throw fault : Prog σ φ α) post state ↔ True := by
  refine ⟨fun _ => trivial, ?_⟩
  rintro - _ _ ⟨⟩

@[simp]
theorem wlp_ite (condition : Prop) [Decidable condition] (yes no : Prog σ φ α)
    (post : α → σ → Prop) (state : σ) :
    wlp (if condition then yes else no) post state ↔
      if condition then wlp yes post state else wlp no post state := by
  split <;> rfl

theorem wlp_mono {program : Prog σ φ α} {post weaker : α → σ → Prop} {state : σ}
    (established : wlp program post state)
    (weaken : ∀ value final, post value final → weaker value final) : wlp program weaker state :=
  fun value final ran => weaken value final (established value final ran)

/-- There is only one outcome. -/
theorem wlp_of_wp {program : Prog σ φ α} {post : α → σ → Prop} {state : σ}
    (established : wp program post state) : wlp program post state := by
  rcases established with ⟨value, final, ran, holds⟩
  intro value' final' ran'
  rw [ran] at ran'
  cases ran'
  exact holds

@[simp]
theorem wlp_focus {τ : Type} (get : σ → τ) (put : τ → σ → σ) (program : Prog τ φ α)
    (post : α → σ → Prop) (state : σ) :
    wlp (focus get put program) post state ↔
      wlp program (fun value part => post value (put part state)) (get state) := by
  unfold wlp focus
  cases program (get state) with
  | error fault => simp
  | ok outcome =>
      rcases outcome with ⟨value, part⟩
      simp

/-- The program keeps an invariant. -/
def Keeps (invariant : σ → Prop) (program : Prog σ φ α) : Prop :=
  ∀ state, invariant state → wlp program (fun _ => invariant) state

namespace Keeps

variable {invariant : σ → Prop}

theorem pure (value : α) : Keeps invariant (pure value : Prog σ φ α) :=
  fun state holds => (wlp_pure value _ state).mpr holds

theorem throw (fault : φ) : Keeps invariant (throw fault : Prog σ φ α) :=
  fun state _ => (wlp_throw fault _ state).mpr trivial

theorem get : Keeps invariant (get : Prog σ φ σ) :=
  fun state holds => (wlp_get _ state).mpr holds

theorem modify {change : σ → σ} (kept : ∀ state, invariant state → invariant (change state)) :
    Keeps invariant (modify change : Prog σ φ PUnit) :=
  fun state holds => (wlp_modify change _ state).mpr (kept state holds)

theorem bind {first : Prog σ φ α} {next : α → Prog σ φ β} (begins : Keeps invariant first)
    (continues : ∀ value, Keeps invariant (next value)) : Keeps invariant (first >>= next) := by
  intro state holds
  rw [wlp_bind]
  exact wlp_mono (begins state holds) fun value middle kept => continues value middle kept

theorem ite {condition : Prop} [Decidable condition] {yes no : Prog σ φ α}
    (holds : condition → Keeps invariant yes) (fails : ¬condition → Keeps invariant no) :
    Keeps invariant (if condition then yes else no) := by
  split
  · exact holds ‹_›
  · exact fails ‹_›

end Keeps

/-- The values the program can return. -/
def Returns (among : α → Prop) (program : Prog σ φ α) : Prop :=
  ∀ state, wlp program (fun value _ => among value) state

namespace Returns

theorem pure {among : α → Prop} {value : α} (member : among value) :
    Returns among (pure value : Prog σ φ α) :=
  fun state => (wlp_pure value _ state).mpr member

theorem mono {among wider : α → Prop} {program : Prog σ φ α} (returns : Returns among program)
    (weaken : ∀ value, among value → wider value) : Returns wider program :=
  fun state => wlp_mono (returns state) fun value _ => weaken value

theorem bind_of {among : α → Prop} {later : β → Prop} {first : Prog σ φ α} {next : α → Prog σ φ β}
    (returns : Returns among first)
    (continues : ∀ value, among value → Returns later (next value)) :
    Returns later (first >>= next) := by
  intro state
  rw [wlp_bind]
  exact wlp_mono (returns state) fun value middle member => continues value member middle

theorem bind {among : β → Prop} {first : Prog σ φ α} {next : α → Prog σ φ β}
    (continues : ∀ value, Returns among (next value)) : Returns among (first >>= next) :=
  bind_of (fun _ _ _ _ => trivial) fun value (_ : True) => continues value

theorem ite {among : α → Prop} {condition : Prop} [Decidable condition] {yes no : Prog σ φ α}
    (holds : Returns among yes) (fails : Returns among no) :
    Returns among (if condition then yes else no) := by
  split
  · exact holds
  · exact fails

end Returns

/-! ## Correctness up to some faults -/

/-- From `state` the program returns with an outcome that satisfies `post`, or it stops with one of
the faults `failed`. -/
def wpOr (failed : φ → Prop) (program : Prog σ φ α) (post : α → σ → Prop) (state : σ) : Prop :=
  match program state with
  | .ok (value, final) => post value final
  | .error fault => failed fault

section

variable {failed : φ → Prop}

@[simp]
theorem wpOr_pure (value : α) (post : α → σ → Prop) (state : σ) :
    wpOr failed (pure value : Prog σ φ α) post state ↔ post value state := Iff.rfl

@[simp]
theorem wpOr_bind (first : Prog σ φ α) (next : α → Prog σ φ β) (post : β → σ → Prop)
    (state : σ) :
    wpOr failed (first >>= next) post state ↔
      wpOr failed first (fun value => wpOr failed (next value) post) state := by
  unfold wpOr
  rw [bind_apply]
  cases first state <;> rfl

@[simp]
theorem wpOr_get (post : σ → σ → Prop) (state : σ) :
    wpOr failed (get : Prog σ φ σ) post state ↔ post state state := Iff.rfl

@[simp]
theorem wpOr_modify (change : σ → σ) (post : PUnit → σ → Prop) (state : σ) :
    wpOr failed (modify change : Prog σ φ PUnit) post state ↔ post ⟨⟩ (change state) := Iff.rfl

@[simp]
theorem wpOr_throw (fault : φ) (post : α → σ → Prop) (state : σ) :
    wpOr failed (throw fault : Prog σ φ α) post state ↔ failed fault := Iff.rfl

@[simp]
theorem wpOr_ite (condition : Prop) [Decidable condition] (yes no : Prog σ φ α)
    (post : α → σ → Prop) (state : σ) :
    wpOr failed (if condition then yes else no) post state ↔
      if condition then wpOr failed yes post state else wpOr failed no post state := by
  split <;> rfl

/-- More outcomes and more faults may be allowed. -/
theorem wpOr_mono {failed' : φ → Prop} {program : Prog σ φ α} {post post' : α → σ → Prop}
    {state : σ} (established : wpOr failed program post state)
    (outcomes : ∀ value final, post value final → post' value final)
    (faults : ∀ fault, failed fault → failed' fault) : wpOr failed' program post' state := by
  unfold wpOr at established ⊢
  cases ran : program state with
  | error fault => exact faults fault (by simpa [ran] using established)
  | ok outcome => exact outcomes _ _ (by simpa [ran] using established)

theorem wlp_of_wpOr {program : Prog σ φ α} {post : α → σ → Prop} {state : σ}
    (established : wpOr failed program post state) : wlp program post state := by
  intro value final ran
  simpa [wpOr, ran] using established

theorem failed_of_wpOr {program : Prog σ φ α} {post : α → σ → Prop} {state : σ} {fault : φ}
    (established : wpOr failed program post state) (ran : program state = .error fault) :
    failed fault := by
  simpa [wpOr, ran] using established

end

end Prog

end SocksProxy
