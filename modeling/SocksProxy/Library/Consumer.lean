import Mathlib.Tactic.Common

/-!
# Incremental byte consumers

A consumer reads a byte sequence one element at a time and stops by itself once
its state is final. What is left is handed back untouched. The results here say
that how the input is cut into pieces does not matter: consuming a
concatenation is consuming the first part and then, when the consumer has not
stopped, the second.

The element type is arbitrary; the protocol parsers use bytes.
-/

namespace SocksProxy

universe u v

/-- A stoppable automaton: a step function and the states at which it stops. -/
structure Consumer (State : Type u) (Symbol : Type v) where
  step : State → Symbol → State
  final : State → Bool

namespace Consumer

variable {State : Type u} {Symbol : Type v} (consumer : Consumer State Symbol)

/-- Consume input until it is exhausted or the consumer stops. -/
def consume : State → List Symbol → State × List Symbol
  | state, [] => (state, [])
  | state, symbol :: rest =>
      if consumer.final state then (state, symbol :: rest)
      else consume (consumer.step state symbol) rest

@[simp]
theorem consume_nil (state : State) : consumer.consume state [] = (state, []) := rfl

theorem consume_final {state : State} (stopped : consumer.final state = true)
    (input : List Symbol) : consumer.consume state input = (state, input) := by
  cases input with
  | nil => rfl
  | cons symbol rest => simp [consume, stopped]

theorem consume_cons {state : State} (running : consumer.final state = false)
    (symbol : Symbol) (rest : List Symbol) :
    consumer.consume state (symbol :: rest) =
      consumer.consume (consumer.step state symbol) rest := by
  simp [consume, running]

/-- A consumer that is still running has used all of its input. -/
theorem rest_eq_nil_of_running {state : State} {input : List Symbol}
    (running : consumer.final (consumer.consume state input).1 = false) :
    (consumer.consume state input).2 = [] := by
  induction input generalizing state with
  | nil => rfl
  | cons symbol rest ih =>
      by_cases stopped : consumer.final state = true
      · rw [consumer.consume_final stopped] at running
        simp [stopped] at running
      · rw [consumer.consume_cons (by simpa using stopped)] at running ⊢
        exact ih running

/-- Consuming in two pieces is consuming the concatenation. -/
theorem consume_append (state : State) (front back : List Symbol) :
    consumer.consume state (front ++ back) =
      if consumer.final (consumer.consume state front).1 then
        ((consumer.consume state front).1, (consumer.consume state front).2 ++ back)
      else consumer.consume (consumer.consume state front).1 back := by
  induction front generalizing state with
  | nil =>
      by_cases stopped : consumer.final state = true
      · simp [stopped, consumer.consume_final stopped]
      · simp [stopped]
  | cons symbol rest ih =>
      by_cases stopped : consumer.final state = true
      · simp [stopped, consumer.consume_final stopped]
      · have running : consumer.final state = false := by simpa using stopped
        rw [List.cons_append, consumer.consume_cons running, consumer.consume_cons running]
        exact ih (consumer.step state symbol)

/-- Resuming a consumer with what it left changes nothing. -/
theorem consume_resume (state : State) (input : List Symbol) :
    consumer.consume (consumer.consume state input).1 (consumer.consume state input).2 =
      consumer.consume state input := by
  by_cases stopped : consumer.final (consumer.consume state input).1 = true
  · rw [consumer.consume_final stopped]
  · rw [consumer.rest_eq_nil_of_running (by simpa using stopped), consume_nil,
      ← consumer.rest_eq_nil_of_running (by simpa using stopped)]

/-- Two ways to come to the same point go on alike. -/
theorem consume_append_congr {state other : State} {input rest : List Symbol}
    (same : consumer.consume state input = consumer.consume other rest) (more : List Symbol) :
    consumer.consume state (input ++ more) = consumer.consume other (rest ++ more) := by
  rw [consume_append, consume_append, same]

/-- Consuming part of the input ahead makes no difference to consuming all of it. -/
theorem consume_ahead (state : State) (input more : List Symbol) :
    consumer.consume (consumer.consume state input).1
      ((consumer.consume state input).2 ++ more) = consumer.consume state (input ++ more) :=
  (consumer.consume_append_congr (consumer.consume_resume state input).symm more).symm

theorem consume_append_of_running {state : State} {front : List Symbol} {reached : State}
    (consumed : consumer.consume state front = (reached, []))
    (running : consumer.final reached = false) (back : List Symbol) :
    consumer.consume state (front ++ back) = consumer.consume reached back := by
  rw [consume_append, consumed]
  simp [running]

/-- What was consumed and what is left make up the input. -/
theorem exists_consumed (state : State) (input : List Symbol) :
    ∃ used, input = used ++ (consumer.consume state input).2 ∧
      consumer.consume state used = ((consumer.consume state input).1, []) := by
  induction input generalizing state with
  | nil => exact ⟨[], rfl, rfl⟩
  | cons symbol rest ih =>
      by_cases stopped : consumer.final state = true
      · refine ⟨[], ?_, ?_⟩
        · simp [consumer.consume_final stopped]
        · simp [consumer.consume_final stopped]
      · have running : consumer.final state = false := by simpa using stopped
        rcases ih (consumer.step state symbol) with ⟨used, split, reached⟩
        refine ⟨symbol :: used, ?_, ?_⟩
        · rw [consumer.consume_cons running]
          simpa using split
        · rw [consumer.consume_cons running, consumer.consume_cons running]
          exact reached

/-- A consumer that was running and stops has used some of its input. -/
theorem length_rest_lt {state : State} {input : List Symbol}
    (running : consumer.final state = false)
    (stops : consumer.final (consumer.consume state input).1 = true) :
    (consumer.consume state input).2.length < input.length := by
  rcases consumer.exists_consumed state input with ⟨used, split, reached⟩
  have some : used ≠ [] := by
    rintro rfl
    rw [consume_nil] at reached
    rw [← congrArg Prod.fst reached, running] at stops
    cases stops
  have total := congrArg List.length split
  rw [List.length_append] at total
  have positive := List.length_pos_iff.mpr some
  omega

/-- The consumed part of an input is determined: a stopped consumer ignores what follows. -/
theorem consume_append_of_final {state : State} {used : List Symbol} {reached : State}
    (consumed : consumer.consume state used = (reached, []))
    (stopped : consumer.final reached = true) (rest : List Symbol) :
    consumer.consume state (used ++ rest) = (reached, rest) := by
  rw [consume_append, consumed]
  simp [stopped]

/-- Induction over the input: a relation between the state and what was consumed so far that is
kept by every step of a running consumer holds of whatever state it reaches. -/
theorem consumed_invariant {invariant : State → List Symbol → Prop}
    (kept : ∀ state used symbol, consumer.final state = false → invariant state used →
      invariant (consumer.step state symbol) (used ++ [symbol]))
    {state reached : State} {used more : List Symbol} (initially : invariant state used)
    (consumed : consumer.consume state more = (reached, [])) :
    invariant reached (used ++ more) := by
  induction more generalizing state used with
  | nil =>
      cases consumed
      simpa using initially
  | cons symbol rest ih =>
      by_cases stopped : consumer.final state = true
      · rw [consumer.consume_final stopped] at consumed
        cases consumed
      · have running : consumer.final state = false := by simpa using stopped
        rw [consumer.consume_cons running] at consumed
        have stepped := ih (kept state used symbol running initially) consumed
        simpa using stepped

end Consumer

end SocksProxy
