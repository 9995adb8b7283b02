import SocksProxy.Library.Consumer

/-!
# Consumers that recognize a language

A consumer recognizes a language if it accepts exactly the messages of the
language, each at its last symbol, and never runs on with input that no message
begins with. What it makes of an arbitrary input then follows: it accepts if a
message begins the input and leaves what comes after it, it rejects at the first
symbol that no message continues with, and it waits in between.

States, symbols and languages are arbitrary.
-/

namespace SocksProxy

universe u v

namespace Consumer

variable {State : Type u} {Symbol : Type v}

/-- The input is the beginning of a message, and not all of it. -/
def Viable (Language : List Symbol → Prop) (input : List Symbol) : Prop :=
  ∃ more, more ≠ [] ∧ Language (input ++ more)

/-- The beginning of a beginning of a message is one. -/
theorem Viable.of_append {Language : List Symbol → Prop} {front : List Symbol} (back : List Symbol)
    (viable : Viable Language (front ++ back)) : Viable Language front := by
  rcases viable with ⟨more, some, member⟩
  refine ⟨back ++ more, ?_, by rwa [← List.append_assoc]⟩
  exact fun nothing => some (List.append_eq_nil_iff.mp nothing).2

/-- The consumer accepts the messages of a language. -/
structure Recognizes (consumer : Consumer State Symbol) (start : State) (accepts : State → Prop)
    (Language : List Symbol → Prop) : Prop where
  running : consumer.final start = false
  stops : ∀ state, accepts state → consumer.final state = true
  sound : ∀ used state, consumer.consume start used = (state, []) → accepts state → Language used
  complete : ∀ message, Language message →
    ∃ state, consumer.consume start message = (state, []) ∧ accepts state
  viable : ∀ used state, consumer.consume start used = (state, []) →
    consumer.final state = false → Viable Language used

namespace Recognizes

variable {consumer : Consumer State Symbol} {start : State} {accepts : State → Prop}
  {Language : List Symbol → Prop}

/-- A message is accepted at its end, whatever follows it. -/
theorem consume_message (recognizes : consumer.Recognizes start accepts Language)
    {message : List Symbol} (member : Language message) (rest : List Symbol) :
    ∃ state, consumer.consume start (message ++ rest) = (state, rest) ∧
      consumer.consume start message = (state, []) ∧ accepts state := by
  rcases recognizes.complete message member with ⟨state, consumed, accepted⟩
  exact ⟨state, consumer.consume_append_of_final consumed (recognizes.stops state accepted) rest,
    consumed, accepted⟩

/-- The consumer accepts if a message begins the input. -/
theorem accepts_iff (recognizes : consumer.Recognizes start accepts Language)
    (input : List Symbol) :
    accepts (consumer.consume start input).1 ↔
      ∃ message rest, input = message ++ rest ∧ Language message := by
  constructor
  · intro accepted
    rcases consumer.exists_consumed start input with ⟨used, split, consumed⟩
    exact ⟨used, _, split, recognizes.sound used _ consumed accepted⟩
  · rintro ⟨message, rest, rfl, member⟩
    rcases recognizes.consume_message member rest with ⟨state, consumed, -, accepted⟩
    rwa [consumed]

/-- The consumer waits if the input is the beginning of a message. -/
theorem waits_iff (recognizes : consumer.Recognizes start accepts Language)
    (input : List Symbol) :
    consumer.final (consumer.consume start input).1 = false ↔ Viable Language input := by
  constructor
  · intro waits
    refine recognizes.viable input _ ?_ waits
    exact Prod.ext rfl (consumer.rest_eq_nil_of_running waits)
  · rintro ⟨more, some, member⟩
    by_contra stopped
    rw [Bool.not_eq_false] at stopped
    rcases recognizes.complete _ member with ⟨state, consumed, -⟩
    rw [consumer.consume_append, if_pos stopped, Prod.mk.injEq] at consumed
    exact some (List.append_eq_nil_iff.mp consumed.2).2

/-- What led to a state is a running state's input and one more symbol. -/
theorem consume_last {used : List Symbol} {symbol : Symbol} {state : State}
    (consumed : consumer.consume start (used ++ [symbol]) = (state, [])) :
    consumer.final (consumer.consume start used).1 = false := by
  by_contra stopped
  rw [Bool.not_eq_false] at stopped
  rw [consumer.consume_append, if_pos stopped, Prod.mk.injEq] at consumed
  simp at consumed

/-- The consumer rejects at the symbol that makes the input the beginning of no message. -/
theorem rejects_iff (recognizes : consumer.Recognizes start accepts Language)
    (input rest : List Symbol) :
    (consumer.final (consumer.consume start input).1 = true ∧
        ¬accepts (consumer.consume start input).1 ∧ (consumer.consume start input).2 = rest) ↔
      ∃ front symbol, input = front ++ symbol :: rest ∧ Viable Language front ∧
        ∀ more, ¬Language (front ++ symbol :: more) := by
  constructor
  · rintro ⟨stopped, rejected, left⟩
    rcases consumer.exists_consumed start input with ⟨used, split, consumed⟩
    rw [left] at split
    rcases List.eq_nil_or_concat used with rfl | ⟨front, symbol, rfl⟩
    · have unmoved : start = (consumer.consume start input).1 := congrArg Prod.fst consumed
      rw [← unmoved, recognizes.running] at stopped
      cases stopped
    · rw [List.concat_eq_append] at split consumed
      refine ⟨front, symbol, by simpa using split, ?_, ?_⟩
      · exact (recognizes.waits_iff front).mp (consume_last consumed)
      · intro more member
        rcases recognizes.complete _ member with ⟨state, whole, accepted⟩
        have ahead := consumer.consume_append_of_final consumed stopped more
        rw [List.append_assoc, List.singleton_append, whole, Prod.mk.injEq] at ahead
        exact rejected (ahead.1 ▸ accepted)
  · rintro ⟨front, symbol, rfl, begun, doomed⟩
    have waits := (recognizes.waits_iff front).mpr begun
    have before : consumer.consume start front = ((consumer.consume start front).1, []) :=
      Prod.ext rfl (consumer.rest_eq_nil_of_running waits)
    have consumed : consumer.consume start (front ++ [symbol]) =
        (consumer.step (consumer.consume start front).1 symbol, []) := by
      rw [consumer.consume_append_of_running before waits, consumer.consume_cons waits,
        consumer.consume_nil]
    have stopped : consumer.final
        (consumer.step (consumer.consume start front).1 symbol) = true := by
      by_contra waiting
      rw [Bool.not_eq_true] at waiting
      rcases recognizes.viable _ _ consumed waiting with ⟨more, -, member⟩
      rw [List.append_assoc, List.singleton_append] at member
      exact doomed more member
    have whole : consumer.consume start (front ++ symbol :: rest) =
        (consumer.step (consumer.consume start front).1 symbol, rest) := by
      have ahead := consumer.consume_append_of_final consumed stopped rest
      rwa [List.append_assoc, List.singleton_append] at ahead
    rw [whole]
    refine ⟨stopped, fun accepted => ?_, rfl⟩
    exact doomed [] (recognizes.sound _ _ consumed accepted)

end Recognizes

end Consumer

end SocksProxy
