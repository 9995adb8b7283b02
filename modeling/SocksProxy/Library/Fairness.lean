import Mathlib.Tactic.Common

/-!
# Fair schedules

A schedule says which step comes when; it is fair if every task is taken up
again and again. Which task helps depends on the state. If every step either
lowers a rank or leaves the task that helps undone and helpful, then a fair
schedule gets to the end, whatever else it does in between.
-/

namespace SocksProxy

namespace Fairness

universe u v w

variable {State : Type u} {Label : Type v} {Task : Type w}

/-- Every task is taken up again and again. -/
def Fair (task : Label → Option Task) (schedule : ℕ → Label) : Prop :=
  ∀ t n, ∃ m, n ≤ m ∧ task (schedule m) = some t

/-- Going round is fair. -/
theorem fair_mod {task : Label → Option Task} {round : ℕ → Label} {length : ℕ}
    (complete : ∀ t, ∃ i, i < length ∧ task (round i) = some t) :
    Fair task fun n => round (n % length) := by
  intro t n
  rcases complete t with ⟨i, small, takes⟩
  refine ⟨length * n + i, ?_, ?_⟩
  · calc n ≤ length * n := Nat.le_mul_of_pos_left n (Nat.zero_lt_of_lt small)
      _ ≤ length * n + i := Nat.le_add_right _ _
  · dsimp only
    rwa [Nat.mul_add_mod, Nat.mod_eq_of_lt small]

/-- The states that a schedule leads through, from one time to another. -/
inductive Path (step : State → Label → State → Prop) (schedule : ℕ → Label) :
    ℕ → State → ℕ → State → Prop where
  | here (n : ℕ) (s : State) : Path step schedule n s n s
  | next {n m : ℕ} {s s' t : State} (first : step s (schedule n) s')
      (rest : Path step schedule (n + 1) s' m t) : Path step schedule n s m t

/-- A step from `s` lowers the rank, or it is not the task that helps, which helps as before. -/
def Advances (rank : State → ℕ) (helpful : State → Task) (s : State) (label : Option Task)
    (s' : State) : Prop :=
  rank s' < rank s ∨ rank s' = rank s ∧ helpful s' = helpful s ∧ label ≠ some (helpful s)

variable {step : State → Label → State → Prop} {task : Label → Option Task}
  {good done : State → Prop} {rank : State → ℕ} {helpful : State → Task}

/-- Under a fair schedule a system whose steps advance comes to an end. -/
theorem eventually
    (advance : ∀ s label, good s → ¬done s → ∃ s', step s label s' ∧ good s' ∧
      Advances rank helpful s (task label) s')
    {schedule : ℕ → Label} (fair : Fair task schedule) (n : ℕ) {s : State} (start : good s) :
    ∃ m t, Path step schedule n s m t ∧ good t ∧ done t := by
  induction height : rank s using Nat.strongRecOn generalizing s n with
  | ind r lower =>
      subst height
      rcases fair (helpful s) n with ⟨m, later, takes⟩
      obtain ⟨distance, rfl⟩ := Nat.exists_eq_add_of_le later
      clear later
      -- until the helpful task is taken up, at the latest, the rank falls
      induction distance generalizing n s with
      | zero =>
          by_cases ended : done s
          · exact ⟨n, s, .here n s, start, ended⟩
          rcases advance s (schedule n) start ended with ⟨s', first, good', falls | ⟨-, -, other⟩⟩
          · rcases lower (rank s') falls (n + 1) good' rfl with ⟨m, t, rest, ends⟩
            exact ⟨m, t, .next first rest, ends⟩
          · exact absurd takes other
      | succ distance sooner =>
          by_cases ended : done s
          · exact ⟨n, s, .here n s, start, ended⟩
          rcases advance s (schedule n) start ended with
            ⟨s', first, good', falls | ⟨level, same, -⟩⟩
          · rcases lower (rank s') falls (n + 1) good' rfl with ⟨m, t, rest, ends⟩
            exact ⟨m, t, .next first rest, ends⟩
          · have takes' : task (schedule (n + 1 + distance)) = some (helpful s') := by
              rw [same, ← takes]
              congr 2
              omega
            rcases sooner (n + 1) good' (level ▸ lower) takes' with ⟨m, t, rest, ends⟩
            exact ⟨m, t, .next first rest, ends⟩

end Fairness

end SocksProxy
