import Mathlib.Logic.Relation

/-!
# Deterministic machines

A machine given by a partial function has one course from each state. Whatever
two of its runs have reached, one of the states lies on the course of the other,
and two runs that cannot go on have reached the same state. A system that is
simulated by such a machine, however much it stutters, inherits both.
-/

namespace SocksProxy

namespace Deterministic

universe u

variable {σ : Type u} (next : σ → Option σ)

/-- The machine comes from one state to another. -/
def Leads : σ → σ → Prop := Relation.ReflTransGen fun state state' => next state = some state'

variable {next} {start first second : σ}

theorem rightUnique : Relator.RightUnique fun state state' => next state = some state' := by
  intro state one other toOne toOther
  exact Option.some.inj (toOne.symm.trans toOther)

/-- Two runs from one state lie on the same course. -/
theorem Leads.comparable (toFirst : Leads next start first) (toSecond : Leads next start second) :
    Leads next first second ∨ Leads next second first :=
  Relation.ReflTransGen.total_of_right_unique rightUnique toFirst toSecond

/-- A machine that cannot go on stays where it is. -/
theorem Leads.eq_of_stuck (leads : Leads next first second) (stuck : next first = none) :
    first = second := by
  cases leads.cases_head with
  | inl same => exact same
  | inr moved =>
      rcases moved with ⟨middle, step, -⟩
      simp [stuck] at step

theorem Leads.eq_of_both_stuck (toFirst : Leads next start first)
    (toSecond : Leads next start second) (firstStuck : next first = none)
    (secondStuck : next second = none) : first = second := by
  rcases toFirst.comparable toSecond with onward | back
  · exact onward.eq_of_stuck firstStuck
  · exact (back.eq_of_stuck secondStuck).symm

/-- What every step keeps in a preorder is kept along the course. -/
theorem Leads.keeps (related : σ → σ → Prop) (refl : ∀ state, related state state)
    (trans : ∀ a b c, related a b → related b c → related a c)
    (kept : ∀ state state', next state = some state' → related state state')
    (leads : Leads next first second) : related first second := by
  induction leads with
  | refl => exact refl _
  | tail _ step ih => exact trans _ _ _ ih (kept _ _ step)

end Deterministic

end SocksProxy
