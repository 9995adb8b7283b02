import Mathlib.Data.List.Basic
import Mathlib.Tactic.Common

/-!
# Delimited frames

A stream of symbols in which one symbol ends a frame. `cut` takes a stream apart
into the frames that have ended in it, without their delimiters, and what
follows the last delimiter; `join` puts frames together. The alphabet and the
delimiter are arbitrary.
-/

namespace SocksProxy

namespace Framing

universe u

variable {Symbol : Type u} [DecidableEq Symbol] (delimiter : Symbol)

/-- The frames that have ended in a stream, and what follows them. -/
def cut : List Symbol → List (List Symbol) × List Symbol
  | [] => ([], [])
  | symbol :: rest =>
      if symbol = delimiter then ([] :: (cut rest).1, (cut rest).2)
      else
        match (cut rest).1 with
        | [] => ([], symbol :: (cut rest).2)
        | body :: bodies => ((symbol :: body) :: bodies, (cut rest).2)

/-- The stream of some frames. -/
def join (bodies : List (List Symbol)) : List Symbol :=
  (bodies.map fun body => body ++ [delimiter]).flatten

omit [DecidableEq Symbol] in
@[simp]
theorem join_nil : join delimiter [] = [] := rfl

omit [DecidableEq Symbol] in
theorem join_append (front back : List (List Symbol)) :
    join delimiter (front ++ back) = join delimiter front ++ join delimiter back := by
  simp [join]

omit [DecidableEq Symbol] in
@[simp]
theorem join_singleton (body : List Symbol) : join delimiter [body] = body ++ [delimiter] := by
  simp [join]

omit [DecidableEq Symbol] in
/-- Every frame has its delimiter. -/
theorem length_le_length_join (bodies : List (List Symbol)) :
    bodies.length ≤ (join delimiter bodies).length := by
  induction bodies with
  | nil => simp
  | cons body bodies ih =>
      have split : join delimiter (body :: bodies) = body ++ [delimiter] ++ join delimiter bodies :=
        rfl
      rw [split, List.length_append, List.length_append, List.length_singleton, List.length_cons]
      omega

/-- A stream without a delimiter has no frame yet. -/
theorem cut_of_not_mem {stream : List Symbol} (unended : delimiter ∉ stream) :
    cut delimiter stream = ([], stream) := by
  induction stream with
  | nil => rfl
  | cons symbol rest ih =>
      rw [List.mem_cons, not_or] at unended
      simp [cut, ih unended.2, Ne.symm unended.1]

/-- The first frame ends at the first delimiter. -/
theorem cut_body {body : List Symbol} (unended : delimiter ∉ body) (more : List Symbol) :
    cut delimiter (body ++ delimiter :: more) =
      (body :: (cut delimiter more).1, (cut delimiter more).2) := by
  induction body with
  | nil => simp [cut]
  | cons symbol rest ih =>
      rw [List.mem_cons, not_or] at unended
      rw [List.cons_append, cut, if_neg (Ne.symm unended.1), ih unended.2]

/-- Frames put together are taken apart again, and what follows is taken apart by itself. -/
theorem cut_join {bodies : List (List Symbol)} (unended : ∀ body ∈ bodies, delimiter ∉ body)
    (more : List Symbol) :
    cut delimiter (join delimiter bodies ++ more) =
      (bodies ++ (cut delimiter more).1, (cut delimiter more).2) := by
  induction bodies with
  | nil => rfl
  | cons body bodies ih =>
      rw [List.forall_mem_cons] at unended
      have split : join delimiter (body :: bodies) ++ more =
          body ++ delimiter :: (join delimiter bodies ++ more) := by
        simp [join]
      rw [split, cut_body delimiter unended.1, ih unended.2]
      rfl

/-- A stream is its frames and what follows them, none of which contains a delimiter. -/
theorem join_cut (stream : List Symbol) :
    join delimiter (cut delimiter stream).1 ++ (cut delimiter stream).2 = stream ∧
      (∀ body ∈ (cut delimiter stream).1, delimiter ∉ body) ∧
      delimiter ∉ (cut delimiter stream).2 := by
  induction stream with
  | nil => simp [cut]
  | cons symbol rest ih =>
      rcases ih with ⟨whole, bodies, begun⟩
      unfold cut
      split
      · rename_i ends
        refine ⟨?_, by simpa using bodies, begun⟩
        conv_rhs => rw [ends, ← whole]
        simp [join]
      · rename_i other
        split
        · rename_i none
          rw [none] at whole
          refine ⟨by simpa using whole, by simp, ?_⟩
          rw [List.mem_cons, not_or]
          exact ⟨Ne.symm other, begun⟩
        · rename_i body later some
          rw [some] at whole bodies
          rw [List.forall_mem_cons] at bodies
          refine ⟨?_, ?_, begun⟩
          · conv_rhs => rw [← whole]
            simp [join]
          · rw [List.forall_mem_cons, List.mem_cons, not_or]
            exact ⟨⟨Ne.symm other, bodies.1⟩, bodies.2⟩

/-- A stream that grows has the frames it had, and those that end in what comes after them. -/
theorem cut_append (front back : List Symbol) :
    cut delimiter (front ++ back) =
      ((cut delimiter front).1 ++ (cut delimiter ((cut delimiter front).2 ++ back)).1,
        (cut delimiter ((cut delimiter front).2 ++ back)).2) := by
  rcases join_cut delimiter front with ⟨whole, bodies, -⟩
  conv_lhs => rw [← whole, List.append_assoc]
  exact cut_join delimiter bodies _

end Framing

end SocksProxy
