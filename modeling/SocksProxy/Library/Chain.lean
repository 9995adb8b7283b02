import Mathlib.Data.List.Nodup
import Mathlib.Logic.Function.Basic
import Mathlib.Tactic.Common

/-!
# Linked chains

A singly linked list in memory is a start pointer together with a `next` field
for every node; `Chain next start nodes` says that following `next` from
`start` visits exactly `nodes` and then ends. `BackChain` is the matching
statement about the `prev` fields of a doubly linked list.

Since `next` is a function, the node list of a chain is unique and never visits
a node twice, so neither fact has to be carried as an invariant of its own.
-/

namespace SocksProxy

universe u

variable {Node : Type u}

/-- Following `next` from `start` visits exactly the listed nodes and then ends. -/
def Chain (next : Node → Option Node) : Option Node → List Node → Prop
  | start, [] => start = none
  | start, node :: rest => start = some node ∧ Chain next (next node) rest

/-- Every listed node points back at the node before it; the first one at `before`. -/
def BackChain (prev : Node → Option Node) : Option Node → List Node → Prop
  | _, [] => True
  | before, node :: rest => prev node = before ∧ BackChain prev (some node) rest

namespace Chain

variable {next : Node → Option Node} {start : Option Node} {node : Node}
  {nodes front back : List Node}

@[simp]
theorem nil_iff : Chain next start [] ↔ start = none := Iff.rfl

@[simp]
theorem cons_iff {rest : List Node} :
    Chain next start (node :: rest) ↔ start = some node ∧ Chain next (next node) rest := Iff.rfl

theorem head?_eq (chain : Chain next start nodes) : start = nodes.head? := by
  cases nodes with
  | nil => exact chain
  | cons node rest => exact chain.1

theorem unique {left right : List Node} (leftChain : Chain next start left)
    (rightChain : Chain next start right) : left = right := by
  induction left generalizing start right with
  | nil =>
      cases right with
      | nil => rfl
      | cons node rest =>
          have impossible := leftChain.symm.trans rightChain.1
          cases impossible
  | cons node rest ih =>
      cases right with
      | nil =>
          have impossible := rightChain.symm.trans leftChain.1
          cases impossible
      | cons other others =>
          have same : some node = some other := leftChain.1.symm.trans rightChain.1
          cases same
          rw [ih leftChain.2 rightChain.2]

theorem drop (chain : Chain next start (front ++ node :: back)) :
    Chain next (some node) (node :: back) := by
  induction front generalizing start with
  | nil => exact ⟨rfl, chain.2⟩
  | cons first rest ih => exact ih chain.2

/-- A chain that ends never returns to a node. -/
theorem nodup (chain : Chain next start nodes) : nodes.Nodup := by
  induction nodes generalizing start with
  | nil => exact List.nodup_nil
  | cons node rest ih =>
      refine List.nodup_cons.mpr ⟨?_, ih chain.2⟩
      intro repeated
      rcases List.append_of_mem repeated with ⟨front, back, split⟩
      have fromHead : Chain next (some node) (node :: rest) := ⟨rfl, chain.2⟩
      have unrolled : Chain next (some node) ((node :: front) ++ node :: back) := by
        rw [split] at fromHead
        exact fromHead
      have fromRepeat : Chain next (some node) (node :: back) := unrolled.drop
      have same := congrArg List.length (unique fromHead fromRepeat)
      simp [split] at same
      omega

theorem notMem_append (chain : Chain next start (front ++ node :: back)) : node ∉ front ++ back :=
  (List.nodup_cons.mp (List.nodup_middle.mp chain.nodup)).1

theorem congr {next' : Node → Option Node} (chain : Chain next start nodes)
    (agree : ∀ node ∈ nodes, next' node = next node) : Chain next' start nodes := by
  induction nodes generalizing start with
  | nil => exact chain
  | cons node rest ih =>
      refine ⟨chain.1, ?_⟩
      rw [agree node (by simp)]
      exact ih chain.2 (fun other member => agree other (by simp [member]))

/-- What lies behind a node can be replaced when the links of the nodes before it are kept. -/
theorem replaceTail {next' : Node → Option Node} {back back' : List Node}
    (chain : Chain next start (front ++ node :: back))
    (agree : ∀ other ∈ front, next' other = next other) (behind : Chain next' (next' node) back') :
    Chain next' start (front ++ node :: back') := by
  induction front generalizing start with
  | nil => exact ⟨chain.1, behind⟩
  | cons first rest ih =>
      refine ⟨chain.1, ?_⟩
      rw [agree first (by simp)]
      exact ih chain.2 (fun other member => agree other (by simp [member]))

section Update

variable [DecidableEq Node]

theorem update_of_notMem {link : Option Node} (chain : Chain next start nodes)
    (absent : node ∉ nodes) : Chain (Function.update next node link) start nodes := by
  apply chain.congr
  intro other member
  apply Function.update_of_ne
  rintro rfl
  exact absent member

/-- Any list without repetitions can be linked. -/
theorem exists_of_nodup (distinct : nodes.Nodup) :
    ∃ (start : Option Node) (links : Node → Option Node), Chain links start nodes := by
  induction nodes with
  | nil => exact ⟨none, fun _ => none, rfl⟩
  | cons node rest ih =>
      rcases ih distinct.of_cons with ⟨start, links, chain⟩
      refine ⟨some node, Function.update links node start, rfl, ?_⟩
      rw [Function.update_self]
      exact chain.update_of_notMem (List.nodup_cons.mp distinct).1

/-- Append a node behind the last one. -/
theorem snoc {last node : Node} (chain : Chain next start (front ++ [last]))
    (absent : node ∉ front ++ [last]) :
    Chain (Function.update (Function.update next node none) last (some node)) start
      (front ++ [last] ++ [node]) := by
  have distinct : node ≠ last := fun same => absent (by simp [same])
  have notLast : last ∉ front := by
    have := chain.nodup
    simp only [List.nodup_append, List.mem_singleton] at this
    exact fun member => this.2.2 last member last rfl rfl
  rw [List.append_assoc]
  refine chain.replaceTail ?_ ?_
  · intro other member
    have notNode : other ≠ node := fun same => absent (by simp [← same, member])
    have notEnd : other ≠ last := fun same => notLast (same ▸ member)
    rw [Function.update_of_ne notEnd, Function.update_of_ne notNode]
  · rw [Function.update_self]
    refine ⟨rfl, ?_⟩
    rw [Function.update_of_ne distinct, Function.update_self]
    rfl

/-- Redirect the link of a node past its successor. -/
theorem bypass {before node : Node} (chain : Chain next start (front ++ before :: node :: back)) :
    Chain (Function.update next before (next node)) start (front ++ before :: back) := by
  have distinct := chain.nodup
  have behind : Chain next (next node) back := by
    have fromBefore : Chain next (some before) (before :: node :: back) := chain.drop
    exact fromBefore.2.2
  refine chain.replaceTail ?_ ?_
  · intro other member
    apply Function.update_of_ne
    rintro rfl
    simp only [List.nodup_append, List.mem_cons] at distinct
    exact distinct.2.2 other member other (Or.inl rfl) rfl
  · rw [Function.update_self]
    apply behind.update_of_notMem
    intro member
    simp [List.nodup_append, member] at distinct

/-- Unlink a node: the one before it, or the start, now leads to the one behind it. -/
theorem unlink {next' : Node → Option Node} (chain : Chain next start (front ++ node :: back))
    (agree : ∀ other ∈ front ++ back,
      next' other = if front.getLast? = some other then next node else next other) :
    Chain next' (if front = [] then next node else start) (front ++ back) := by
  rcases List.eq_nil_or_concat front with rfl | ⟨init, last, rfl⟩
  · simp only [List.nil_append, List.getLast?_nil, reduceCtorEq, if_false] at agree chain
    simp only [if_true, List.nil_append]
    exact chain.2.congr agree
  · rw [List.concat_eq_append] at *
    simp only [List.getLast?_concat, Option.some.injEq] at agree
    have distinct := chain.nodup
    simp only [List.append_assoc, List.singleton_append] at chain distinct agree
    simp only [List.append_eq_nil_iff, List.cons_ne_self, and_false, if_false, List.append_assoc,
      List.singleton_append]
    have behind : Chain next (next node) back := by
      have fromLast : Chain next (some last) (last :: node :: back) := chain.drop
      exact fromLast.2.2
    refine chain.replaceTail ?_ ?_
    · intro other member
      rw [agree other (by simp [member]), if_neg]
      rintro rfl
      simp only [List.nodup_append, List.mem_cons] at distinct
      exact distinct.2.2 last member last (.inl rfl) rfl
    · rw [agree last (by simp), if_pos rfl]
      refine behind.congr fun other member => ?_
      rw [agree other (by simp [member]), if_neg]
      rintro rfl
      simp [List.nodup_append, member] at distinct

end Update

end Chain

namespace BackChain

variable {prev : Node → Option Node}

theorem congr {prev' : Node → Option Node} {before : Option Node} {nodes : List Node}
    (chain : BackChain prev before nodes) (agree : ∀ node ∈ nodes, prev' node = prev node) :
    BackChain prev' before nodes := by
  induction nodes generalizing before with
  | nil => trivial
  | cons node rest ih =>
      refine ⟨?_, ih chain.2 (fun other member => agree other (by simp [member]))⟩
      rw [agree node (by simp)]
      exact chain.1

theorem link_eq {before : Option Node} {front : List Node} {node : Node} {back : List Node}
    (chain : BackChain prev before (front ++ node :: back)) :
    prev node = front.getLast?.or before := by
  induction front generalizing before with
  | nil => simpa using chain.1
  | cons first rest ih =>
      rw [ih chain.2]
      cases rest with
      | nil => simp
      | cons second others => simp [List.getLast?_cons]

/-- Unlink a node: the one behind it now points back at the one before it. -/
theorem unlink [DecidableEq Node] {prev' : Node → Option Node} {before : Option Node}
    {front : List Node} {node : Node}
    {back : List Node} (chain : BackChain prev before (front ++ node :: back))
    (distinct : (front ++ node :: back).Nodup)
    (agree : ∀ other ∈ front ++ back,
      prev' other = if back.head? = some other then prev node else prev other) :
    BackChain prev' before (front ++ back) := by
  induction front generalizing before with
  | nil =>
      cases back with
      | nil => trivial
      | cons first rest =>
          simp only [List.nil_append, List.nodup_cons, List.head?_cons, Option.some.injEq]
            at distinct agree
          refine ⟨?_, chain.2.2.congr fun other member => ?_⟩
          · rw [agree first (by simp), if_pos rfl]
            exact chain.1
          · rw [agree other (by simp [member]), if_neg]
            rintro rfl
            exact distinct.2.1 member
  | cons first rest ih =>
      simp only [List.cons_append, List.nodup_cons, List.mem_append, List.mem_cons] at distinct
      refine ⟨?_, ih chain.2 distinct.2 fun other member =>
        agree other (by simp at member ⊢; tauto)⟩
      rw [agree first (by simp), if_neg]
      · exact chain.1
      · intro head
        have member : first ∈ back := List.mem_of_mem_head? head
        exact distinct.1 (.inr (.inr member))

end BackChain

end SocksProxy
