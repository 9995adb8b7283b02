import Mathlib.Data.List.Nodup
import Mathlib.Tactic.Common

/-!
# Ordered maps of bounded size

A finite map that remembers the order in which its keys came: an association
list with distinct keys, entries that satisfy a validity condition, and a bound
on their number. Adding a key that is there, an invalid entry or one entry too
many is refused, and so is removing a key that is not there.

Keys, values, the validity condition and the bound are arbitrary.
-/

namespace SocksProxy

universe u v

/-- An association list with distinct keys, valid entries and at most `capacity` of them. -/
structure OrderedMap (Key : Type u) (Value : Type v) (Valid : Key → Value → Prop)
    (capacity : Nat) where
  entries : List (Key × Value)
  distinct : (entries.map Prod.fst).Nodup
  valid : ∀ entry ∈ entries, Valid entry.1 entry.2
  length_le : entries.length ≤ capacity

namespace OrderedMap

variable {Key : Type u} {Value : Type v} {Valid : Key → Value → Prop} {capacity : Nat}
  [DecidableEq Key]

/-- The map without entries. -/
def empty : OrderedMap Key Value Valid capacity where
  entries := []
  distinct := List.nodup_nil
  valid := by simp
  length_le := Nat.zero_le _

/-- The keys, in the order in which they came. -/
def keys (m : OrderedMap Key Value Valid capacity) : List Key := m.entries.map Prod.fst

/-- The value of a key. -/
def lookup (m : OrderedMap Key Value Valid capacity) (key : Key) : Option Value :=
  (m.entries.find? fun entry => entry.1 = key).map Prod.snd

/-- Append a valid entry under a new key if there is room. -/
def insert? [∀ key value, Decidable (Valid key value)]
    (m : OrderedMap Key Value Valid capacity) (key : Key) (value : Value) :
    Option (OrderedMap Key Value Valid capacity) :=
  if accepted : Valid key value ∧ m.entries.length < capacity ∧ key ∉ m.keys then
    some
      { entries := m.entries ++ [(key, value)]
        distinct := by
          rw [List.map_append]
          refine m.distinct.append (List.nodup_singleton _) ?_
          exact List.disjoint_singleton.mpr accepted.2.2
        valid := by
          intro entry member
          rcases List.mem_append.mp member with earlier | added
          · exact m.valid entry earlier
          · obtain rfl := List.mem_singleton.mp added
            exact accepted.1
        length_le := by simpa using Nat.succ_le_of_lt accepted.2.1 }
  else none

/-- Remove a key that is there. -/
def erase? (m : OrderedMap Key Value Valid capacity) (key : Key) :
    Option (OrderedMap Key Value Valid capacity) :=
  if key ∈ m.keys then
    some
      { entries := m.entries.filter fun entry => entry.1 ≠ key
        distinct := m.distinct.sublist (List.filter_sublist.map _)
        valid := fun entry member => m.valid entry (List.mem_of_mem_filter member)
        length_le := Nat.le_trans (List.length_filter_le _ _) m.length_le }
  else none

/-- Every entry is what its key is mapped to. -/
theorem lookup_eq_some_iff (m : OrderedMap Key Value Valid capacity) (key : Key) (value : Value) :
    m.lookup key = some value ↔ (key, value) ∈ m.entries := by
  rw [lookup, Option.map_eq_some_iff]
  constructor
  · rintro ⟨⟨key', value'⟩, found, rfl⟩
    have named := List.find?_some found
    simp only [decide_eq_true_eq] at named
    exact named ▸ List.mem_of_find?_eq_some found
  · intro member
    rcases List.append_of_mem member with ⟨front, back, split⟩
    refine ⟨(key, value), List.find?_eq_some_iff_append.mpr ⟨by simp, front, back, split, ?_⟩, rfl⟩
    intro entry earlier
    have distinct := m.distinct
    rw [split, List.map_append, List.nodup_append] at distinct
    have different := distinct.2.2 entry.1 (List.mem_map_of_mem earlier) key (by simp)
    simpa using different

/-- Where the keys are distinct, removing the entry of a key leaves those with other keys. -/
theorem eraseIdx_eq_filter {entries : List (Key × Value)} (distinct : (entries.map Prod.fst).Nodup)
    {i : Nat} (within : i < entries.length) :
    entries.eraseIdx i = entries.filter fun entry => entry.1 ≠ (entries.get ⟨i, within⟩).1 := by
  induction entries generalizing i with
  | nil => simp at within
  | cons entry rest ih =>
      rw [List.map_cons, List.nodup_cons] at distinct
      cases i with
      | zero =>
          have others : ∀ other ∈ rest, decide (other.1 ≠ entry.1) = true := by
            intro other member
            simp only [decide_eq_true_eq]
            intro same
            exact distinct.1 (same ▸ List.mem_map_of_mem member)
          exact (List.filter_cons_of_neg (by simp)).trans (List.filter_eq_self.mpr others) |>.symm
      | succ i =>
          have inside : i < rest.length := by simpa using within
          have different : entry.1 ≠ (rest.get ⟨i, inside⟩).1 := by
            intro same
            exact distinct.1 (same ▸ List.mem_map_of_mem (List.get_mem rest ⟨i, inside⟩))
          rw [List.eraseIdx_cons_succ, ih distinct.2 inside]
          simp only [List.get_cons_succ, List.filter_cons, different, ne_eq, not_false_eq_true,
            decide_true, if_true]

end OrderedMap

end SocksProxy
