import Mathlib.Data.List.Basic
import SocksProxy.Shared.SelectorTable

/-!
# The selector in its memory

`selector_register`, `selector_set_interest` and `selector_unregister_fd` check a
descriptor against `FD_SETSIZE` and not against the size of the array, and
`selector_register` makes room only above it. Whether that is safe depends on the
capacity the selector was made with. Where it is, the table does what the map of
items in `Selector` does, which is what the rest of the development relies on.

One judgement carries both halves: from every valid table a program tracks its
counterpart on the map, and if the array has an item for every descriptor it does
not fault but where its counterpart does, for a misuse that memory has nothing to
do with.
-/

namespace SocksProxy

open Prog

/-! ## Capacity -/

namespace FdSelector

theorem lt_two_pow_bitCount (n : Nat) : n < 2 ^ bitCount n := by
  induction n using Nat.strong_induction_on with
  | h n ih =>
      unfold bitCount
      split
      · next zero => simp [zero]
      · next positive =>
          have half := ih (n / 2) (by omega)
          rw [pow_succ]
          omega

theorem bitCount_le {n k : Nat} (small : n < 2 ^ k) : bitCount n ≤ k := by
  induction k generalizing n with
  | zero =>
      have none : n = 0 := by simpa using small
      rw [none, bitCount, if_pos rfl]
  | succ k ih =>
      unfold bitCount
      split
      · exact Nat.zero_le _
      · rw [pow_succ] at small
        exact Nat.succ_le_succ (ih (by omega))

theorem nextCapacity_eq (n : Nat) : nextCapacity n = min (2 ^ bitCount n) ITEMS_MAX_SIZE + 1 := by
  unfold nextCapacity
  split <;> omega

theorem lt_nextCapacity {n : Nat} (bounded : n ≤ ITEMS_MAX_SIZE) : n < nextCapacity n := by
  have enough := lt_two_pow_bitCount n
  rw [nextCapacity_eq]
  omega

/-- From half of the descriptors on, the array has an item for each of them. -/
theorem nextCapacity_of_half_le {n : Nat} (half : FD_SETSIZE / 2 ≤ n) :
    nextCapacity n = FD_SETSIZE + 1 := by
  have enough := lt_two_pow_bitCount n
  have many : 9 < bitCount n := by
    by_contra few
    have := Nat.pow_le_pow_right (Nat.zero_lt_two) (Nat.not_lt.mp few)
    simp only [FD_SETSIZE] at half
    omega
  have large : 2 ^ 10 ≤ 2 ^ bitCount n := Nat.pow_le_pow_right (Nat.zero_lt_two) many
  rw [nextCapacity_eq, ITEMS_MAX_SIZE, FD_SETSIZE]
  omega

theorem nextCapacity_of_lt_half {n : Nat} (less : n < FD_SETSIZE / 2) :
    nextCapacity n ≤ FD_SETSIZE / 2 + 1 := by
  have few : bitCount n ≤ 9 := bitCount_le (by simpa [FD_SETSIZE] using less)
  have small : 2 ^ bitCount n ≤ 2 ^ 9 := Nat.pow_le_pow_right (Nat.zero_lt_two) few
  rw [nextCapacity_eq, ITEMS_MAX_SIZE, FD_SETSIZE]
  omega

theorem length_itemsInit (contents : Nat → TableItem) (last size : Nat) :
    (itemsInit contents last size).length = size - last := by
  simp [itemsInit]

theorem fd_of_mem_itemsInit {contents : Nat → TableItem} {last size : Nat} {item : TableItem}
    (member : item ∈ itemsInit contents last size) : item.fd = none := by
  rcases List.mem_map.mp member with ⟨i, -, rfl⟩
  rfl

/-! ## Memory -/

/-- The faults there may be: if the table is `safe`, only a misuse that the map knows of as well. -/
def Excused (safe : Prop) (outcome : Except Misuse Selector) (fault : TableFault) : Prop :=
  safe → ∃ how, fault = .misuse how ∧ outcome = .error how

section

variable {safe : Prop} {outcome : Except Misuse Selector} {failed : TableFault → Prop}
  {s : FdSelector} {i moved : Nat} {item : TableItem}

theorem wpOr_load {post : TableItem → FdSelector → Prop}
    (fresh : safe → moved = s.moved ∧ i < s.fds.length)
    (next : ∀ item, moved = s.moved → s.fds[i]? = some item → post item s) :
    wpOr (Excused safe outcome) (load ⟨i, moved⟩) post s := by
  simp only [load, wpOr_bind, wpOr_get, wpOr_ite, wpOr_throw]
  split
  · next moves => exact fun condition => absurd (fresh condition).1 moves
  · next stays =>
      split
      · next absent =>
          simp only [wpOr_throw]
          exact fun condition => absurd (fresh condition).2 (by simpa using absent)
      · next item found => exact (wpOr_pure ..).mpr (next item (not_not.mp stays) found)

theorem wpOr_store {post : Unit → FdSelector → Prop} (same : moved = s.moved)
    (inside : i < s.fds.length) (next : post () { s with fds := s.fds.set i item }) :
    wpOr failed (store ⟨i, moved⟩ item) post s := by
  simp only [store, wpOr_bind, wpOr_get, wpOr_ite, wpOr_throw, wpOr_modify]
  rw [if_neg (by simpa using same), if_neg (Nat.not_le.mpr inside)]
  exact next

end

/-! ## The invariant -/

/-- What the masks must say about an item. -/
def waitsFor (direction : Interest → Bool) (item : TableItem) : Bool :=
  item.fd.isSome && direction item.interest

/-- An item in use holds its own number. -/
def OwnNumber (i : Nat) (item : TableItem) : Prop :=
  ∀ fd, item.fd = some fd → fd = i ∧ item.owner.isSome

/-- Every item in use holds its own number, the masks are those of the items in use, and none of
them is above the highest descriptor, which is one of them or zero. -/
structure Valid (s : FdSelector) : Prop where
  own : ∀ i (item : TableItem), s.fds[i]? = some item → OwnNumber i item
  masterR : ∀ fd, s.masterR fd = (s.fds[fd]?).any (waitsFor Interest.read)
  masterW : ∀ fd, s.masterW fd = (s.fds[fd]?).any (waitsFor Interest.write)
  high : ∀ i (item : TableItem), s.fds[i]? = some item → item.fd.isSome → i ≤ s.maxFd
  attained : s.maxFd = 0 ∨ ∃ item : TableItem, s.fds[s.maxFd]? = some item ∧ item.fd.isSome
  inside : s.maxFd < s.fds.length

/-- There is an item for every descriptor. -/
def Roomy (s : FdSelector) : Prop := FD_SETSIZE < s.fds.length

/-- There is an item for every descriptor, and for every job that waits. -/
structure Ready (s : FdSelector) : Prop where
  roomy : s.Roomy
  jobs : ∀ fd ∈ s.resolutionJobs, 0 ≤ fd ∧ fd < FD_SETSIZE

/-- An item that is in use or waits for nothing. Memory that was never written is not like this. -/
def Quiet (item : TableItem) : Prop := item.fd.isSome ∨ item.interest = OP_NOOP

/-- The array does not shrink, does not move if it has an item for every descriptor, and an item
that is given up waits for nothing. -/
structure Extends (s s' : FdSelector) : Prop where
  grown : s.fds.length ≤ s'.fds.length
  unmoved : s.Roomy → s'.moved = s.moved
  quiet : ∀ (i : Nat) (item item' : TableItem), s.fds[i]? = some item →
    s'.fds[i]? = some item' → Quiet item → Quiet item'

theorem Extends.refl (s : FdSelector) : Extends s s := by
  refine ⟨Nat.le_refl _, fun _ => rfl, fun i item item' before after quiet => ?_⟩
  rw [before] at after
  exact Option.some.inj after ▸ quiet

theorem Extends.roomy {s s' : FdSelector} (extend : Extends s s') (roomy : s.Roomy) : s'.Roomy :=
  Nat.lt_of_lt_of_le roomy extend.grown

theorem Extends.getElem? {s s' : FdSelector} (extend : Extends s s') {i : Nat} {item : TableItem}
    (found : s.fds[i]? = some item) : ∃ item', s'.fds[i]? = some item' := by
  have inside := (List.getElem?_eq_some_iff.mp found).1
  exact ⟨_, List.getElem?_eq_getElem (Nat.lt_of_lt_of_le inside extend.grown)⟩

theorem Extends.trans {s s' s'' : FdSelector} (first : Extends s s') (second : Extends s' s'') :
    Extends s s'' := by
  refine ⟨first.grown.trans second.grown, fun roomy =>
    (second.unmoved (first.roomy roomy)).trans (first.unmoved roomy), ?_⟩
  intro i item item'' before after quiet
  rcases first.getElem? before with ⟨item', middle⟩
  exact second.quiet i item' item'' middle after (first.quiet i item item' before middle quiet)

/-- The item as the map has it. -/
def item? (item : TableItem) : Option Item :=
  match item.fd, item.owner with
  | some _, some owner => some ⟨item.interest, owner⟩
  | _, _ => none

/-- The map of items a table stands for. -/
def toSelector (s : FdSelector) : Selector where
  items := fun fd => s.fds[fd]?.bind item?
  maxFd := s.maxFd
  resolutionJobs := s.resolutionJobs.map Int.toNat
  resolutionLocked := s.resolutionLocked

@[simp]
theorem toSelector_maxFd (s : FdSelector) : s.toSelector.maxFd = s.maxFd := rfl

/-- An item is replaced, with the masks, and the highest descriptor is set. -/
def replace (s : FdSelector) (i : Nat) (item : TableItem) (maxFd : Nat) : FdSelector :=
  { s with
    fds := s.fds.set i item
    masterR := Function.update s.masterR i (waitsFor Interest.read item)
    masterW := Function.update s.masterW i (waitsFor Interest.write item)
    maxFd }

section

variable {s : FdSelector} {i maxFd : Nat} {item : TableItem}

theorem getElem?_set_eq_some {fds : List TableItem} {other : TableItem} {j : Nat}
    (found : (fds.set i item)[j]? = some other) :
    (j = i ∧ other = item) ∨ (j ≠ i ∧ fds[j]? = some other) := by
  rcases eq_or_ne j i with rfl | differs
  · rw [List.getElem?_set_self'] at found
    rcases Option.map_eq_some_iff.mp found with ⟨-, -, rfl⟩
    exact .inl ⟨rfl, rfl⟩
  · rw [List.getElem?_set_ne differs.symm] at found
    exact .inr ⟨differs, found⟩

theorem Valid.mask_replace {mask : Fd → Bool} {direction : Interest → Bool}
    (masked : ∀ fd, mask fd = (s.fds[fd]?).any (waitsFor direction)) (inside : i < s.fds.length)
    (fd : Fd) : Function.update mask i (waitsFor direction item) fd =
      ((s.fds.set i item)[fd]?).any (waitsFor direction) := by
  rcases eq_or_ne fd i with rfl | differs
  · rw [Function.update_self, List.getElem?_set_self inside, Option.any_some]
  · rw [Function.update_of_ne differs, List.getElem?_set_ne differs.symm, masked]

theorem Valid.own_set (valid : s.Valid) (own : OwnNumber i item) (j : Nat) (other : TableItem)
    (found : (s.fds.set i item)[j]? = some other) : OwnNumber j other := by
  rcases getElem?_set_eq_some found with ⟨rfl, rfl⟩ | ⟨-, kept⟩
  · exact own
  · exact valid.own j other kept

theorem Valid.replace (valid : s.Valid) (inside : i < s.fds.length) (own : OwnNumber i item)
    (high : ∀ j other, (s.fds.set i item)[j]? = some other → other.fd.isSome → j ≤ maxFd)
    (attained : maxFd = 0 ∨ ∃ other, (s.fds.set i item)[maxFd]? = some other ∧ other.fd.isSome)
    (below : maxFd < s.fds.length) : (s.replace i item maxFd).Valid where
  own := valid.own_set own
  masterR := Valid.mask_replace valid.masterR inside
  masterW := Valid.mask_replace valid.masterW inside
  high := high
  attained := attained
  inside := by simpa [FdSelector.replace] using below

theorem Extends.replace (quiet : Quiet item) : Extends s (s.replace i item maxFd) := by
  refine ⟨by simp [FdSelector.replace], fun _ => rfl, fun j before after found later kept => ?_⟩
  rcases getElem?_set_eq_some later with ⟨-, rfl⟩ | ⟨-, same⟩
  · exact quiet
  · rw [found] at same
    exact Option.some.inj same ▸ kept

theorem toSelector_replace (inside : i < s.fds.length) :
    (s.replace i item maxFd).toSelector =
      { s.toSelector with
        items := Function.update s.toSelector.items i (item? item)
        maxFd } := by
  unfold toSelector FdSelector.replace
  simp only [Selector.mk.injEq, and_true]
  funext fd
  rcases eq_or_ne fd i with rfl | differs
  · rw [Function.update_self, List.getElem?_set_self inside, Option.bind_some]
  · rw [Function.update_of_ne differs, List.getElem?_set_ne differs.symm]

theorem OwnNumber.items_eq (own : OwnNumber i item) (found : s.fds[i]? = some item)
    (used : item.fd.isSome) : ∃ owner, item.fd = some i ∧ item.owner = some owner ∧
      s.toSelector.items i = some ⟨item.interest, owner⟩ := by
  rcases Option.isSome_iff_exists.mp used with ⟨fd, has⟩
  rcases own fd has with ⟨rfl, owned⟩
  rcases Option.isSome_iff_exists.mp owned with ⟨owner, owner_eq⟩
  exact ⟨owner, has, owner_eq, by simp [toSelector, found, item?, has, owner_eq]⟩

theorem items_of_unused (found : s.fds[i]? = some item) (unused : ¬item.fd.isSome) :
    s.toSelector.items i = none := by
  have has : item.fd = none := by simpa using unused
  simp [toSelector, found, item?, has]

theorem items_of_absent (absent : s.fds[i]? = none) : s.toSelector.items i = none := by
  simp [toSelector, absent]

theorem OwnNumber.isSome_items (own : OwnNumber i item) (found : s.fds[i]? = some item) :
    (s.toSelector.items i).isSome = item.fd.isSome := by
  by_cases used : item.fd.isSome
  · rcases own.items_eq found used with ⟨owner, -, -, items⟩
    rw [items, used, Option.isSome_some]
  · rw [items_of_unused found used, Option.isSome_none]
    simpa using used

theorem Valid.any_items (valid : s.Valid) (direction : Interest → Bool) (fd : Fd) :
    ((s.toSelector.items fd).any fun item => direction item.interest) =
      (s.fds[fd]?).any (waitsFor direction) := by
  cases found : s.fds[fd]? with
  | none => simp [toSelector, found]
  | some item =>
      by_cases used : item.fd.isSome
      · rcases (valid.own fd item found).items_eq found used with ⟨owner, -, -, items⟩
        rw [items, Option.any_some, Option.any_some, waitsFor, used, Bool.true_and]
      · rw [items_of_unused found used, Option.any_none, Option.any_some, waitsFor]
        simp only [Bool.not_eq_true] at used
        rw [used, Bool.false_and]

end

/-! ## Calls -/

/-- What programs are to do to the map. -/
abbrev Step := Selector → Except Misuse Selector

/-- The table after a program that is to change the map as `step` says, if it is `legal`. -/
structure Tracks (legal : Prop) (step : Step) (s s' : FdSelector) : Prop where
  valid : s'.Valid
  extend : Extends s s'
  agrees : legal → s.Ready → s'.Ready ∧ step s.toSelector = .ok s'.toSelector

/-- From every valid table the program tracks `step`; if it is legal and the table is ready for it,
it stays in its memory. -/
def Implements {α : Type} (legal : Prop) (program : TableM α) (step : Step) : Prop :=
  ∀ s : FdSelector, s.Valid → wpOr (Excused (legal ∧ s.Ready) (step s.toSelector)) program
    (fun _ => Tracks legal step s) s

section

variable {legal legal' : Prop} {first second step : Step} {s s' s'' : FdSelector}

theorem Tracks.refl (valid : s.Valid) : Tracks legal .ok s s :=
  ⟨valid, .refl s, fun _ ready => ⟨ready, rfl⟩⟩

theorem Tracks.trans (before : Tracks legal first s s') (after : Tracks legal second s' s'') :
    Tracks legal (fun a => first a >>= second) s s'' where
  valid := after.valid
  extend := before.extend.trans after.extend
  agrees := fun allowed ready => by
    rcases before.agrees allowed ready with ⟨ready', moved⟩
    rw [moved]
    exact after.agrees allowed ready'

theorem Tracks.congr (tracks : Tracks legal first s s')
    (same : legal → s.Ready → first s.toSelector = second s.toSelector) :
    Tracks legal second s s' :=
  ⟨tracks.valid, tracks.extend, fun allowed ready =>
    ⟨(tracks.agrees allowed ready).1,
      (same allowed ready).symm.trans (tracks.agrees allowed ready).2⟩⟩

theorem Excused.congr {safe : Prop} {outcome outcome' : Except Misuse Selector}
    {fault : TableFault} (excused : Excused safe outcome fault)
    (same : safe → outcome = outcome') : Excused safe outcome' fault := fun condition => by
  rw [← same condition]
  exact excused condition

/-- A fault of a program that goes on from where another has tracked a step. -/
theorem Excused.later {fault : TableFault} (before : Tracks legal first s s')
    (excused : Excused (legal ∧ s'.Ready) (second s'.toSelector) fault) :
    Excused (legal ∧ s.Ready) (first s.toSelector >>= second) fault := by
  rintro ⟨allowed, ready⟩
  rcases before.agrees allowed ready with ⟨ready', moved⟩
  rw [moved]
  exact excused ⟨allowed, ready'⟩

/-- A fault of a program before which nothing else was done to the map. -/
theorem Excused.bind {safe : Prop} {outcome : Except Misuse Selector} {fault : TableFault}
    (excused : Excused safe outcome fault) : Excused safe (outcome >>= second) fault := by
  intro condition
  rcases excused condition with ⟨how, same, failed⟩
  exact ⟨how, same, by rw [failed]; rfl⟩

/-- A program that goes on from where another has tracked a step. -/
theorem Tracks.next {α : Type} {program : TableM α} (before : Tracks legal first s s')
    (implements : Implements legal program second) :
    wpOr (Excused (legal ∧ s.Ready) (first s.toSelector >>= second)) program
      (fun _ => Tracks legal (fun a => first a >>= second) s) s' :=
  wpOr_mono (implements s' before.valid) (fun _ _ after => before.trans after)
    fun _ excused => excused.later before

theorem Implements.mono {α : Type} {program : TableM α} (implements : Implements legal program step)
    (stronger : legal' → legal) : Implements legal' program step := by
  intro s valid
  refine wpOr_mono (implements s valid) (fun _ _ tracks => ?_) fun _ excused allowed =>
    excused ⟨stronger allowed.1, allowed.2⟩
  exact ⟨tracks.valid, tracks.extend, fun allowed => tracks.agrees (stronger allowed)⟩

theorem Implements.bind {α β : Type} {program : TableM α} {later : α → TableM β}
    (begins : Implements legal program first)
    (continues : ∀ value, Implements legal (later value) second) :
    Implements legal (program >>= later) fun a => first a >>= second := by
  intro s valid
  rw [wpOr_bind]
  exact wpOr_mono (begins s valid) (fun value _ before => before.next (continues value))
    fun _ => Excused.bind

theorem Implements.pure {α : Type} (value : α) : Implements legal (pure value : TableM α) .ok :=
  fun _ valid => (wpOr_pure ..).mpr (.refl valid)

end

section

variable {s : FdSelector} {fd : Int} {interest : Interest} {owner : Owner}

theorem toNat_lt_of_invalidFd (checked : ¬invalidFd fd = true) : fd.toNat < FD_SETSIZE := by
  simp only [invalidFd, Bool.or_eq_true, decide_eq_true_eq, not_or] at checked
  exact Nat.not_le.mp checked.2

theorem Valid.grow {fresh : List TableItem} {moved : Nat} (valid : s.Valid)
    (unused : ∀ item ∈ fresh, item.fd = none) :
    Valid { s with fds := s.fds ++ fresh, moved } := by
  have old : ∀ (i : Nat) (item : TableItem), (s.fds ++ fresh)[i]? = some item → item.fd.isSome →
      s.fds[i]? = some item := by
    intro i item found used
    rcases Nat.lt_or_ge i s.fds.length with inside | beyond
    · rwa [List.getElem?_append_left inside] at found
    · rw [List.getElem?_append_right beyond] at found
      rw [unused item (List.mem_of_getElem? found)] at used
      cases used
  have masked : ∀ (direction : Interest → Bool) (fd : Fd),
      (s.fds[fd]?).any (waitsFor direction) = ((s.fds ++ fresh)[fd]?).any (waitsFor direction) := by
    intro direction fd
    rcases Nat.lt_or_ge fd s.fds.length with inside | beyond
    · rw [List.getElem?_append_left inside]
    · rw [List.getElem?_append_right beyond, List.getElem?_eq_none beyond]
      cases found : fresh[fd - s.fds.length]? with
      | none => rfl
      | some item => simp [waitsFor, unused item (List.mem_of_getElem? found)]
  refine ⟨?_, fun fd => (valid.masterR fd).trans (masked _ fd), fun fd =>
    (valid.masterW fd).trans (masked _ fd), ?_, ?_, ?_⟩
  · intro i item found fd has
    exact valid.own i item (old i item found (by simp [has])) fd has
  · exact fun i item found used => valid.high i item (old i item found used) used
  · refine valid.attained.imp_right ?_
    rintro ⟨item, found, used⟩
    exact ⟨item, by rw [List.getElem?_append_left valid.inside]; exact found, used⟩
  · exact Nat.lt_of_lt_of_le valid.inside (by simp)

/-- `ensure_capacity` makes room or says that it has not; it is not asked to where there is an item
for every descriptor. -/
theorem wpOr_ensureCapacity {failed : TableFault → Prop} {n : Nat} {memory : Memory}
    (valid : s.Valid) (full : s.fds.length ≤ n) :
    wpOr failed (ensureCapacity n memory) (fun status s' => s'.Valid ∧ Extends s s' ∧
      (status = .success → n < s'.fds.length)) s := by
  simp only [ensureCapacity, wpOr_bind, wpOr_get, wpOr_ite, wpOr_pure]
  rw [if_neg (Nat.not_lt.mpr full)]
  split
  · exact ⟨valid, .refl s, SelectorStatus.noConfusion⟩
  · next bounded =>
      cases memory with
      | none => exact ⟨valid, .refl s, SelectorStatus.noConfusion⟩
      | some contents =>
          have more := lt_nextCapacity (Nat.not_lt.mp bounded)
          have kept : s.fds.take (nextCapacity n) = s.fds :=
            List.take_of_length_le (by omega)
          simp only [wpOr_bind, wpOr_modify, wpOr_pure, kept]
          refine ⟨valid.grow fun item => fd_of_mem_itemsInit,
            ⟨by simp, fun roomy => ?_, fun i item item' before after quiet => ?_⟩, fun _ => ?_⟩
          · simp only [Roomy, ITEMS_MAX_SIZE] at roomy bounded
            omega
          · rw [List.getElem?_append_left (List.getElem?_eq_some_iff.mp before).1, before] at after
            exact Option.some.inj after ▸ quiet
          · rw [List.length_append, length_itemsInit]
            omega

/-- A table in which only items were replaced is ready for what it was ready for. -/
theorem Ready.of_extends {s' : FdSelector} (ready : s.Ready) (extend : Extends s s')
    (jobs : s'.resolutionJobs = s.resolutionJobs) : s'.Ready :=
  ⟨extend.roomy ready.roomy, by rw [jobs]; exact ready.jobs⟩

/-- Replacing one item tracks the corresponding change of the map. -/
theorem tracks_replace {legal : Prop} {i : Nat} {item : TableItem} {maxFd : Nat} {step : Step}
    (valid : (s.replace i item maxFd).Valid) (inside : i < s.fds.length) (quiet : Quiet item)
    (agrees : s.Roomy → step s.toSelector = .ok { s.toSelector with
      items := Function.update s.toSelector.items i (item? item)
      maxFd }) : Tracks legal step s (s.replace i item maxFd) := by
  refine ⟨valid, .replace quiet, fun _ ready => ⟨ready.of_extends (.replace quiet) rfl, ?_⟩⟩
  rw [toSelector_replace inside]
  exact agrees ready.roomy

/-- An item in use was stored, and the masks are brought up to date. -/
theorem update_eq_replace {i : Nat} (item : TableItem) (has : item.fd = some i) :
    itemsUpdateFdsetForFd { s with fds := s.fds.set i item } item = s.replace i item s.maxFd := by
  simp only [itemsUpdateFdsetForFd, has, FdSelector.replace, waitsFor, Option.isSome_some,
    Bool.true_and]

theorem Valid.register {i : Nat} {item : TableItem} (valid : s.Valid)
    (found : s.fds[i]? = some item) (interest : Interest) (owner : Owner) :
    (s.replace i ⟨some i, interest, some owner⟩ (if s.maxFd < i then i else s.maxFd)).Valid := by
  have inside : i < s.fds.length := (List.getElem?_eq_some_iff.mp found).1
  refine valid.replace inside ?_ ?_ ?_ ?_
  · rintro fd ⟨⟩
    exact ⟨rfl, rfl⟩
  · intro j other has used
    rcases getElem?_set_eq_some has with ⟨rfl, -⟩ | ⟨-, kept⟩
    · split <;> omega
    · have below := valid.high j other kept used
      split <;> omega
  · split
    · exact .inr ⟨_, List.getElem?_set_self inside, rfl⟩
    · refine valid.attained.imp_right ?_
      rintro ⟨other, has, used⟩
      rcases eq_or_ne s.maxFd i with same | differs
      · exact ⟨_, by rw [same, List.getElem?_set_self inside], rfl⟩
      · exact ⟨other, by rw [List.getElem?_set_ne differs.symm]; exact has, used⟩
  · split
    · exact inside
    · exact valid.inside

theorem Valid.setInterest {i : Nat} {item : TableItem} (valid : s.Valid)
    (found : s.fds[i]? = some item) (interest : Interest) :
    (s.replace i { item with interest } s.maxFd).Valid := by
  have inside : i < s.fds.length := (List.getElem?_eq_some_iff.mp found).1
  refine valid.replace inside (valid.own i item found) ?_ ?_ valid.inside
  · intro j other has used
    rcases getElem?_set_eq_some has with ⟨rfl, rfl⟩ | ⟨-, kept⟩
    · exact valid.high j item found used
    · exact valid.high j other kept used
  · refine valid.attained.imp_right ?_
    rintro ⟨other, has, used⟩
    rcases eq_or_ne s.maxFd i with same | differs
    · rw [same, found] at has
      cases has
      exact ⟨{ item with interest }, by rw [same, List.getElem?_set_self inside], used⟩
    · exact ⟨other, by rw [List.getElem?_set_ne differs.symm]; exact has, used⟩

theorem implements_selectorSetInterest (fd : Int) (interest : Interest) :
    Implements True (selectorSetInterest fd interest) fun a =>
      .ok (if invalidFd fd then a else (a.setInterest fd.toNat interest).getD a) := by
  intro s valid
  simp only [selectorSetInterest, wpOr_ite, wpOr_pure]
  split
  · exact .refl valid
  · next checked =>
      have small := toNat_lt_of_invalidFd checked
      simp only [itemAt, wpOr_bind, wpOr_get, wpOr_pure]
      refine wpOr_load (fun safe => ⟨rfl, Nat.lt_trans small safe.2.roomy⟩)
        fun item _ found => ?_
      rw [wpOr_ite]
      split
      · next used =>
          have inside : fd.toNat < s.fds.length := (List.getElem?_eq_some_iff.mp found).1
          rcases (valid.own _ item found).items_eq found used with ⟨owner, has, owned, items⟩
          rw [wpOr_bind]
          refine wpOr_store rfl inside ?_
          simp only [wpOr_bind, wpOr_modify, wpOr_pure]
          rw [update_eq_replace { item with interest } has]
          refine tracks_replace (valid.setInterest found interest) inside (.inl used) fun _ => ?_
          simp [Selector.setInterest, Nat.not_le.mpr small, items, item?, has, owned]
      · next unused =>
          refine ⟨valid, .refl s, fun _ ready => ⟨ready, ?_⟩⟩
          simp [Selector.setInterest, items_of_unused found unused]

theorem wpOr_registerItem {safe : Prop} {outcome : Except Misuse Selector} {i : Nat} (step : Step)
    (valid : s.Valid) (reached : safe → i < s.fds.length)
    (agrees : s.Roomy → step s.toSelector =
      .ok ((s.toSelector.register i interest owner).getD s.toSelector))
    (small : i < FD_SETSIZE) :
    wpOr (Excused safe outcome) (registerItem i interest owner) (fun _ => Tracks True step s)
      s := by
  simp only [registerItem, itemAt, wpOr_bind, wpOr_get, wpOr_pure]
  refine wpOr_load (fun condition => ⟨rfl, reached condition⟩) fun item _ found => ?_
  rw [wpOr_ite]
  split
  · next used =>
      rcases (valid.own i item found).items_eq found used with ⟨owner, -, -, items⟩
      refine (wpOr_pure ..).mpr ⟨valid, .refl s, fun _ ready => ⟨ready, ?_⟩⟩
      rw [agrees ready.roomy, Selector.register, if_neg (Nat.not_le.mpr small), items,
        Option.getD_none]
  · next unused =>
      have inside : i < s.fds.length := (List.getElem?_eq_some_iff.mp found).1
      rw [wpOr_bind]
      refine wpOr_store rfl inside ?_
      simp only [wpOr_bind, wpOr_modify, wpOr_pure]
      refine tracks_replace (valid.register found interest owner) inside (.inl rfl)
        fun roomy => ?_
      rw [agrees roomy, Selector.register, if_neg (Nat.not_le.mpr small),
        items_of_unused found unused]
      have highest : (if s.maxFd < i then i else s.maxFd) = max s.maxFd i := by
        split <;> omega
      simp [item?, highest]

theorem implements_selectorRegister (fd : Int) (handler : Option Owner) (interest : Interest)
    (memory : Memory) : Implements True (selectorRegister fd handler interest memory) fun a =>
      .ok (Selector.registerFor fd interest a handler) := by
  intro s valid
  cases handler with
  | none => exact .refl valid
  | some owner =>
      simp only [selectorRegister, Selector.registerFor, wpOr_ite, wpOr_pure]
      split
      · exact .refl valid
      · next checked =>
          have small := toNat_lt_of_invalidFd checked
          simp only [makeRoom, wpOr_bind, wpOr_get, wpOr_ite, wpOr_pure]
          split
          · next above =>
              -- The array would not have to grow if there were an item for every descriptor.
              have cramped : ¬s.Ready := fun ready => by
                have roomy := ready.roomy
                simp only [Roomy] at roomy
                omega
              refine wpOr_mono (wpOr_ensureCapacity valid (Nat.le_of_lt above)) ?_ fun _ => id
              rintro status s' ⟨valid', extend, -⟩
              split
              · refine wpOr_mono (wpOr_registerItem
                  (fun a => .ok ((a.register fd.toNat interest owner).getD a)) valid'
                  (fun safe => absurd safe.2 cramped) (fun _ => rfl) small)
                  (fun _ _ tracks => ?_) fun _ => id
                exact ⟨tracks.valid, extend.trans tracks.extend, fun _ ready =>
                  absurd ready cramped⟩
              · exact ⟨valid', extend, fun _ ready => absurd ready cramped⟩
          · rw [if_pos trivial]
            exact wpOr_registerItem _ valid (fun safe => Nat.lt_trans small safe.2.roomy)
              (fun _ => rfl) small

theorem foldl_max_spec (test : Nat → Bool) (numbers : List Nat) (start : Nat) :
    let highest := numbers.foldl (fun m i => if test i then max m i else m) start
    start ≤ highest ∧ (∀ i ∈ numbers, test i = true → i ≤ highest) ∧
      (highest = start ∨ highest ∈ numbers ∧ test highest = true) := by
  induction numbers generalizing start with
  | nil => simp
  | cons i numbers ih =>
      rcases ih (if test i then max start i else start) with ⟨above, upper, attained⟩
      simp only [List.foldl_cons]
      refine ⟨?_, ?_, ?_⟩
      · exact Nat.le_trans (by split <;> omega) above
      · intro j member passed
        rcases List.mem_cons.mp member with rfl | later
        · rw [if_pos passed] at above ⊢
          omega
        · exact upper j later passed
      · rcases attained with same | ⟨member, passed⟩
        · rw [same]
          split
          · next passed =>
              rcases Nat.le_total start i with le | ge
              · exact .inr ⟨by simp [Nat.max_eq_right le], by rwa [Nat.max_eq_right le]⟩
              · exact .inl (Nat.max_eq_left ge)
          · exact .inl rfl
        · exact .inr ⟨List.mem_cons_of_mem _ member, passed⟩

theorem wpOr_itemsMaxFdFrom {safe : Prop} {outcome : Except Misuse Selector}
    {numbers : List Nat} {start : Nat}
    {post : Nat → FdSelector → Prop}
    (own : ∀ i (item : TableItem), s.fds[i]? = some item → OwnNumber i item)
    (inside : ∀ i ∈ numbers, i < s.fds.length)
    (holds : post (numbers.foldl (fun m i =>
      if (s.toSelector.items i).isSome then max m i else m) start) s) :
    wpOr (Excused safe outcome) (itemsMaxFdFrom numbers start) post s := by
  induction numbers generalizing start with
  | nil => exact holds
  | cons i numbers ih =>
      simp only [itemsMaxFdFrom, itemAt, wpOr_bind, wpOr_get, wpOr_pure]
      refine wpOr_load (fun _ => ⟨rfl, inside i List.mem_cons_self⟩) fun item _ found => ?_
      refine ih (fun j later => inside j (List.mem_cons_of_mem _ later)) ?_
      rw [List.foldl_cons] at holds
      have same : higher start item.fd =
          if (s.toSelector.items i).isSome then max start i else start := by
        rw [(own i item found).isSome_items found]
        cases has : item.fd with
        | none => rfl
        | some fd =>
            obtain ⟨rfl, -⟩ := own i item found fd has
            simp only [higher, Option.isSome_some, if_true]
            split <;> omega
      rw [same]
      exact holds

/-- The item of a descriptor is given up. -/
def cleared (s : FdSelector) (i : Nat) : FdSelector :=
  s.replace i ⟨none, OP_NOOP, none⟩ s.maxFd

theorem itemsUpdateFdsetForFd_frame (s : FdSelector) (item : TableItem) :
    (s.itemsUpdateFdsetForFd item).fds = s.fds ∧
      (s.itemsUpdateFdsetForFd item).moved = s.moved := by
  unfold itemsUpdateFdsetForFd
  split <;> exact ⟨rfl, rfl⟩

theorem update_eq_cleared {i : Nat} {item : TableItem} (valid : s.Valid)
    (found : s.fds[i]? = some item) :
    (let item := { item with interest := OP_NOOP }
     let armed := itemsUpdateFdsetForFd { s with fds := s.fds.set i item } item
     { armed with fds := armed.fds.set i ⟨none, OP_NOOP, none⟩ }) = s.cleared i := by
  cases has : item.fd with
  | some fd =>
      obtain ⟨rfl, -⟩ := valid.own i item found fd has
      simp [itemsUpdateFdsetForFd, cleared, FdSelector.replace, waitsFor, OP_NOOP]
  | none =>
      -- The item was given up by the close handler itself, and so were its bits in the masks.
      have read : s.masterR i = false := by
        rw [valid.masterR, found, Option.any_some, waitsFor, has]
        rfl
      have write : s.masterW i = false := by
        rw [valid.masterW, found, Option.any_some, waitsFor, has]
        rfl
      have unread : Function.update s.masterR i false = s.masterR := by
        rw [← read, Function.update_eq_self]
      have unwritten : Function.update s.masterW i false = s.masterW := by
        rw [← write, Function.update_eq_self]
      simp [itemsUpdateFdsetForFd, cleared, FdSelector.replace, waitsFor, unread, unwritten]

theorem wpOr_clearItem {safe : Prop} {outcome : Except Misuse Selector} {i moved : Nat}
    {post : Unit → FdSelector → Prop}
    (valid : s.Valid) (fresh : safe → moved = s.moved ∧ i < s.fds.length)
    (next : i < s.fds.length → post () (s.cleared i)) :
    wpOr (Excused safe outcome) (clearItem ⟨i, moved⟩) post s := by
  rw [clearItem, wpOr_bind]
  refine wpOr_load fresh fun item same found => ?_
  have inside : i < s.fds.length := (List.getElem?_eq_some_iff.mp found).1
  rw [wpOr_bind]
  refine wpOr_store same inside ?_
  rw [wpOr_bind, wpOr_modify]
  have frame := itemsUpdateFdsetForFd_frame
    { s with fds := s.fds.set i { item with interest := OP_NOOP } }
    { item with interest := OP_NOOP }
  refine wpOr_store (same.trans frame.2.symm) ?_ ?_
  · rw [frame.1, List.length_set]
    exact inside
  · rw [update_eq_cleared valid found]
    exact next inside

/-- Giving up an item leaves a valid table once the highest descriptor is known again. -/
theorem Valid.clear {i : Nat} (valid : s.Valid) (inside : i < s.fds.length) :
    (s.replace i ⟨none, OP_NOOP, none⟩
      (Selector.itemsMaxFd (s.cleared i).toSelector.items s.maxFd)).Valid := by
  have own : ∀ j other, (s.cleared i).fds[j]? = some other → OwnNumber j other :=
    valid.own_set (by rintro _ ⟨⟩)
  rcases foldl_max_spec (fun j => ((s.cleared i).toSelector.items j).isSome)
    (List.range (s.maxFd + 1)) 0 with ⟨-, upper, attained⟩
  rw [← Selector.itemsMaxFd] at upper attained
  refine valid.replace inside (by rintro _ ⟨⟩) ?_ ?_ ?_
  · intro j other found used
    rcases getElem?_set_eq_some found with ⟨rfl, rfl⟩ | ⟨-, kept⟩
    · cases used
    · have below := valid.high j other kept used
      exact upper j (List.mem_range.mpr (by omega))
        (((own j other found).isSome_items found).trans used)
  · refine attained.imp_right ?_
    generalize Selector.itemsMaxFd (s.cleared i).toSelector.items s.maxFd = highest
    rintro ⟨-, used⟩
    cases found : (s.cleared i).fds[highest]? with
    | none =>
        rw [items_of_absent found] at used
        cases used
    | some other => exact ⟨other, found, ((own _ other found).isSome_items found).symm.trans used⟩
  · have low := valid.inside
    rcases attained with zero | ⟨member, -⟩
    · omega
    · have := List.mem_range.mp member
      omega

theorem toSelector_clear {i : Nat} (inside : i < s.fds.length) :
    (s.replace i ⟨none, OP_NOOP, none⟩
      (Selector.itemsMaxFd (s.cleared i).toSelector.items s.maxFd)).toSelector =
      s.toSelector.clear i := by
  rw [toSelector_replace inside, cleared, toSelector_replace inside]
  rfl

theorem implements_selectorUnregisterFd (fd : Int) {legal : Prop} {handleClose : TableM Unit}
    {step : Step} (closes : Implements legal handleClose step) :
    Implements legal (selectorUnregisterFd fd handleClose) (Selector.unregisterFd fd step) := by
  intro s valid
  simp only [selectorUnregisterFd, wpOr_ite, wpOr_pure]
  split
  · next refused => exact (Tracks.refl valid).congr fun _ _ => (if_pos refused).symm
  · next checked =>
      have small := toNat_lt_of_invalidFd checked
      simp only [itemAt, wpOr_bind, wpOr_get, wpOr_pure]
      refine wpOr_load (fun safe => ⟨rfl, Nat.lt_trans small safe.2.roomy⟩) fun item _ found => ?_
      have used := (valid.own _ item found).isSome_items found
      rw [wpOr_ite]
      split
      · next inUse =>
          have closing : Selector.unregisterFd fd step s.toSelector =
              (step s.toSelector).map fun closed => closed.clear fd.toNat := by
            rw [Selector.unregisterFd, if_neg checked, if_pos (used.trans inUse)]
          rw [wpOr_bind]
          refine wpOr_mono (closes s valid) (fun _ s₁ closed => ?_) fun fault excused safe => ?_
          · rw [wpOr_bind]
            refine wpOr_clearItem closed.valid (fun safe => ⟨(closed.extend.unmoved
              safe.2.roomy).symm, Nat.lt_trans small (closed.extend.roomy safe.2.roomy)⟩)
              fun inside => ?_
            simp only [itemsMaxFd, wpOr_bind, wpOr_get]
            refine wpOr_itemsMaxFdFrom (closed.valid.own_set (by rintro _ ⟨⟩)) ?_ ?_
            · intro j member
              have low := closed.valid.inside
              have := List.mem_range.mp member
              simp only [cleared, FdSelector.replace, List.length_set] at this ⊢
              omega
            · rw [← Selector.itemsMaxFd, wpOr_bind, wpOr_modify, wpOr_pure]
              refine ⟨closed.valid.clear inside, closed.extend.trans (.replace (.inr rfl)),
                fun allowed ready => ?_⟩
              rcases closed.agrees allowed ready with ⟨ready₁, moved⟩
              refine ⟨ready₁.of_extends (.replace (.inr rfl)) rfl, ?_⟩
              rw [closing, moved]
              exact congrArg Except.ok (toSelector_clear inside).symm
          · rcases excused safe with ⟨how, same, failed⟩
            exact ⟨how, same, by rw [closing, failed]; rfl⟩
      · next unused =>
          refine (wpOr_pure ..).mpr ((Tracks.refl valid).congr fun _ _ => ?_)
          rw [Selector.unregisterFd, if_neg checked, if_neg (by rwa [used])]

theorem Valid.jobs (valid : s.Valid) (resolutionJobs : List Int) (resolutionLocked : Bool) :
    Valid { s with resolutionJobs, resolutionLocked } :=
  ⟨valid.own, valid.masterR, valid.masterW, valid.high, valid.attained, valid.inside⟩

theorem Extends.jobs (resolutionJobs : List Int) (resolutionLocked : Bool) :
    Extends s { s with resolutionJobs, resolutionLocked } :=
  ⟨Nat.le_refl _, fun _ => rfl, (Extends.refl s).quiet⟩

theorem implements_selectorNotifyBlock (fd : Int) (allocated : Bool) :
    Implements (0 ≤ fd ∧ fd < FD_SETSIZE) (selectorNotifyBlock fd allocated)
      (Selector.notify fd allocated) := by
  intro s valid
  simp only [selectorNotifyBlock, wpOr_ite, wpOr_pure, wpOr_bind, wpOr_get, wpOr_throw,
    wpOr_modify]
  split
  · next failed => exact (Tracks.refl valid).congr fun _ _ => (if_pos failed).symm
  · next allocated =>
      split
      · next held =>
          refine fun _ => ⟨.deadlock, rfl, ?_⟩
          rw [Selector.notify, if_neg allocated,
            if_pos (show s.toSelector.resolutionLocked from held)]
      · next free =>
          refine ⟨valid.jobs _ _, .jobs _ _, fun allowed ready => ⟨⟨ready.roomy, ?_⟩, ?_⟩⟩
          · exact List.forall_mem_cons.mpr ⟨allowed, ready.jobs⟩
          · rw [Selector.notify, if_neg allocated,
              if_neg (show ¬s.toSelector.resolutionLocked from free)]
            rfl

end

/-! ## Handlers -/

theorem implements_exec (script : Calls) :
    Implements script.InRange (exec script) (Selector.exec script) := by
  induction script with
  | done => exact .pure ()
  | register fd handler interest memory later ih =>
      exact ((implements_selectorRegister fd handler interest memory).mono fun _ => trivial).bind
        fun _ => ih
  | setInterest fd interest later ih =>
      exact ((implements_selectorSetInterest fd interest).mono fun _ => trivial).bind fun _ => ih
  | unregister fd closing later closes ih =>
      exact (implements_selectorUnregisterFd fd (closes.mono And.left)).bind fun _ =>
        ih.mono And.right
  | notifyBlock fd allocated later ih =>
      exact ((implements_selectorNotifyBlock fd allocated).mono And.left).bind fun _ =>
        ih.mono And.right

section

variable {legal : Prop} {s s' : FdSelector} {slaveR slaveW : Fd → Bool}
  {reads writes : HandlerFn}

theorem implements_callHandler {function : HandlerFn} {fd : Fd} {handler data : Owner}
    (scripts : legal → ∀ script, function handler fd data = some script → script.InRange) :
    Implements legal (callHandler function fd (some handler) (some data))
      (Selector.callHandler function fd handler data) := by
  cases handled : function handler fd data with
  | none =>
      intro s valid
      simp only [callHandler, handled, wpOr_throw]
      exact fun _ => ⟨.abort, rfl, by rw [Selector.callHandler, handled]⟩
  | some script =>
      have called : Selector.callHandler function fd handler data = Selector.exec script := by
        funext a
        rw [Selector.callHandler, handled]
      rw [called]
      simp only [callHandler, handled]
      exact (implements_exec script).mono fun allowed => scripts allowed script handled

/-- Where nothing is to be written, the map has nothing to do either. -/
theorem scanWrite_of_idle {a : Selector} {i : Nat} {data : Owner}
    (idle : (slaveW i && (a.items i).any fun item => item.interest.write) = false) :
    Selector.scanWrite slaveW writes i data a = .ok a := by
  rw [Selector.scanWrite]
  cases found : a.items i with
  | none => rfl
  | some item =>
      rw [found, Option.any_some] at idle
      exact if_neg (by rw [idle]; exact Bool.false_ne_true)

/-- The write handler, from where the read handler has left the table. -/
theorem wpOr_scanWrite {step : Step} {i : Nat} {data : Owner} {item : TableItem}
    (scripts : legal → ∀ handler script, writes handler i data = some script → script.InRange)
    (before : Tracks legal step s s') (found : s.fds[i]? = some item) (used : item.fd.isSome) :
    wpOr
      (Excused (legal ∧ s.Ready) (step s.toSelector >>= Selector.scanWrite slaveW writes i data))
      (scanWrite slaveW writes ⟨i, s.moved⟩ i (some data))
      (fun _ => Tracks legal (fun a => step a >>= Selector.scanWrite slaveW writes i data) s)
      s' := by
  have inside := (List.getElem?_eq_some_iff.mp found).1
  -- The map does nothing where the table does nothing.
  have skips : (slaveW i && (s'.toSelector.items i).any fun item => item.interest.write) = false →
      Tracks legal (fun a => step a >>= Selector.scanWrite slaveW writes i data) s s' := by
    intro idle
    refine before.congr fun allowed ready => ?_
    rw [(before.agrees allowed ready).2]
    exact (scanWrite_of_idle idle).symm
  simp only [scanWrite, wpOr_ite, wpOr_bind, wpOr_pure]
  split
  · next writable =>
      refine wpOr_load (fun safe => ⟨(before.extend.unmoved safe.2.roomy).symm,
        Nat.lt_of_lt_of_le inside before.extend.grown⟩) fun item' _ found' => ?_
      have quiet := before.extend.quiet i item item' found found' (.inl used)
      rw [wpOr_ite]
      split
      · next wanted =>
          have inUse : item'.fd.isSome := quiet.resolve_right fun idle => by
            rw [idle] at wanted
            cases wanted
          rcases (before.valid.own i item' found').items_eq found' inUse with
            ⟨handler, -, owned, items⟩
          have same : legal → s.Ready →
              (step s.toSelector >>= Selector.callHandler writes i handler data) =
                (step s.toSelector >>= Selector.scanWrite slaveW writes i data) := by
            intro allowed ready
            rw [(before.agrees allowed ready).2]
            change _ = Selector.scanWrite slaveW writes i data s'.toSelector
            simp only [Selector.scanWrite, items, writable, wanted, Bool.and_self, if_true]
            rfl
          rw [owned]
          exact wpOr_mono (before.next (implements_callHandler fun allowed =>
              scripts allowed handler))
            (fun _ _ after => after.congr same)
            fun _ excused => excused.congr fun safe => same safe.1 safe.2
      · next unwanted =>
          refine (wpOr_pure ..).mpr (skips ?_)
          rw [before.valid.any_items Interest.write, found', Option.any_some, waitsFor,
            Bool.eq_false_of_not_eq_true unwanted, Bool.and_false, Bool.and_false]
  · next unready =>
      exact skips (by rw [Bool.eq_false_of_not_eq_true unready, Bool.false_and])

theorem wpOr_scan {i : Nat}
    (scripts : legal → ∀ handler data script,
      reads handler i data = some script ∨ writes handler i data = some script → script.InRange)
    (valid : s.Valid) (inside : i < s.fds.length) :
    wpOr (Excused (legal ∧ s.Ready) (Selector.scan slaveR slaveW reads writes s.toSelector i))
      (scan slaveR slaveW reads writes i)
      (fun _ => Tracks legal (fun a => Selector.scan slaveR slaveW reads writes a i) s) s := by
  simp only [scan, itemAt, wpOr_bind, wpOr_get, wpOr_pure]
  refine wpOr_load (fun _ => ⟨rfl, inside⟩) fun item _ found => ?_
  cases has : item.fd with
  | none =>
      refine (wpOr_pure ..).mpr ((Tracks.refl valid).congr fun _ _ => ?_)
      rw [Selector.scan, items_of_unused found (by simp [has])]
  | some fd =>
      have used : item.fd.isSome := by simp [has]
      rcases (valid.own i item found).items_eq found used with ⟨owner, own, owned, items⟩
      obtain rfl : fd = i := Option.some.inj (has.symm.trans own)
      have reading := fun allowed script told => scripts allowed owner owner script (.inl told)
      have writing := fun allowed handler script told =>
        scripts allowed handler owner script (.inr told)
      rw [owned, wpOr_ite]
      split
      · next readable =>
          have same : Selector.scan slaveR slaveW reads writes s.toSelector fd =
              (Selector.callHandler reads fd owner owner s.toSelector >>=
                Selector.scanWrite slaveW writes fd owner) := by
            simp only [Selector.scan, items, readable, if_true]
          rw [wpOr_bind, same]
          refine wpOr_mono (implements_callHandler reading s valid) (fun _ _ read => ?_)
            fun _ => Excused.bind
          exact wpOr_mono (wpOr_scanWrite writing read found used)
            (fun _ _ after => after.congr fun _ _ => same.symm) fun _ => id
      · next unready =>
          have same : Selector.scan slaveR slaveW reads writes s.toSelector fd =
              (.ok s.toSelector >>= Selector.scanWrite slaveW writes fd owner) := by
            simp only [Selector.scan, items, unready]
            rfl
          rw [same]
          exact wpOr_mono (wpOr_scanWrite writing (.refl valid) found used)
            (fun _ _ after => after.congr fun _ _ => same.symm) fun _ => id

theorem wpOr_scanAll {numbers : List Nat}
    (scripts : legal → ∀ i handler data script,
      reads handler i data = some script ∨ writes handler i data = some script → script.InRange)
    (valid : s.Valid) (inside : ∀ i ∈ numbers, i < s.fds.length) :
    wpOr (Excused (legal ∧ s.Ready)
        (numbers.foldlM (Selector.scan slaveR slaveW reads writes) s.toSelector))
      (scanAll slaveR slaveW reads writes numbers)
      (fun _ => Tracks legal (fun a =>
        numbers.foldlM (Selector.scan slaveR slaveW reads writes) a) s) s := by
  induction numbers generalizing s with
  | nil => exact .refl valid
  | cons i numbers ih =>
      rw [scanAll, wpOr_bind]
      simp only [List.foldlM_cons]
      refine wpOr_mono (wpOr_scan (fun allowed => scripts allowed i) valid
        (inside i List.mem_cons_self)) (fun _ s' scanned => ?_) fun _ => Excused.bind
      have later : ∀ j ∈ numbers, j < s'.fds.length := fun j member =>
        Nat.lt_of_lt_of_le (inside j (List.mem_cons_of_mem _ member)) scanned.extend.grown
      exact wpOr_mono (ih scanned.valid later) (fun _ _ after => scanned.trans after)
        fun _ excused => excused.later scanned

theorem implements_notifyAll (jobs : List Int) (blocks : List Calls) :
    Implements ((∀ fd ∈ jobs, 0 ≤ fd ∧ fd < FD_SETSIZE) ∧ ∀ script ∈ blocks, script.InRange)
      (notifyAll jobs blocks) (Selector.notifyAll (jobs.map Int.toNat) blocks) := by
  induction jobs generalizing blocks with
  | nil => exact .pure ()
  | cons fd jobs ih =>
      intro s valid
      simp only [List.forall_mem_cons]
      rw [notifyAll, wpOr_ite]
      split
      · next negative =>
          exact fun safe => absurd safe.1.1.1.1 (Int.not_le.mpr negative)
      · simp only [itemAt, wpOr_bind, wpOr_get, wpOr_pure]
        refine wpOr_load (fun safe => ⟨rfl, ?_⟩) fun item _ found => ?_
        · have below := safe.1.1.1.2
          have roomy := safe.2.roomy
          rw [Roomy] at roomy
          omega
        have registered := (valid.own _ item found).isSome_items found
        rw [wpOr_ite]
        split
        · next used =>
            have same : Selector.notifyAll ((fd :: jobs).map Int.toNat) blocks s.toSelector =
                (Selector.exec (blocks.headD .done) s.toSelector >>=
                  Selector.notifyAll (jobs.map Int.toNat) blocks.tail) := by
              rw [List.map_cons, Selector.notifyAll, if_pos (registered.trans used)]
            have head : (∀ script ∈ blocks, script.InRange) →
                (blocks.headD .done).InRange ∧ ∀ script ∈ blocks.tail, script.InRange := by
              cases blocks with
              | nil => exact fun _ => ⟨trivial, by simp⟩
              | cons script blocks => exact List.forall_mem_cons.mp
            have both := ((implements_exec (blocks.headD .done)).mono
              fun (allowed : ((0 ≤ fd ∧ fd < FD_SETSIZE) ∧ ∀ fd ∈ jobs, 0 ≤ fd ∧ fd < FD_SETSIZE) ∧
                ∀ script ∈ blocks, script.InRange) => (head allowed.2).1).bind fun _ =>
              (ih blocks.tail).mono fun allowed => ⟨allowed.1.2, (head allowed.2).2⟩
            rw [same]
            exact wpOr_mono (both s valid) (fun _ _ after => after.congr fun _ _ => same.symm)
              fun _ => id
        · next unused =>
            have same : Selector.notifyAll ((fd :: jobs).map Int.toNat) blocks s.toSelector =
                Selector.notifyAll (jobs.map Int.toNat) blocks s.toSelector := by
              rw [List.map_cons, Selector.notifyAll, if_neg (by rw [registered]; exact unused)]
            rw [same]
            refine wpOr_mono ((ih blocks).mono (fun allowed => ⟨allowed.1.2, allowed.2⟩) s valid)
              (fun _ _ after => after.congr fun _ _ => same.symm) fun _ => id

theorem implements_handleBlockNotifications (blocks : List Calls) :
    Implements (∀ script ∈ blocks, script.InRange) (handleBlockNotifications blocks)
      (Selector.handleBlockNotifications blocks) := by
  intro s valid
  simp only [handleBlockNotifications, wpOr_bind, wpOr_modify, wpOr_get]
  have locked : s.Ready → FdSelector.Ready { s with resolutionLocked := true } :=
    fun ready => ⟨ready.roomy, ready.jobs⟩
  refine wpOr_mono (implements_notifyAll s.resolutionJobs blocks _
    (valid.jobs s.resolutionJobs true)) (fun _ s' notified => ?_) fun fault excused safe => ?_
  · refine ⟨notified.valid.jobs _ _,
      ((Extends.jobs _ true).trans notified.extend).trans (.jobs _ _), fun allowed ready => ?_⟩
    rcases notified.agrees ⟨ready.jobs, allowed⟩ (locked ready) with ⟨ready', moved⟩
    refine ⟨⟨ready'.roomy, by simp⟩, ?_⟩
    rw [Selector.handleBlockNotifications]
    exact congrArg (Except.map _) moved
  · rcases excused ⟨⟨safe.2.jobs, safe.1⟩, locked safe.2⟩ with ⟨how, same, failed⟩
    exact ⟨how, same, congrArg (Except.map _) failed⟩

theorem implements_selectorSelect (polled : Polled) (blocks : List Calls) :
    Implements (SelectorUse.InRange (.select polled blocks)) (selectorSelect polled blocks)
      (Selector.select polled blocks) := by
  intro s valid
  have notifies : ∀ {step : Step} {s' : FdSelector},
      Tracks (SelectorUse.InRange (.select polled blocks)) step s s' →
      wpOr (Excused (SelectorUse.InRange (.select polled blocks) ∧ s.Ready)
          (step s.toSelector >>= Selector.handleBlockNotifications blocks)) (do
        handleBlockNotifications blocks
        pure SelectorStatus.success)
        (fun _ => Tracks (SelectorUse.InRange (.select polled blocks))
          (fun a => step a >>= Selector.handleBlockNotifications blocks) s) s' := by
    intro step s' before
    rw [wpOr_bind]
    exact wpOr_mono (before.next ((implements_handleBlockNotifications blocks).mono And.right))
      (fun _ _ after => (wpOr_pure ..).mpr after) fun _ => id
  rw [selectorSelect, wpOr_bind, wpOr_get]
  cases polled with
  | ready readable writable reads writes =>
      have low := valid.inside
      have asked : Selector.select (.ready readable writable reads writes) blocks s.toSelector =
          ((List.range (s.maxFd + 1)).foldlM (Selector.scan (fun fd => s.masterR fd && readable fd)
            (fun fd => s.masterW fd && writable fd) reads writes) s.toSelector >>=
              Selector.handleBlockNotifications blocks) := by
        simp only [Selector.select, valid.any_items Interest.read, valid.any_items Interest.write,
          valid.masterR, valid.masterW, toSelector_maxFd]
      rw [asked, wpOr_bind, handleIteration, wpOr_bind, wpOr_get]
      refine wpOr_mono (wpOr_scanAll And.left valid fun i member => ?_)
        (fun _ s' scanned => ?_) fun _ => Excused.bind
      · have := List.mem_range.mp member
        omega
      · exact wpOr_mono (notifies scanned) (fun _ _ after => after.congr fun _ _ => asked.symm)
          fun _ => id
  | interrupted => exact notifies (.refl valid)
  | failed => exact .refl valid

theorem implements_run (uses : List SelectorUse) :
    Implements (∀ next ∈ uses, next.InRange) (run uses) fun a => uses.foldlM Selector.use a := by
  induction uses with
  | nil => exact .pure ()
  | cons next uses ih =>
      simp only [List.forall_mem_cons, List.foldlM_cons]
      cases next with
      | calls script =>
          exact ((implements_exec script).mono And.left).bind fun _ => ih.mono And.right
      | select polled blocks =>
          exact ((implements_selectorSelect polled blocks).mono And.left).bind fun _ =>
            ih.mono And.right

end

/-! ## Selectors -/

section

variable {n : Nat} {memory : Memory} {s s' : FdSelector} {uses : List SelectorUse}

theorem selectorNew_eq (n : Nat) (memory : Memory) :
    selectorNew n memory =
      if ITEMS_MAX_SIZE < n then none
      else memory.map fun contents =>
        { zero with fds := itemsInit contents 0 (nextCapacity n), moved := 1 } := by
  unfold selectorNew ensureCapacity
  rw [get_bind_apply, if_neg (show ¬n < (zero : FdSelector).fds.length from Nat.not_lt_zero n)]
  by_cases large : ITEMS_MAX_SIZE < n
  · rw [if_pos large, if_pos large]
    rfl
  · rw [if_neg large, if_neg large]
    cases memory <;> rfl

theorem selectorNew_spec (made : selectorNew n memory = some s) :
    s.Valid ∧ s.fds.length = nextCapacity n ∧ s.toSelector = Selector.empty := by
  rw [selectorNew_eq] at made
  split at made
  · cases made
  · rcases Option.map_eq_some_iff.mp made with ⟨contents, -, rfl⟩
    have unused : ∀ (i : Nat) (item : TableItem),
        (itemsInit contents 0 (nextCapacity n))[i]? = some item → item.fd = none :=
      fun i item found => fd_of_mem_itemsInit (List.mem_of_getElem? found)
    have silent : ∀ (direction : Interest → Bool) (fd : Fd), false =
        ((itemsInit contents 0 (nextCapacity n))[fd]?).any (waitsFor direction) := by
      intro direction fd
      cases found : (itemsInit contents 0 (nextCapacity n))[fd]? with
      | none => rfl
      | some item => simp [waitsFor, unused fd item found]
    have size := length_itemsInit contents 0 (nextCapacity n)
    refine ⟨⟨?_, silent _, silent _, ?_, .inl rfl, ?_⟩, size, ?_⟩
    · intro i item found fd has
      rw [unused i item found] at has
      cases has
    · intro i item found used
      rw [unused i item found] at used
      cases used
    · rw [size, nextCapacity_eq]
      exact Nat.succ_pos _
    · have empty : ∀ fd : Fd, (itemsInit contents 0 (nextCapacity n))[fd]?.bind item? = none := by
        intro fd
        cases found : (itemsInit contents 0 (nextCapacity n))[fd]? with
        | none => rfl
        | some item => simp [item?, unused fd item found]
      simp only [toSelector, zero, empty]
      rfl

theorem ready_of_half_le (made : selectorNew n memory = some s) (half : FD_SETSIZE / 2 ≤ n) :
    s.Ready := by
  rcases selectorNew_spec made with ⟨-, size, empty⟩
  refine ⟨?_, ?_⟩
  · rw [Roomy, size, nextCapacity_of_half_le half]
    exact Nat.lt_succ_self _
  · have none : s.resolutionJobs = [] :=
      List.map_eq_nil_iff.mp (congrArg Selector.resolutionJobs empty)
    simp [none]

/-- Registering the first descriptor the array has no item for leaves the array. -/
theorem register_outside {owner : Owner} {interest : Interest} (small : s.fds.length < FD_SETSIZE) :
    selectorRegister s.fds.length (some owner) interest memory s = .error .outside := by
  have valid : ¬invalidFd (s.fds.length : Int) = true := by
    simp only [invalidFd, Int.toNat_natCast, Bool.or_eq_true, decide_eq_true_eq, not_or]
    exact ⟨by omega, Nat.not_le.mpr small⟩
  -- It is not above the size of the array, so no room is made for it.
  have made : makeRoom s.fds.length memory s = .ok (.success, s) := by
    rw [makeRoom, get_bind_apply, if_neg (Nat.lt_irrefl _)]
    rfl
  have missing : load ⟨s.fds.length, s.moved⟩ s = .error .outside := by
    rw [load, get_bind_apply, if_neg (not_not.mpr rfl), List.getElem?_eq_none (Nat.le_refl _)]
    rfl
  simp only [selectorRegister, if_neg valid, Int.toNat_natCast]
  rw [bind_of_ok made, if_pos rfl, registerItem, itemAt, bind_assoc, get_bind_apply, pure_bind,
    bind_apply, missing]

/-- A notification that is taken for an index in front of the array. -/
def strayNotification : List SelectorUse :=
  [.calls (.notifyBlock (-1) true .done), .select .interrupted []]

/-- As long as only descriptors that there can be are notified of, a selector can be used in every
way without leaving its memory exactly if it was made for at least half of the descriptors there
are, since its array then has an item for each of them. Other notifications make every selector
leave it. -/
theorem stays_in_memory_iff (n : Nat) :
    ((∀ memory s, selectorNew n memory = some s → ∀ uses, (∀ next ∈ uses, next.InRange) →
      ∀ fault, run uses s = .error fault → ∃ how, fault = .misuse how) ↔ FD_SETSIZE / 2 ≤ n) ∧
    ∀ memory s, selectorNew n memory = some s → run strayNotification s = .error .outside := by
  refine ⟨⟨fun safe => ?_, fun half memory s made uses legal fault ran => ?_⟩,
    fun memory s made => ?_⟩
  · by_contra less
    have few := nextCapacity_of_lt_half (Nat.not_le.mp less)
    have bounded : ¬ITEMS_MAX_SIZE < n := by
      rw [ITEMS_MAX_SIZE]
      omega
    cases made : selectorNew n (some fun _ => ⟨none, OP_NOOP, none⟩) with
    | none => simp [selectorNew_eq, bounded] at made
    | some s =>
        have size := (selectorNew_spec made).2.1
        have outside : s.fds.length < FD_SETSIZE := by
          rw [size]
          exact Nat.lt_of_le_of_lt few (by decide)
        have ran : run [.calls (.register s.fds.length (some .other) OP_READ none .done)] s =
            .error .outside := by
          rw [run, exec, bind_apply, bind_apply, register_outside outside]
        have inRange : SelectorUse.InRange
            (.calls (.register s.fds.length (some .other) OP_READ none .done)) := by
          simp [SelectorUse.InRange, Calls.InRange]
        rcases safe _ s made _ (by simpa using inRange) _ ran with ⟨how, other⟩
        cases other
  · have implements := implements_run uses s (selectorNew_spec made).1
    rcases failed_of_wpOr implements ran ⟨legal, ready_of_half_le made half⟩ with ⟨how, same, -⟩
    exact ⟨how, same⟩
  · rw [selectorNew_eq] at made
    split at made
    · cases made
    · rcases Option.map_eq_some_iff.mp made with ⟨contents, -, rfl⟩
      rfl

/-- Where the array has an item for every descriptor, the table is a map of items. Whatever handlers
do, as long as only descriptors that there can be are notified of, the map has what the calls put
there, and `pselect()` is asked for, and handlers are called for, exactly the interests in it; and
the only faults are the misuses that the map knows of as well. -/
theorem table_refines_map (half : FD_SETSIZE / 2 ≤ n) (made : selectorNew n memory = some s)
    (legal : ∀ next ∈ uses, next.InRange) :
    (run uses s).map (fun outcome => outcome.2.toSelector) =
      (uses.foldlM Selector.use .empty).mapError .misuse := by
  rcases selectorNew_spec made with ⟨valid, -, empty⟩
  have ready := ready_of_half_le made half
  have implements := implements_run uses s valid
  rw [empty] at implements
  cases ran : run uses s with
  | ok outcome =>
      have agrees := ((wlp_of_wpOr implements _ _ ran).agrees legal ready).2
      rw [empty] at agrees
      rw [agrees]
      rfl
  | error fault =>
      rcases failed_of_wpOr implements ran ⟨legal, ready⟩ with ⟨how, rfl, misused⟩
      exact congrArg (Except.mapError _) misused.symm

/-- `main()` asks for all the descriptors there are. -/
theorem table_refines_map_for_main :
    ∃ memory s, selectorNew FD_SETSIZE memory = some s ∧ ∀ uses, (∀ next ∈ uses, next.InRange) →
      (run uses s).map (fun outcome => outcome.2.toSelector) =
        (uses.foldlM Selector.use .empty).mapError .misuse := by
  have made : ∃ s, selectorNew FD_SETSIZE (some fun _ => ⟨none, OP_NOOP, none⟩) = some s := by
    rw [selectorNew_eq, if_neg (show ¬ITEMS_MAX_SIZE < FD_SETSIZE from Nat.lt_irrefl _)]
    exact ⟨_, rfl⟩
  rcases made with ⟨s, made⟩
  exact ⟨_, s, made, fun uses legal => table_refines_map (by decide) made legal⟩

/-- However small a selector was made, as long as it stays in its memory the masks have exactly the
interests of the registered descriptors, and the highest of these is known. -/
theorem masks_watch_registered (made : selectorNew n memory = some s)
    (ran : run uses s = .ok ((), s')) :
    (∀ fd, s'.masterR fd = (s'.toSelector.items fd).any fun item => item.interest.read) ∧
    (∀ fd, s'.masterW fd = (s'.toSelector.items fd).any fun item => item.interest.write) ∧
    (∀ fd, (s'.toSelector.items fd).isSome → fd ≤ s'.maxFd) ∧
    (s'.maxFd = 0 ∨ (s'.toSelector.items s'.maxFd).isSome) := by
  rcases selectorNew_spec made with ⟨valid, -, -⟩
  have valid' := (wlp_of_wpOr (implements_run uses s valid) () s' ran).valid
  refine ⟨fun fd => ?_, fun fd => ?_, fun fd registered => ?_, ?_⟩
  · rw [valid'.masterR, valid'.any_items Interest.read]
  · rw [valid'.masterW, valid'.any_items Interest.write]
  · cases found : s'.fds[fd]? with
    | none =>
        rw [items_of_absent found] at registered
        cases registered
    | some item =>
        rw [(valid'.own fd item found).isSome_items found] at registered
        exact valid'.high fd item found registered
  · refine valid'.attained.imp_right ?_
    rintro ⟨item, found, used⟩
    rw [(valid'.own _ item found).isSome_items found, used]

/-- A descriptor for which the array of a selector made for none has to grow. -/
def growing : List SelectorUse :=
  [.calls (.register 5 (some .other) OP_READ (some fun _ => ⟨none, OP_WRITE, none⟩) .done)]

theorem masks_watch_registered_after_growing :
    ∃ s s', selectorNew 0 (some fun _ => ⟨none, OP_NOOP, none⟩) = some s ∧
      run growing s = .ok ((), s') ∧ s.fds.length = 2 ∧ s'.fds.length = 9 ∧
      (s'.toSelector.items 5).isSome ∧ 5 ≤ s'.maxFd := by
  have passed : ((selectorNew 0 (some fun _ => ⟨none, OP_NOOP, none⟩)).any fun s =>
      (run growing s).toOption.any fun outcome => decide (s.fds.length = 2 ∧
        outcome.2.fds.length = 9 ∧ (outcome.2.toSelector.items 5).isSome)) = true := by
    decide +kernel
  rcases Option.any_eq_true _ _ |>.mp passed with ⟨s, made, ran⟩
  rcases Option.any_eq_true _ _ |>.mp ran with ⟨⟨_, s'⟩, ran, passed⟩
  rcases of_decide_eq_true passed with ⟨before, after, registered⟩
  cases ended : run growing s with
  | error fault =>
      rw [ended] at ran
      cases ran
  | ok outcome =>
      rw [ended] at ran
      cases ran
      exact ⟨s, s', made, ended, before, after, registered,
        (masks_watch_registered made ended).2.2.1 5 registered⟩

end

end FdSelector

end SocksProxy
