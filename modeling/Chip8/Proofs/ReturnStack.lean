import Chip8.ReturnStack
import Mathlib.Tactic.SplitIfs

/-!
# The return stack as a list

A stack that holds a list of at most sixteen addresses is pushed and popped like
the list, at its end (`push?_ofList`, `pop?_ofList_concat`). Pushing fails on a
list of sixteen addresses only, and popping on the empty list only.

`Holds` says the same without the stack that is built from a list: the pointer
counts the numbers of the list, which fill the slots from the first on and are
followed by zeros. A stack answers every list of requests as the list that it
holds does, and goes on holding what is left of it (`performAll_holds`).
-/

namespace Chip8.ReturnStack

variable {l : List UInt16} {a : UInt16}

theorem getD_concat (i : Nat) :
    (l ++ [a]).getD i 0 = if l.length = i then a else l.getD i 0 := by
  rw [List.getD_eq_getElem?_getD, List.getD_eq_getElem?_getD]
  -- before the end of `l`, at the end, and past it
  rcases Nat.lt_trichotomy i l.length with h | h | h
  · rw [if_neg (by omega), List.getElem?_append_left h]
  · rw [if_pos h.symm, h, List.getElem?_concat_length, Option.getD_some]
  · have hi : (l ++ [a]).length ≤ i := by rwa [List.length_append]
    rw [if_neg (by omega), List.getElem?_eq_none hi, List.getElem?_eq_none (by omega)]

/-- At most one slot is written: the one at the place of the index. -/
theorem getElem_write {slots : Vector UInt16 16} {p : Int} {i : Nat} (hi : i < 16) :
    (write slots p a)[i] = if place p = i then a else slots[i] := by
  by_cases hp : place p < 0
  · have hne : place p ≠ i := by omega
    simp only [write, if_pos hp, if_neg hne]
  · have hiff : (place p).toNat = i ↔ place p = i := by omega
    simp only [write, if_neg hp, Vector.getElem_setIfInBounds hi, hiff]

theorem place_of_nonneg {p : Int} (hp : 0 ≤ p) : place p = p :=
  if_neg (Int.not_lt.2 hp)

/-! ### When pushing and popping fail -/

theorem pop?_eq_none_iff {s : ReturnStack} : s.pop? = none ↔ s.pointer ≤ 0 := by
  rw [pop?]
  split_ifs with h
  · simp [h]
  · simpa using h

theorem push?_eq_none_iff {s : ReturnStack} {b : Int} :
    s.push? b = none ↔ capacity ≤ s.pointer := by
  rw [push?]
  split_ifs with h
  · simpa using h
  · simpa using h

/-! ### Well-formed stacks -/

/-- The slots hold addresses of twelve bits, and zero where they are not in use. -/
structure WellFormed (s : ReturnStack) : Prop where
  pointer_nonneg : 0 ≤ s.pointer
  pointer_le : s.pointer ≤ capacity
  slot_le : ∀ i (hi : i < 16), s.slots[i].toNat ≤ 0xFFF
  slot_eq_zero : ∀ (i : Nat) (hi : i < 16), s.pointer ≤ i → s.slots[i] = 0

theorem wellFormed_empty : empty.WellFormed where
  pointer_nonneg := Int.le_refl 0
  pointer_le := by decide
  slot_le i hi := by simp [empty]
  slot_eq_zero i hi _ := by simp [empty]

/-- What is pushed of an address: its low twelve bits. -/
theorem toNat_masked (b : Int) : (UInt16.ofInt (b % 4096)).toNat = (b % 4096).toNat := by
  have h : b % 4096 % 2 ^ 16 = b % 4096 := by omega
  have hlt : (b % 4096).toNat < 65536 := by omega
  rw [UInt16.ofInt, h, UInt16.toNat_ofNat_of_lt' hlt]

theorem WellFormed.push? {s t : ReturnStack} {b : Int} (hs : s.WellFormed)
    (h : s.push? b = some t) : t.WellFormed := by
  rw [ReturnStack.push?] at h
  have hnonneg := hs.pointer_nonneg
  split_ifs at h with hp
  cases h
  refine ⟨Int.le_trans hnonneg (Int.le_of_lt (Int.lt_succ _)), hp, ?_, ?_⟩
  · intro i hi
    rw [getElem_write hi, place_of_nonneg hnonneg]
    split_ifs
    · rw [toNat_masked]
      omega
    · exact hs.slot_le i hi
  · intro i hi hle
    have hlt : s.pointer < i := hle
    rw [getElem_write hi, place_of_nonneg hnonneg, if_neg (Int.ne_of_lt hlt)]
    exact hs.slot_eq_zero i hi (Int.le_of_lt hlt)

theorem WellFormed.pop? {s t : ReturnStack} {a : UInt16} (hs : s.WellFormed)
    (h : s.pop? = some (a, t)) : t.WellFormed ∧ a.toNat ≤ 0xFFF := by
  have hle := hs.pointer_le
  rw [ReturnStack.pop?] at h
  split_ifs at h with hp
  cases h
  have hnonneg : 0 ≤ s.pointer - 1 := Int.le_sub_one_of_lt hp
  refine ⟨⟨hnonneg, Int.le_trans (Int.le_of_lt (Int.sub_one_lt_of_le (Int.le_refl _))) hle, ?_, ?_⟩,
    hs.slot_le _ _⟩
  · intro i hi
    rw [getElem_write hi, place_of_nonneg hnonneg]
    split_ifs
    · exact Nat.zero_le _
    · exact hs.slot_le i hi
  · intro i hi hle
    have hpi : s.pointer - 1 ≤ i := hle
    rw [getElem_write hi, place_of_nonneg hnonneg]
    -- the slot that is popped is cleared, and those above it were clear before
    split_ifs
    · rfl
    · exact hs.slot_eq_zero i hi (by omega)

/-! ### Stacks that hold a list -/

theorem empty_eq_ofList : empty = ofList [] := by
  refine ReturnStack.ext (Vector.ext ?_) rfl
  intro i hi
  simp [empty, ofList]

@[simp]
theorem pointer_ofList : (ofList l).pointer = l.length := rfl

@[simp]
theorem getElem_slots_ofList {i : Nat} (hi : i < 16) : (ofList l).slots[i] = l.getD i 0 := by
  simp [ofList]

theorem push?_ofList (b : Int) :
    (ofList l).push? b =
      if l.length < 16 then some (ofList (l ++ [.ofInt (b % 4096)])) else none := by
  simp only [push?, pointer_ofList, capacity, Int.ofNat_lt]
  split_ifs with hl
  · refine congrArg some (ReturnStack.ext (Vector.ext ?_) (by simp))
    intro i hi
    rw [getElem_write hi, place_of_nonneg (Int.natCast_nonneg _), getElem_slots_ofList,
      getElem_slots_ofList, getD_concat]
    simp only [Int.ofNat_inj]
  · rfl

theorem pop?_ofList_nil : (ofList []).pop? = none := rfl

theorem pop?_ofList_concat (hl : l.length < 16) :
    (ofList (l ++ [a])).pop? = some (a, ofList l) := by
  have hpointer : (ofList (l ++ [a])).pointer - 1 = l.length := by simp
  have hmin : min l.length 15 = l.length := by omega
  rw [pop?, if_pos (by omega)]
  simp only [hpointer, Int.toNat_natCast, hmin]
  refine congrArg some (Prod.ext ?_ (ReturnStack.ext (Vector.ext ?_) rfl))
  · rw [getElem_slots_ofList, getD_concat, if_pos rfl]
  · intro i hi
    rw [getElem_write hi, place_of_nonneg (Int.natCast_nonneg _), getElem_slots_ofList,
      getElem_slots_ofList, getD_concat]
    simp only [Int.ofNat_inj]
    split_ifs with hi
    · simp [← hi]
    · rfl

/-! ### Stacks as lists of numbers -/

/-- The stack holds the numbers `l`, oldest first: its pointer counts them, and its
    slots are these numbers followed by zeros. -/
structure Holds (s : ReturnStack) (l : List Nat) : Prop where
  length_le : l.length ≤ capacity
  pointer : s.pointer = l.length
  slots : s.slots.toList.map UInt16.toNat = l ++ .replicate (capacity - l.length) 0

theorem toList_slots_ofList (hl : l.length ≤ capacity) :
    (ofList l).slots.toList = l ++ .replicate (capacity - l.length) 0 := by
  refine List.ext_getElem ?_ fun i hi hi' => ?_
  · rw [Vector.length_toList, List.length_append, List.length_replicate]
    exact (Nat.add_sub_cancel' hl).symm
  · rw [Vector.length_toList] at hi
    rw [Vector.getElem_toList, getElem_slots_ofList, List.getD_eq_getElem?_getD]
    by_cases h : i < l.length
    · rw [List.getElem_append_left h, List.getElem?_eq_getElem h, Option.getD_some]
    · rw [List.getElem_append_right (by omega), List.getElem_replicate,
        List.getElem?_eq_none (by omega), Option.getD_none]

theorem holds_iff {s : ReturnStack} {k : List Nat} :
    s.Holds k ↔ ∃ l : List UInt16, l.length ≤ capacity ∧ s = ofList l ∧ k = l.map UInt16.toNat := by
  constructor
  · rintro ⟨hle, hp, hs⟩
    have hk : k = (s.slots.toList.take k.length).map UInt16.toNat := by
      rw [List.map_take, hs, List.take_left]
    have hl : (s.slots.toList.take k.length).length = k.length := by
      rw [← List.length_map, ← hk]
    have hlc : (s.slots.toList.take k.length).length ≤ capacity := hl.symm ▸ hle
    have hpointer : s.pointer = (s.slots.toList.take k.length).length := by rw [hl, hp]
    refine ⟨s.slots.toList.take k.length, hlc, ReturnStack.ext ?_ hpointer, hk⟩
    refine Vector.toList_inj.1 ((List.map_inj_right fun _ _ => UInt16.toNat_inj.1).1 ?_)
    rw [toList_slots_ofList hlc, List.map_append, ← hk, List.map_replicate, hl, hs]
    rfl
  · rintro ⟨l, hl, rfl, rfl⟩
    refine ⟨by rwa [List.length_map], by rw [pointer_ofList, List.length_map], ?_⟩
    rw [toList_slots_ofList hl, List.map_append, List.map_replicate, List.length_map]
    rfl

theorem holds_empty : empty.Holds [] :=
  holds_iff.2 ⟨[], Nat.zero_le _, empty_eq_ofList, rfl⟩

theorem Holds.push?_eq_none_iff {s : ReturnStack} {k : List Nat} (h : s.Holds k) (b : Int) :
    s.push? b = none ↔ k.length = capacity := by
  rw [ReturnStack.push?_eq_none_iff, h.pointer, Int.ofNat_le]
  exact ⟨fun hle => Nat.le_antisymm h.length_le hle, fun he => Nat.le_of_eq he.symm⟩

/-- Pushing puts the low twelve bits of the address at the end of the list. -/
theorem Holds.push? {s t : ReturnStack} {k : List Nat} {b : Int} (h : s.Holds k)
    (hp : s.push? b = some t) : k.length < capacity ∧ t.Holds (k ++ [(b % 4096).toNat]) := by
  obtain ⟨l, -, rfl, rfl⟩ := holds_iff.1 h
  rw [push?_ofList] at hp
  split_ifs at hp with hl
  have ht : t.Holds ((l ++ [UInt16.ofInt (b % 4096)]).map UInt16.toNat) :=
    holds_iff.2 ⟨_, by rw [List.length_append]; exact hl, (Option.some.inj hp).symm, rfl⟩
  rw [List.map_append, List.map_singleton, toNat_masked] at ht
  exact ⟨by rwa [List.length_map], ht⟩

/-- Popping takes the end of the list. -/
theorem Holds.pop? {s t : ReturnStack} {k : List Nat} (h : s.Holds k) (hp : s.pop? = some (a, t)) :
    ∃ j, k = j ++ [a.toNat] ∧ t.Holds j := by
  obtain ⟨l, hl, rfl, rfl⟩ := holds_iff.1 h
  rcases List.eq_nil_or_concat l with rfl | ⟨j, b, rfl⟩
  · rw [pop?_ofList_nil] at hp
    cases hp
  · rw [List.concat_eq_append] at hp hl ⊢
    rw [List.length_append] at hl
    rw [pop?_ofList_concat hl] at hp
    cases hp
    refine ⟨j.map UInt16.toNat, ?_, holds_iff.2 ⟨j, Nat.le_of_lt hl, rfl, rfl⟩⟩
    rw [List.map_append, List.map_singleton]

/-! ### Histories of requests -/

/-- What a request does to a list of at most sixteen numbers. -/
def performList (k : List Nat) : Request → Reply × List Nat
  | .push a =>
    if k.length < capacity then (.pushed false, k ++ [(a % 4096).toNat]) else (.pushed true, k)
  | .pop =>
    match k.getLast? with
    | some a => (.popped (.ofNat a) false, k.dropLast)
    | none => (.popped 0 true, k)

/-- The replies to a list of requests, in order, and what is left after them. -/
def performAll {σ : Type} (f : σ → Request → Reply × σ) (s : σ) : List Request → List Reply × σ
  | [] => ([], s)
  | r :: rs => ((f s r).1 :: (performAll f (f s r).2 rs).1, (performAll f (f s r).2 rs).2)

theorem perform_holds {s : ReturnStack} {k : List Nat} (h : s.Holds k) (r : Request) :
    (s.perform r).1 = (performList k r).1 ∧ (s.perform r).2.Holds (performList k r).2 := by
  cases r with
  | push b =>
    rw [perform, performList]
    cases hp : s.push? b with
    | some t =>
      obtain ⟨hlt, ht⟩ := h.push? hp
      rw [if_pos hlt]
      exact ⟨rfl, ht⟩
    | none =>
      have hfull := (h.push?_eq_none_iff b).1 hp
      rw [if_neg (by omega)]
      exact ⟨rfl, h⟩
  | pop =>
    rw [perform, performList]
    cases hp : s.pop? with
    | some p =>
      obtain ⟨a, t⟩ := p
      obtain ⟨j, rfl, ht⟩ := h.pop? hp
      rw [List.getLast?_concat, List.dropLast_concat]
      refine ⟨?_, ht⟩
      simp only [UInt16.ofNat_toNat]
    | none =>
      have h0 := pop?_eq_none_iff.1 hp
      rw [h.pointer] at h0
      obtain rfl : k = [] := List.length_eq_zero_iff.1 (Int.natCast_nonpos_iff.1 h0)
      exact ⟨rfl, h⟩

/-- A stack answers every list of requests as the list that it holds does. -/
theorem performAll_holds {s : ReturnStack} {k : List Nat} (h : s.Holds k) (rs : List Request) :
    (performAll perform s rs).1 = (performAll performList k rs).1 ∧
      (performAll perform s rs).2.Holds (performAll performList k rs).2 := by
  induction rs generalizing s k with
  | nil => exact ⟨rfl, h⟩
  | cons r rs ih =>
    obtain ⟨hreply, hholds⟩ := perform_holds h r
    obtain ⟨hreplies, hend⟩ := ih hholds
    exact ⟨congr (congrArg List.cons hreply) hreplies, hend⟩

end Chip8.ReturnStack
