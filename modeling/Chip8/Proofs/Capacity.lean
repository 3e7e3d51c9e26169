import Chip8.Capacity
import Mathlib.Algebra.BigOperators.Group.List.Lemmas
import Mathlib.Algebra.Order.BigOperators.GroupWithZero.List
import Mathlib.Algebra.Order.Ring.Int

/-!
# Room for arrays

There is room for an array all of whose axes have elements exactly if its bytes, the product
of its extents and of the bytes of an element, are within the limit of memory
(`reserve_eq_ok_iff`). The signed numbers in which extents and bytes are kept reach
beyond that limit, so they refuse nothing that memory would hold, and an axis that is
repeated within the limit is as long as it should be (`repeated_of_isSigned`).
-/

namespace Chip8.Capacity

variable {cap : Capacity} {bytes n : Nat} {l : List Int}

theorem bind_eq_ok_iff {α β : Type} {x : Except Refusal α} {g : α → Except Refusal β} {b : β} :
    x >>= g = .ok b ↔ ∃ a, x = .ok a ∧ g a = .ok b := by
  constructor
  · intro h
    cases x with
    | error e => cases h
    | ok a => exact ⟨a, rfl, h⟩
  · rintro ⟨a, rfl, h⟩
    exact h

theorem isSigned_mono {a b : Int} (ha : 0 ≤ a) (hab : a ≤ b) (hb : isSigned 64 b = true) :
    isSigned 64 a = true := by
  have hpow : Int.pow 2 (64 - 1) = 2 ^ 63 := rfl
  rw [isSigned_iff, hpow] at hb ⊢
  omega

theorem isSigned_natCast {a : Nat} (h : a < 2 ^ 63) : isSigned 64 a = true := by
  have hpow : Int.pow 2 (64 - 1) = 2 ^ 63 := rfl
  rw [isSigned_iff, hpow]
  omega

theorem isSigned_limit (cap : Capacity) : isSigned 64 cap.limit = true :=
  isSigned_natCast cap.limit_lt

theorem isSigned_of_le {a : Int} (ha : 0 ≤ a) (h : a ≤ cap.limit) : isSigned 64 a = true :=
  isSigned_mono ha h cap.isSigned_limit

/-- An axis that is as long as a signed number can tell is repeated as often as asked for. -/
theorem repeated_of_isSigned {a count : Int} (hcount : isSigned 64 count = true)
    (h : isSigned 64 (a * count) = true) : repeated a count = .ok (a * count) := by
  have hpow : Int.pow 2 (64 - 1) = 2 ^ 63 := rfl
  have hmodulus : Nat.pow 2 64 = 2 ^ 64 := rfl
  rw [isSigned_iff, hpow] at h
  rw [repeated, if_pos hcount, hmodulus, Int.bmod_eq_of_le_mul_two (by omega) (by omega)]

theorem isSigned_of_repeated {a count b : Int} (h : repeated a count = .ok b) :
    isSigned 64 count = true := by
  rw [repeated] at h
  split at h
  · assumption
  · cases h

theorem eq_of_repeated {a count b : Int} (h : repeated a count = .ok b)
    (hs : isSigned 64 (a * count) = true) : b = a * count :=
  Except.ok.inj (h.symm.trans (repeated_of_isSigned (isSigned_of_repeated h) hs))

theorem repeated_one_eq_ok_iff {count b : Int} :
    repeated 1 count = .ok b ↔ isSigned 64 count = true ∧ b = count := by
  have hone (h : isSigned 64 count = true) : repeated 1 count = .ok count := by
    rw [repeated_of_isSigned h ((one_mul count).symm ▸ h), one_mul]
  constructor
  · intro h
    have hcount := isSigned_of_repeated h
    exact ⟨hcount, Except.ok.inj (h.symm.trans (hone hcount))⟩
  · rintro ⟨h, rfl⟩
    exact hone h

/-! ### Positive extents -/

/-- Every axis has elements. -/
def Filled (l : List Int) : Prop :=
  ∀ e ∈ l, 0 < e

@[simp]
theorem filled_nil : Filled [] :=
  List.forall_mem_nil _

@[simp]
theorem filled_cons {e : Int} : Filled (e :: l) ↔ 0 < e ∧ Filled l :=
  List.forall_mem_cons

theorem Filled.prod_pos (h : Filled l) : 0 < l.prod :=
  List.prod_pos h

theorem measure_cons {e : Int} (he : 0 < e) (bytes : Nat) (l : List Int) :
    measure bytes (e :: l) =
      if isSigned 64 (bytes * e) then measure (bytes * e.toNat) l else .error .size := by
  rw [measure, if_neg (Int.not_lt.2 he.le), if_neg he.ne']

/-- A measured array has as many bytes as its extents tell. -/
theorem natCast_of_measure (hl : Filled l) (h : measure bytes l = .ok n) :
    (n : Int) = bytes * l.prod := by
  induction l generalizing bytes with
  | nil =>
    rw [List.prod_nil, mul_one]
    exact congrArg Nat.cast (Except.ok.inj h).symm
  | cons e l ih =>
    obtain ⟨he, hrest⟩ := filled_cons.1 hl
    rw [measure_cons he] at h
    split at h
    · rw [ih hrest h, List.prod_cons, Nat.cast_mul,
        Int.toNat_of_nonneg he.le, mul_assoc]
    · cases h

theorem measure_of_le (hl : Filled l) (h : bytes * l.prod ≤ cap.limit) :
    ∃ n, measure bytes l = .ok n := by
  induction l generalizing bytes with
  | nil => exact ⟨bytes, rfl⟩
  | cons e l ih =>
    obtain ⟨he, hrest⟩ := filled_cons.1 hl
    have hbytes : 0 ≤ bytes * e := mul_nonneg (Int.natCast_nonneg bytes) he.le
    rw [List.prod_cons, ← mul_assoc] at h
    -- the other extents only make the array larger
    have hle : bytes * e ≤ cap.limit :=
      (le_mul_of_one_le_right hbytes hrest.prod_pos).trans h
    rw [measure_cons he, if_pos (isSigned_of_le hbytes hle)]
    refine ih hrest ?_
    rwa [Nat.cast_mul, Int.toNat_of_nonneg he.le]

theorem reserve_eq_ok {extents : List Int} (h : cap.reserve bytes l = .ok extents) :
    extents = l ∧ (∀ e ∈ l, isSigned 64 e = true) ∧ ∃ n ≤ cap.limit, measure bytes l = .ok n := by
  rw [reserve] at h
  split at h
  · next hall =>
    split at h
    · cases h
    · next n hn =>
      split at h
      · next hle => exact ⟨(Except.ok.inj h).symm, List.all_eq_true.1 hall, n, hle, hn⟩
      · cases h
  · cases h

theorem isSigned_of_reserve {extents : List Int} (h : cap.reserve bytes l = .ok extents)
    {e : Int} (he : e ∈ l) : isSigned 64 e = true :=
  (reserve_eq_ok h).2.1 e he

theorem reserve_eq_ok_iff (hbytes : 0 < bytes) (hl : Filled l) :
    cap.reserve bytes l = .ok l ↔ bytes * l.prod ≤ cap.limit := by
  constructor
  · intro h
    obtain ⟨-, -, n, hn, hm⟩ := reserve_eq_ok h
    exact natCast_of_measure hl hm ▸ Int.ofNat_le.2 hn
  · intro h
    have hprod : l.prod ≤ cap.limit :=
      (le_mul_of_one_le_left hl.prod_pos.le (Int.ofNat_le.2 hbytes)).trans h
    have hextents : l.all (isSigned 64) = true := by
      rw [List.all_eq_true]
      intro e he
      have hle : e ≤ l.prod := Int.le_of_dvd hl.prod_pos (List.dvd_prod he)
      exact isSigned_of_le (hl e he).le (hle.trans hprod)
    obtain ⟨n, hn⟩ := measure_of_le hl h
    have hle : n ≤ cap.limit := Int.ofNat_le.1 (natCast_of_measure hl hn ▸ h)
    rw [reserve, if_pos hextents, hn]
    exact if_pos hle

/-- Where there is room for an array, there is room for a smaller one. -/
theorem reserve_of_prod_le {l' : List Int} (hbytes : 0 < bytes) (hl : Filled l) (hl' : Filled l')
    (hle : l.prod ≤ l'.prod) (h : cap.reserve bytes l' = .ok l') :
    cap.reserve bytes l = .ok l := by
  rw [reserve_eq_ok_iff hbytes hl]
  exact (mul_le_mul_of_nonneg_left hle (Int.natCast_nonneg bytes)).trans
    ((reserve_eq_ok_iff hbytes hl').1 h)

end Chip8.Capacity
