import Chip8.Instruction.Fields
import Mathlib.Data.Int.Bitwise
import Mathlib.Data.Int.ModEq

/-!
# Fields of an integer

The fields are cut out of the two's complement of an integer by shifts and masks, whatever
its sign and its size (`ofInt_cut`): a shift rounds down, and a mask of `k` ones leaves the
remainder modulo `2 ^ k`, of a negative integer too (`land_two_pow_sub_one`).

The fields overlap as the positions of one number do, so the high part and the three
nibbles give the integer back (`join_ofInt`), and any choice of them is that of an integer
(`ofInt_join`). Decoding thus loses nothing and leaves nothing out (`ofInt_lossless`).
-/

namespace Chip8.Fields

/-! ### Shifts and masks -/

/-- The fields are cut out of the two's complement of `w`. -/
structure Cut (f : Fields) (w : Int) : Prop where
  raw : f.raw = w
  opcode : f.opcode = w >>> (12 : Nat)
  x : (f.x : Int) = Int.land (w >>> (8 : Nat)) 0xF
  y : (f.y : Int) = Int.land (w >>> (4 : Nat)) 0xF
  n : (f.n : Int) = Int.land w 0xF
  nn : (f.nn : Int) = Int.land w 0xFF
  nnn : (f.nnn : Int) = Int.land w 0xFFF

theorem ldiff_two_pow_sub_one (m k : Nat) : Nat.ldiff (2 ^ k - 1) m = 2 ^ k - (m % 2 ^ k + 1) := by
  have hm : m % 2 ^ k < 2 ^ k := Nat.mod_lt m (Nat.two_pow_pos k)
  refine Nat.eq_of_testBit_eq fun i => ?_
  rw [Nat.testBit_ldiff, Nat.testBit_two_pow_sub_one, Nat.testBit_two_pow_sub_succ hm,
    Nat.testBit_mod_two_pow]
  cases decide (i < k) <;> rfl

/-- A mask of `k` ones leaves the remainder modulo `2 ^ k`. -/
theorem land_two_pow_sub_one (w : Int) (k : Nat) :
    Int.land w (2 ^ k - 1 : Nat) = w % (2 ^ k : Nat) := by
  cases w with
  | ofNat m => exact congrArg Int.ofNat (Nat.and_two_pow_sub_one_eq_mod m k)
  | negSucc m =>
    -- the bits of a negative integer are those that `m` lacks
    have hland : Int.land (Int.negSucc m) (2 ^ k - 1 : Nat) = (Nat.ldiff (2 ^ k - 1) m : Nat) := rfl
    have hpos : 0 < 2 ^ k := Nat.two_pow_pos k
    have hm : m % 2 ^ k < 2 ^ k := Nat.mod_lt m hpos
    rw [hland, ldiff_two_pow_sub_one, Int.negSucc_emod m (Int.natCast_pos.2 hpos)]
    omega

/-- The field of `k` bits above the low `s`. -/
theorem land_shiftRight (w : Int) (s k : Nat) :
    Int.land (w >>> s) (2 ^ k - 1 : Nat) = w / (2 ^ s : Nat) % (2 ^ k : Nat) := by
  rw [land_two_pow_sub_one, Int.shiftRight_eq_div_pow]

theorem ofInt_cut (w : Int) : (ofInt w).Cut w where
  raw := rfl
  opcode := (Int.shiftRight_eq_div_pow w 12).symm
  x := (Int.toNat_of_nonneg (by omega)).trans (land_shiftRight w 8 4).symm
  y := (Int.toNat_of_nonneg (by omega)).trans (land_shiftRight w 4 4).symm
  n := (Int.toNat_of_nonneg (by omega)).trans (land_two_pow_sub_one w 4).symm
  nn := (Int.toNat_of_nonneg (by omega)).trans (land_two_pow_sub_one w 8).symm
  nnn := (Int.toNat_of_nonneg (by omega)).trans (land_two_pow_sub_one w 12).symm

/-! ### Positions -/

/-- The integer with the high part `c` and the nibbles `x`, `y` and `n`. -/
def join (c : Int) (x y n : Fin 16) : Int :=
  4096 * c + 256 * x + 16 * y + n

theorem join_ofInt (w : Int) : join (ofInt w).opcode (ofInt w).x (ofInt w).y (ofInt w).n = w := by
  simp only [join, ofInt]
  omega

theorem ofInt_join (c : Int) (x y n : Fin 16) :
    (ofInt (join c x y n)).opcode = c ∧ (ofInt (join c x y n)).x = x ∧
      (ofInt (join c x y n)).y = y ∧ (ofInt (join c x y n)).n = n := by
  simp only [join, ofInt, Fin.ext_iff]
  omega

/-- The nibbles make up the remainder modulo 4096. -/
theorem emod_eq_nibbles (w : Int) :
    w % 4096 = 256 * (ofInt w).x + 16 * (ofInt w).y + (ofInt w).n := by
  simp only [ofInt]
  omega

theorem nibbles_eq_iff (v w : Int) :
    ((ofInt v).x = (ofInt w).x ∧ (ofInt v).y = (ofInt w).y ∧ (ofInt v).n = (ofInt w).n) ↔
      v ≡ w [ZMOD 4096] := by
  rw [Int.ModEq, emod_eq_nibbles v, emod_eq_nibbles w]
  constructor
  · rintro ⟨hx, hy, hn⟩
    rw [hx, hy, hn]
  · -- the digits of a number in base 16 are unique
    simp only [Fin.ext_iff]
    omega

/-- The fields of any integer, negative or of any size, are shifts and masks of its two's
    complement. The high part may be any integer, the others are natural numbers in their
    ranges. They make up the integer: the high part stands above the low twelve bits, the
    second nibble above the low byte, and the third above the last. So the nibbles of two
    integers are equal exactly if the integers are equal modulo 4096, and any three nibbles
    stand with any high part in exactly one integer. -/
theorem ofInt_lossless :
    (∀ w : Int,
        let f := ofInt w
        f.Cut w ∧
          (f.x.val ≤ 15 ∧ f.y.val ≤ 15 ∧ f.n.val ≤ 15 ∧ f.nn.val ≤ 255 ∧ f.nnn.val ≤ 4095) ∧
          f.raw = 4096 * f.opcode + f.nnn ∧ f.nnn.val = 256 * f.x + f.nn ∧
          f.nn.val = 16 * f.y + f.n) ∧
      (∀ v w : Int,
        ((ofInt v).x = (ofInt w).x ∧ (ofInt v).y = (ofInt w).y ∧ (ofInt v).n = (ofInt w).n) ↔
          v ≡ w [ZMOD 4096]) ∧
      ∀ (c : Int) (x y n : Fin 16),
        ∃! w, (ofInt w).opcode = c ∧ (ofInt w).x = x ∧ (ofInt w).y = y ∧ (ofInt w).n = n := by
  refine ⟨fun w => ⟨ofInt_cut w, ?_, ?_⟩, nibbles_eq_iff, fun c x y n => ?_⟩
  · omega
  · simp only [ofInt]
    omega
  · refine ⟨join c x y n, ofInt_join c x y n, ?_⟩
    rintro w ⟨rfl, rfl, rfl, rfl⟩
    exact (join_ofInt w).symm

/-- The high part of a negative integer is negative, and its nibbles are not. -/
example : (ofInt (-2)).opcode = -1 ∧ (ofInt (-2)).nnn = 0xFFE := by
  decide

end Chip8.Fields
