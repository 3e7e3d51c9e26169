import Chip8.Instruction.Decode
import Mathlib.Tactic.SplitIfs

/-!
# Encoding and reading instructions

Every instruction has one word, and every word has at most one instruction:
reading the word of an instruction gives the instruction back
(`ofWord?_encode`), and a word that reads as an instruction is the word of it
(`encode_of_ofWord?`). Thus the words that encode nothing are exactly those
that no instruction is encoded by (`ofWord?_eq_none_iff`).
-/

namespace Chip8

namespace Alu

theorem nibble_lt (op : Alu) : op.nibble < 16 := by
  cases op <;> decide

theorem ofNibble?_nibble (op : Alu) : ofNibble? op.nibble = some op := by
  cases op <;> rfl

theorem nibble_of_ofNibble? {n : Nat} {op : Alu} (h : ofNibble? n = some op) : op.nibble = n := by
  unfold ofNibble? at h
  split at h <;> cases h <;> rfl

end Alu

namespace Fields

/-- The fields are those of the natural number `w`. -/
structure Of (f : Fields) (w : Nat) : Prop where
  raw : f.raw = w
  opcode : f.opcode.toNat = w / 4096
  x : f.x.val = w / 256 % 16
  y : f.y.val = w / 16 % 16
  n : f.n.val = w % 16
  nn : f.nn.val = w % 256
  nnn : f.nnn.val = w % 4096

theorem of_ofWord (w : UInt16) : (ofWord w).Of w.toNat := by
  refine ⟨rfl, ?_, ?_, ?_, ?_, ?_, ?_⟩ <;>
    simp only [ofWord, ofInt] <;> omega

end Fields

namespace Instruction

/-! ### The digits of a code -/

section Digits

variable {c : Nat} {x y : Fin 16} {n k : Nat}

theorem nibbles_div (hn : n < 16) : nibbles c x y n / 4096 = c := by
  rw [nibbles]
  omega

theorem nibbles_x (hn : n < 16) : nibbles c x y n / 256 % 16 = x := by
  rw [nibbles]
  omega

theorem nibbles_y (hn : n < 16) : nibbles c x y n / 16 % 16 = y := by
  rw [nibbles]
  omega

theorem nibbles_n (hn : n < 16) : nibbles c x y n % 16 = n := by
  rw [nibbles]
  omega

theorem withByte_div (hk : k < 256) : withByte c x k / 4096 = c := by
  rw [withByte]
  omega

theorem withByte_x (hk : k < 256) : withByte c x k / 256 % 16 = x := by
  rw [withByte]
  omega

theorem withByte_nn (hk : k < 256) : withByte c x k % 256 = k := by
  rw [withByte]
  omega

theorem address_div {c : Nat} {a : Fin 4096} (hc : c % 4096 = 0) : (c + a) / 4096 = c / 4096 := by
  omega

theorem address_nnn {c : Nat} {a : Fin 4096} (hc : c % 4096 = 0) : (c + a) % 4096 = a := by
  omega

end Digits

theorem code_lt (i : Instruction) : i.code < 65536 := by
  cases i with
  | alu op x y =>
    have := op.nibble_lt
    simp only [code, nibbles]
    omega
  | skipEq x k | skipNe x k | load x k | addImm x k | random x k =>
    have := k.toNat_lt
    simp only [code, withByte]
    omega
  | _ =>
    simp only [code, nibbles, withByte]
    omega

theorem toNat_encode (i : Instruction) : i.encode.toNat = i.code :=
  UInt16.toNat_ofNat_of_lt' i.code_lt

/-! ### Reading what was encoded -/

theorem ofFin_eq {b : Fin 256} {k : UInt8} (h : b.val = k.toNat) : UInt8.ofFin b = k := by
  rw [← UInt8.toNat_inj, UInt8.toNat_ofFin, h]

/-- The word of an instruction reads as the instruction. -/
theorem ofWord?_encode (i : Instruction) : ofWord? i.encode = some i := by
  have hf := Fields.of_ofWord i.encode
  rw [toNat_encode] at hf
  rw [ofWord?]
  generalize Fields.ofWord i.encode = f at hf
  obtain ⟨hraw, hopcode, hx, hy, hn, hnn, hnnn⟩ := hf
  -- each shape of words has its own fields, which give the operands back
  cases i with
  | clear | ret =>
    simp only [code] at hraw hopcode
    simp [ofFields?, hraw, hopcode]
  | jump a | call a | loadIndex a | jumpOffset a =>
    simp (disch := decide) only [code, address_div, address_nnn, Nat.reduceDiv] at hopcode hnnn
    simp only [ofFields?, hopcode, Fin.ext hnnn]
  | skipEq x k | skipNe x k | load x k | addImm x k | random x k =>
    simp only [code, withByte_div k.toNat_lt, withByte_x k.toNat_lt, withByte_nn k.toNat_lt]
      at hopcode hx hnn
    simp only [ofFields?, hopcode, Fin.ext hx, ofFin_eq hnn]
  | skipEqReg x y | skipNeReg x y =>
    simp (disch := decide) only [code, nibbles_div, nibbles_x, nibbles_y, nibbles_n]
      at hopcode hx hy hn
    have hn : f.n = 0 := Fin.ext hn
    simp only [ofFields?, hopcode, if_pos hn, Fin.ext hx, Fin.ext hy]
  | alu op x y =>
    have hop := op.nibble_lt
    simp only [code, nibbles_div hop, nibbles_x hop, nibbles_y hop, nibbles_n hop]
      at hopcode hx hy hn
    -- the low digit is no operand here: it selects the operation
    simp only [ofFields?, hopcode, hn, Alu.ofNibble?_nibble, Fin.ext hx, Fin.ext hy,
      Option.map_some]
  | draw x y n =>
    simp only [code, nibbles_div n.isLt, nibbles_x n.isLt, nibbles_y n.isLt, nibbles_n n.isLt]
      at hopcode hx hy hn
    simp only [ofFields?, hopcode, Fin.ext hx, Fin.ext hy, Fin.ext hn]
  | _ x =>
    simp (disch := decide) only [code, withByte_div, withByte_x, withByte_nn] at hopcode hx hnn
    simp only [ofFields?, ofKeyFields?, ofMiscFields?, hopcode, hnn, Fin.ext hx]

/-- A word that reads as an instruction is the word of it. -/
theorem encode_of_ofWord? {w : UInt16} {i : Instruction} (h : ofWord? w = some i) :
    i.encode = w := by
  have hf := Fields.of_ofWord w
  rw [ofWord?] at h
  rw [← UInt16.toNat_inj, toNat_encode]
  generalize Fields.ofWord w = f at h hf
  obtain ⟨hraw, hopcode, hx, hy, hn, hnn, hnnn⟩ := hf
  -- the families in the order of the high digit, which is `hc` in each case
  rw [ofFields?] at h
  split at h
  case h_1 hc =>
    -- of this family only `00E0` and `00EE` are instructions
    split_ifs at h with h1 h2
    · cases h
      simp only [code]
      omega
    · cases h
      simp only [code]
      omega
  case h_2 hc | h_3 hc | h_11 hc | h_12 hc =>
    cases h
    simp only [code]
    omega
  case h_4 hc | h_5 hc | h_7 hc | h_8 hc | h_13 hc =>
    cases h
    simp only [code, withByte, UInt8.toNat_ofFin]
    omega
  case h_6 hc | h_10 hc =>
    split_ifs at h with h0
    cases h
    rw [h0] at hn
    simp only [code, nibbles]
    omega
  case h_9 hc =>
    obtain ⟨op, hop, rfl⟩ := Option.map_eq_some_iff.1 h
    have := Alu.nibble_of_ofNibble? hop
    simp only [code, nibbles]
    omega
  case h_14 hc =>
    cases h
    simp only [code, nibbles]
    omega
  case h_15 hc =>
    rw [ofKeyFields?] at h
    split at h <;> cases h <;> simp only [code, withByte] <;> omega
  case h_16 hc =>
    rw [ofMiscFields?] at h
    split at h <;> cases h <;> simp only [code, withByte] <;> omega
  case h_17 => cases h

theorem ofWord?_eq_some_iff {w : UInt16} {i : Instruction} : ofWord? w = some i ↔ w = i.encode :=
  ⟨fun h => (encode_of_ofWord? h).symm, fun h => h ▸ ofWord?_encode i⟩

/-- The words that read as nothing are those that encode nothing. -/
theorem ofWord?_eq_none_iff {w : UInt16} : ofWord? w = none ↔ ∀ i : Instruction, w ≠ i.encode := by
  rw [Option.eq_none_iff_forall_ne_some]
  exact forall_congr' fun i => not_congr ofWord?_eq_some_iff

end Instruction

end Chip8
