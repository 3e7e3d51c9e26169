import Chip8.Proofs.Instruction.Encoding

/-!
# The forms of instruction words

A form is a pattern of four hexadecimal digits, of which some are left free for
the operands. The instruction set has thirty-four forms (`Form.all`), of which a
word has at most one (`Form.Matches.unique`), and the words of these forms are
exactly the words that encode an instruction (`Form.defined_iff`).
-/

namespace Chip8

/-- A pattern of four hexadecimal digits, the highest first. The highest digit
    is always given; of the others `none` stands for any digit. -/
structure Form where
  family : Nat
  second : Option Nat
  third : Option Nat
  last : Option Nat
deriving DecidableEq

namespace Form

/-- The digit `d` may stand where the form gives `g`. -/
def Allows : (g : Option Nat) → (d : Nat) → Prop
  | none, _ => True
  | some e, d => d = e

instance : ∀ g d, Decidable (Allows g d)
  | none, _ => .isTrue trivial
  | some e, d => inferInstanceAs (Decidable (d = e))

/-- The number `n` has the digits that the form gives. -/
def Matches (f : Form) (n : Nat) : Prop :=
  n / 4096 = f.family ∧ Allows f.second (n / 256 % 16) ∧ Allows f.third (n / 16 % 16) ∧
    Allows f.last (n % 16)

instance (f : Form) (n : Nat) : Decidable (f.Matches n) :=
  inferInstanceAs (Decidable (_ ∧ _))

/-- The thirty-four forms. -/
def all : List Form :=
  [⟨0x0, some 0x0, some 0xE, some 0x0⟩, -- 00E0
   ⟨0x0, some 0x0, some 0xE, some 0xE⟩, -- 00EE
   ⟨0x1, none, none, none⟩, -- 1NNN
   ⟨0x2, none, none, none⟩, -- 2NNN
   ⟨0x3, none, none, none⟩, -- 3XNN
   ⟨0x4, none, none, none⟩, -- 4XNN
   ⟨0x5, none, none, some 0x0⟩, -- 5XY0
   ⟨0x6, none, none, none⟩, -- 6XNN
   ⟨0x7, none, none, none⟩, -- 7XNN
   ⟨0x8, none, none, some 0x0⟩, -- 8XY0
   ⟨0x8, none, none, some 0x1⟩, -- 8XY1
   ⟨0x8, none, none, some 0x2⟩, -- 8XY2
   ⟨0x8, none, none, some 0x3⟩, -- 8XY3
   ⟨0x8, none, none, some 0x4⟩, -- 8XY4
   ⟨0x8, none, none, some 0x5⟩, -- 8XY5
   ⟨0x8, none, none, some 0x6⟩, -- 8XY6
   ⟨0x8, none, none, some 0x7⟩, -- 8XY7
   ⟨0x8, none, none, some 0xE⟩, -- 8XYE
   ⟨0x9, none, none, some 0x0⟩, -- 9XY0
   ⟨0xA, none, none, none⟩, -- ANNN
   ⟨0xB, none, none, none⟩, -- BNNN
   ⟨0xC, none, none, none⟩, -- CXNN
   ⟨0xD, none, none, none⟩, -- DXYN
   ⟨0xE, none, some 0x9, some 0xE⟩, -- EX9E
   ⟨0xE, none, some 0xA, some 0x1⟩, -- EXA1
   ⟨0xF, none, some 0x0, some 0x7⟩, -- FX07
   ⟨0xF, none, some 0x0, some 0xA⟩, -- FX0A
   ⟨0xF, none, some 0x1, some 0x5⟩, -- FX15
   ⟨0xF, none, some 0x1, some 0x8⟩, -- FX18
   ⟨0xF, none, some 0x1, some 0xE⟩, -- FX1E
   ⟨0xF, none, some 0x2, some 0x9⟩, -- FX29
   ⟨0xF, none, some 0x3, some 0x3⟩, -- FX33
   ⟨0xF, none, some 0x5, some 0x5⟩, -- FX55
   ⟨0xF, none, some 0x6, some 0x5⟩] -- FX65

/-- The word `w` is defined: it has one of the forms. -/
def Defined (w : UInt16) : Prop :=
  ∃ f ∈ all, f.Matches w.toNat

instance (w : UInt16) : Decidable (Defined w) :=
  inferInstanceAs (Decidable (∃ f ∈ all, f.Matches w.toNat))

end Form

namespace Form

variable {f g : Form} {d n : Nat} {e e' : Option Nat}

/-- The same digit may stand where two forms give `e` and `e'`. -/
def Agree : (e e' : Option Nat) → Prop
  | some d, some d' => d = d'
  | _, _ => True

instance : ∀ e e', Decidable (Agree e e')
  | some d, some d' => inferInstanceAs (Decidable (d = d'))
  | none, _ | some _, none => .isTrue trivial

theorem Allows.agree (h : Allows e d) (h' : Allows e' d) : Agree e e' := by
  cases e with
  | none => trivial
  | some _ =>
    cases e' with
    | none => trivial
    | some _ => exact h.symm.trans h'

/-- A number has at most one of the forms. -/
theorem Matches.unique (hf : f ∈ all) (hg : g ∈ all) (h : f.Matches n) (h' : g.Matches n) :
    f = g := by
  have hdisjoint : ∀ f ∈ all, ∀ g ∈ all, f.family = g.family → Agree f.second g.second →
      Agree f.third g.third → Agree f.last g.last → f = g := by decide +kernel
  obtain ⟨hfamily, hsecond, hthird, hlast⟩ := h
  obtain ⟨hfamily', hsecond', hthird', hlast'⟩ := h'
  exact hdisjoint f hf g hg (hfamily.symm.trans hfamily') (hsecond.agree hsecond')
    (hthird.agree hthird') (hlast.agree hlast')

end Form

namespace Instruction

/-- The form of the words that encode an instruction. -/
def form : Instruction → Form
  | clear => ⟨0x0, some 0x0, some 0xE, some 0x0⟩
  | ret => ⟨0x0, some 0x0, some 0xE, some 0xE⟩
  | jump _ => ⟨0x1, none, none, none⟩
  | call _ => ⟨0x2, none, none, none⟩
  | skipEq _ _ => ⟨0x3, none, none, none⟩
  | skipNe _ _ => ⟨0x4, none, none, none⟩
  | skipEqReg _ _ => ⟨0x5, none, none, some 0x0⟩
  | load _ _ => ⟨0x6, none, none, none⟩
  | addImm _ _ => ⟨0x7, none, none, none⟩
  | alu op _ _ => ⟨0x8, none, none, some op.nibble⟩
  | skipNeReg _ _ => ⟨0x9, none, none, some 0x0⟩
  | loadIndex _ => ⟨0xA, none, none, none⟩
  | jumpOffset _ => ⟨0xB, none, none, none⟩
  | random _ _ => ⟨0xC, none, none, none⟩
  | draw _ _ _ => ⟨0xD, none, none, none⟩
  | skipKey _ => ⟨0xE, none, some 0x9, some 0xE⟩
  | skipNoKey _ => ⟨0xE, none, some 0xA, some 0x1⟩
  | readDelay _ => ⟨0xF, none, some 0x0, some 0x7⟩
  | waitKey _ => ⟨0xF, none, some 0x0, some 0xA⟩
  | setDelay _ => ⟨0xF, none, some 0x1, some 0x5⟩
  | setSound _ => ⟨0xF, none, some 0x1, some 0x8⟩
  | addIndex _ => ⟨0xF, none, some 0x1, some 0xE⟩
  | glyph _ => ⟨0xF, none, some 0x2, some 0x9⟩
  | decimal _ => ⟨0xF, none, some 0x3, some 0x3⟩
  | store _ => ⟨0xF, none, some 0x5, some 0x5⟩
  | restore _ => ⟨0xF, none, some 0x6, some 0x5⟩

theorem form_mem_all (i : Instruction) : i.form ∈ Form.all := by
  cases i with
  | alu op x y => cases op <;> simp [form, Form.all, Alu.nibble]
  | _ => simp [form, Form.all]

theorem matches_form (i : Instruction) : i.form.Matches i.code := by
  cases i with
  | clear | ret => exact ⟨rfl, rfl, rfl, rfl⟩
  | alu op x y =>
    have := op.nibble_lt
    simp only [form, Form.Matches, Form.Allows, code, nibbles, true_and]
    omega
  | skipEq x k | skipNe x k | load x k | addImm x k | random x k =>
    have := k.toNat_lt
    simp only [form, Form.Matches, Form.Allows, code, withByte, and_true]
    omega
  | _ =>
    simp only [form, Form.Matches, Form.Allows, code, nibbles, withByte, true_and, and_true]
    omega

/-- A word of one of the forms encodes an instruction. -/
theorem exists_code_eq {w : UInt16} :
    ∀ f ∈ Form.all, f.Matches w.toNat → ∃ i : Instruction, i.code = w.toNat := by
  obtain ⟨-, -, hx, hy, hn, hnn, hnnn⟩ := Fields.of_ofWord w
  generalize Fields.ofWord w = g at hx hy hn hnn hnnn
  simp only [Form.all, List.forall_mem_cons, Form.Matches, Form.Allows]
  -- for each form in turn its instruction, with the operands taken from the fields of the word
  refine ⟨fun h => ⟨.clear, ?_⟩, fun h => ⟨.ret, ?_⟩, fun h => ⟨.jump g.nnn, ?_⟩,
    fun h => ⟨.call g.nnn, ?_⟩, fun h => ⟨.skipEq g.x (.ofFin g.nn), ?_⟩,
    fun h => ⟨.skipNe g.x (.ofFin g.nn), ?_⟩, fun h => ⟨.skipEqReg g.x g.y, ?_⟩,
    fun h => ⟨.load g.x (.ofFin g.nn), ?_⟩, fun h => ⟨.addImm g.x (.ofFin g.nn), ?_⟩,
    fun h => ⟨.alu .copy g.x g.y, ?_⟩, fun h => ⟨.alu .or g.x g.y, ?_⟩,
    fun h => ⟨.alu .and g.x g.y, ?_⟩, fun h => ⟨.alu .xor g.x g.y, ?_⟩,
    fun h => ⟨.alu .add g.x g.y, ?_⟩, fun h => ⟨.alu .sub g.x g.y, ?_⟩,
    fun h => ⟨.alu .shiftRight g.x g.y, ?_⟩, fun h => ⟨.alu .subFrom g.x g.y, ?_⟩,
    fun h => ⟨.alu .shiftLeft g.x g.y, ?_⟩, fun h => ⟨.skipNeReg g.x g.y, ?_⟩,
    fun h => ⟨.loadIndex g.nnn, ?_⟩, fun h => ⟨.jumpOffset g.nnn, ?_⟩,
    fun h => ⟨.random g.x (.ofFin g.nn), ?_⟩, fun h => ⟨.draw g.x g.y g.n, ?_⟩,
    fun h => ⟨.skipKey g.x, ?_⟩, fun h => ⟨.skipNoKey g.x, ?_⟩,
    fun h => ⟨.readDelay g.x, ?_⟩, fun h => ⟨.waitKey g.x, ?_⟩, fun h => ⟨.setDelay g.x, ?_⟩,
    fun h => ⟨.setSound g.x, ?_⟩, fun h => ⟨.addIndex g.x, ?_⟩, fun h => ⟨.glyph g.x, ?_⟩,
    fun h => ⟨.decimal g.x, ?_⟩, fun h => ⟨.store g.x, ?_⟩, fun h => ⟨.restore g.x, ?_⟩,
    fun _ hf => absurd hf List.not_mem_nil⟩ <;>
    simp only [code, nibbles, withByte, Alu.nibble, UInt8.toNat_ofFin] <;> omega

end Instruction

/-- The defined words are those that encode an instruction. -/
theorem Form.defined_iff {w : UInt16} : Defined w ↔ ∃ i : Instruction, w = i.encode := by
  constructor
  · rintro ⟨f, hf, h⟩
    obtain ⟨i, hi⟩ := Instruction.exists_code_eq f hf h
    exact ⟨i, UInt16.toNat_inj.1 (hi.symm.trans i.toNat_encode.symm)⟩
  · rintro ⟨i, rfl⟩
    exact ⟨i.form, i.form_mem_all, i.toNat_encode ▸ i.matches_form⟩

/-- The form of a word is the form of the instruction that it encodes. -/
theorem Instruction.eq_form {f : Form} (hf : f ∈ Form.all) {i : Instruction}
    (h : f.Matches i.encode.toNat) : f = i.form :=
  h.unique hf i.form_mem_all (i.toNat_encode ▸ i.matches_form)

end Chip8
