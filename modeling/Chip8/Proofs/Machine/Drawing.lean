import Chip8.Proofs.Machine.Policy
import Chip8.Proofs.Memory
import Chip8.Proofs.Sprite

/-!
# Drawing on the screen

What `DXYN` does to the machine, if its rows lie in memory. It computes all cells of
the screen at once: for each cell its offset in the sprite, the byte of that row, and
whether the cell is one that the sprite lights (`Machine.spriteMask`). This comes to
the same as the algorithm that visits the lit cells of the sprite one after the other,
row by row, and flips each (`Machine.spriteCells`, `execute_draw_cellByCell`). In both
a byte is looked up for a row of the sprite only, so that it does not matter what is
read past the end of memory.

Drawing is a symmetry of the screen: requests to draw (`DrawRequest`) may be performed
in any order, and cancel if they come in pairs (`drawn_perm_cancel`).
-/

namespace Chip8

namespace Machine

variable {m : Machine} {x y n : Fin 16} {byte : Nat → UInt8}

/-- The cells that `DXYN` visits if `byte a` is the byte at the address `a`: for each
    row `r` of `n` and each column `c` of eight whose bit is set, the cell
    `(VX + c, VY + r)`, modulo the size of the screen. -/
def spriteCells (m : Machine) (byte : Nat → UInt8) (x y n : Fin 16) : List (Fin 64 × Fin 32) :=
  Sprite.cellsAt (m.v.get x).toNat (m.v.get y).toNat (fun r => byte (m.index.toNat + r)) n

/-- The cells that `DXYN` lights, all at once. A byte is looked up for each cell, also
    for one that is outside of the sprite and is masked out. -/
def spriteMask (m : Machine) (byte : Nat → UInt8) (x y n : Fin 16) (cx : Fin 64) (cy : Fin 32) :
    Bool :=
  let column := (cx + (64 - (m.v.get x).toNat % 64)) % 64
  let row := (cy + (32 - (m.v.get y).toNat % 32)) % 32
  column < 8 && row < n && (byte (m.index.toNat + row)).toNat.testBit (7 - column)

/-! ### One sprite -/

theorem length_rows_spriteAt : (m.spriteAt x y n).rows.length = n :=
  Memory.length_readAll _ _ _

theorem length_rows_le : (m.spriteAt x y n).rows.length ≤ 32 := by
  rw [length_rows_spriteAt]
  omega

/-- The rows of the sprite, whatever is read past the end of memory. -/
theorem getD_rows_spriteAt (h : m.index.toNat + n ≤ Memory.size)
    (hbyte : ∀ a < Memory.size, byte a = m.memory.read a) (r : Nat) :
    (m.spriteAt x y n).rows.getD r 0 = if r < n then byte (m.index.toNat + r) else 0 := by
  split_ifs with hr
  · rw [hbyte _ (by omega)]
    exact Memory.getD_readAll _ hr 0
  · exact List.getD_eq_default _ _ (by rw [length_rows_spriteAt]; omega)

theorem spriteCells_eq (h : m.index.toNat + n ≤ Memory.size)
    (hbyte : ∀ a < Memory.size, byte a = m.memory.read a) :
    m.spriteCells byte x y n = (m.spriteAt x y n).cells := by
  rw [spriteCells, Sprite.cells, length_rows_spriteAt]
  refine Sprite.cellsAt_congr fun r hr => ?_
  rw [getD_rows_spriteAt h hbyte, if_pos hr]

theorem spriteMask_eq (h : m.index.toNat + n ≤ Memory.size)
    (hbyte : ∀ a < Memory.size, byte a = m.memory.read a) (cx : Fin 64) (cy : Fin 32) :
    m.spriteMask byte x y n cx cy = (m.spriteAt x y n).lights cx cy := by
  have hleft : (m.spriteAt x y n).left = (m.v.get x).toNat := rfl
  have htop : (m.spriteAt x y n).top = (m.v.get y).toNat := rfl
  simp only [spriteMask, Sprite.lights, hleft, htop, getD_rows_spriteAt h hbyte]
  -- a row outside of the sprite is masked out, whatever its byte
  by_cases hr : (cy + (32 - (m.v.get y).toNat % 32)) % 32 < n <;> simp [hr]

theorem execute_draw (h : m.index.toNat + n ≤ Memory.size) :
    m.execute (Instruction.draw x y n).encode = .silent (m.draw (m.spriteAt x y n)) := by
  rw [execute_encode, exec, if_pos h]

theorem setFlag_eq (m : Machine) (b : Bool) :
    m.setFlag b = m.setV 15 (if b then 1 else 0) := by
  cases b <;> rfl

/-- If its rows lie in memory, `DXYN` lights the same cells all at once as the algorithm
    that visits the cells of the sprite one by one, row by row, and flips each. The flag
    tells whether a cell that was visited was lit just then. Nothing else changes, and it
    does not matter what is read past the end of memory: the last byte or any other. -/
theorem execute_draw_cellByCell (h : m.index.toNat + n ≤ Memory.size)
    (hbyte : ∀ a < Memory.size, byte a = m.memory.read a) :
    let drawn := (m.spriteCells byte x y n).foldl Canvas.flip ⟨m.display, false⟩
    m.execute (Instruction.draw x y n).encode =
        .silent ({ m with display := drawn.screen }.setV 15 (if drawn.collided then 1 else 0)) ∧
      (∀ cx cy, drawn.screen.get cx cy = (m.display.get cx cy ^^ m.spriteMask byte x y n cx cy)) ∧
      (drawn.collided = true ↔
        ∃ cx cy, m.display.get cx cy = true ∧ m.spriteMask byte x y n cx cy = true) := by
  intro drawn
  have hdrawn : drawn =
      ⟨(m.spriteAt x y n).drawOn m.display, (m.spriteAt x y n).collides m.display⟩ := by
    rw [← Sprite.foldl_flip_cells length_rows_le, ← spriteCells_eq h hbyte]
  rw [hdrawn, execute_draw h, draw, setFlag_eq]
  refine ⟨rfl, fun cx cy => ?_, ?_⟩
  · rw [Sprite.get_drawOn, spriteMask_eq h hbyte]
  · simp [Sprite.collides, spriteMask_eq h hbyte]

/-- A row that is the last byte of memory, drawn across the right edge with `VF` as its
    column. -/
theorem execute_draw_cellByCell_lastByte :
    let m := { create ⟨0, 0⟩ .halt with
      index := 0xFFF
      memory := Memory.zero.write 0xFFF 0x90
      display := .ofFn fun cx cy => cx = 1 && cy = 0 }.setV 15 62
    m.index.toNat + 1 ≤ Memory.size ∧
      (m.execute 0xDF01).machine.v.get 15 = 1 ∧
      ((m.execute 0xDF01).machine.display.get 1 0, (m.execute 0xDF01).machine.display.get 62 0) =
        (false, true) := by
  intro m
  -- what is read past the end is taken to be zero
  let byte (a : Nat) : UInt8 := if a < Memory.size then m.memory.read a else 0
  have hbyte : ∀ a < Memory.size, byte a = m.memory.read a := fun a ha => if_pos ha
  have h := (execute_draw_cellByCell (m := m) (x := 15) (y := 0) (n := 1) (by decide) hbyte).1
  have hw : (Instruction.draw 15 0 1).encode = 0xDF01 := by decide
  rw [hw] at h
  rw [h]
  decide +kernel

end Machine

/-! ### Requests -/

/-- A request to draw: a place on the screen, and rows that lie in memory. -/
structure DrawRequest where
  /-- The column, modulo the width of the screen. -/
  left : UInt8
  /-- The row, modulo the height of the screen. -/
  top : UInt8
  /-- The address of the first byte. -/
  index : UInt16
  /-- The number of bytes. -/
  height : Fin 16
  inMemory : index.toNat + height ≤ Memory.size
deriving DecidableEq

/-- The sprite that is requested. -/
def DrawRequest.sprite (memory : Memory) (q : DrawRequest) : Sprite where
  left := q.left.toNat
  top := q.top.toNat
  rows := memory.readAll q.index.toNat q.height

/-- The machine holds the place of the request in two registers, and its address in
    the index register. -/
structure DrawRequest.HeldBy (q : DrawRequest) (m : Machine) (x y : Fin 16) : Prop where
  left : m.v.get x = q.left
  top : m.v.get y = q.top
  index : m.index = q.index

/-- Requests that are performed one after the other lead from one screen to another.
    Each is performed by a machine that holds it and executes `DXYN`; the machines have
    the same memory, and may differ in all else. -/
inductive Drawn (memory : Memory) : List DrawRequest → Screen → Screen → Prop
  | nil {screen : Screen} : Drawn memory [] screen screen
  | cons {m : Machine} {x y : Fin 16} {q : DrawRequest} {qs : List DrawRequest} {screen : Screen} :
      m.memory = memory → q.HeldBy m x y →
      Drawn memory qs (m.execute (Instruction.draw x y q.height).encode).machine.display screen →
      Drawn memory (q :: qs) m.display screen

section Requests

variable {memory : Memory} {q : DrawRequest} {qs : List DrawRequest} {screen screen' : Screen}

theorem DrawRequest.HeldBy.spriteAt {m : Machine} {x y : Fin 16} (h : q.HeldBy m x y) :
    m.spriteAt x y q.height = q.sprite m.memory := by
  rw [Machine.spriteAt, DrawRequest.sprite, h.left, h.top, h.index]

/-- A machine that performs a request draws its sprite. -/
theorem DrawRequest.HeldBy.display_execute {m : Machine} {x y : Fin 16} (h : q.HeldBy m x y) :
    (m.execute (Instruction.draw x y q.height).encode).machine.display =
      (q.sprite m.memory).drawOn m.display := by
  have hin : m.index.toNat + q.height ≤ Memory.size := h.index ▸ q.inMemory
  rw [Machine.execute_draw hin, h.spriteAt]
  rfl

/-- For each request and screen there is a machine that can perform it. -/
theorem DrawRequest.exists_heldBy (memory : Memory) (q : DrawRequest) (screen : Screen) :
    ∃ m : Machine, m.memory = memory ∧ m.display = screen ∧ q.HeldBy m 0 1 :=
  ⟨({ Machine.create ⟨0, 0⟩ .halt with
      memory := memory
      display := screen
      index := q.index }.setV 0 q.left).setV 1 q.top,
    rfl, rfl, rfl, rfl, rfl⟩

theorem drawn_iff : Drawn memory qs screen screen' ↔
    screen' = Sprite.drawAll (qs.map (·.sprite memory)) screen := by
  constructor
  · intro h
    induction h with
    | nil => rfl
    | cons hm hq _ ih =>
      subst hm
      rw [ih, hq.display_execute]
      rfl
  · rintro rfl
    induction qs generalizing screen with
    | nil => exact .nil
    | cons q qs ih =>
      obtain ⟨m, rfl, rfl, hq⟩ := q.exists_heldBy memory screen
      refine .cons rfl hq ?_
      rw [hq.display_execute]
      exact ih

end Requests

namespace Machine

variable {m : Machine} {x y n : Fin 16}

theorem memory_draw (s : Sprite) : (m.draw s).memory = m.memory := by
  rw [draw, setFlag_eq, setV]

theorem index_draw (s : Sprite) : (m.draw s).index = m.index := by
  rw [draw, setFlag_eq, setV]

theorem display_draw (s : Sprite) : (m.draw s).display = s.drawOn m.display := by
  rw [draw, setFlag_eq, setV]

theorem get_draw_of_ne {z : Fin 16} (hz : z ≠ 15) (s : Sprite) :
    (m.draw s).v.get z = m.v.get z := by
  rw [draw, get_setFlag, if_neg hz]

/-- After a sprite has been drawn it is still there to be drawn again, unless one of
    the registers with its place is the flag. -/
theorem spriteAt_draw (hx : x ≠ 15) (hy : y ≠ 15) (s : Sprite) :
    (m.draw s).spriteAt x y n = m.spriteAt x y n := by
  rw [spriteAt, spriteAt, get_draw_of_ne hx, get_draw_of_ne hy, memory_draw, index_draw]

/-- The flag tells whether some cell of the sprite was lit before. -/
theorem flag_draw {s : Sprite} (hs : s.rows.length ≤ 32) :
    (m.draw s).v.get 15 = if ∃ p ∈ s.cells, m.display.get p.1 p.2 = true then 1 else 0 := by
  rw [draw, get_setFlag, if_pos rfl]
  exact if_congr (Sprite.collides_iff hs) rfl rfl

/-- When the sprite is drawn again, the flag tells whether some cell of it was not lit
    before. -/
theorem flag_draw_draw {s : Sprite} (hs : s.rows.length ≤ 32) :
    ((m.draw s).draw s).v.get 15 =
      if ∃ p ∈ s.cells, m.display.get p.1 p.2 = false then 1 else 0 := by
  rw [draw, get_setFlag, if_pos rfl, display_draw]
  exact if_congr (Sprite.collides_drawOn_iff hs) rfl rfl

theorem flags_eq_zero_iff {s : Sprite} (hs : s.rows.length ≤ 32) :
    (m.draw s).v.get 15 = 0 ∧ ((m.draw s).draw s).v.get 15 = 0 ↔ s.cells = [] := by
  rw [flag_draw hs, flag_draw_draw hs, ite_eq_right_iff, ite_eq_right_iff]
  constructor
  · rintro ⟨hlit, hunlit⟩
    refine List.eq_nil_iff_forall_not_mem.2 fun p hp => ?_
    -- each cell was lit before or was not
    cases hb : m.display.get p.1 p.2 with
    | true => exact absurd (hlit ⟨p, hp, hb⟩) (by decide)
    | false => exact absurd (hunlit ⟨p, hp, hb⟩) (by decide)
  · intro hnil
    simp [hnil]

/-- A sprite that is drawn twice. -/
theorem execute_draw_twice (h : m.index.toNat + n ≤ Memory.size) (hx : x ≠ 15) (hy : y ≠ 15) :
    ((m.execute (Instruction.draw x y n).encode).machine.execute
      (Instruction.draw x y n).encode).machine =
        (m.draw (m.spriteAt x y n)).draw (m.spriteAt x y n) := by
  have h' : (m.draw (m.spriteAt x y n)).index.toNat + n ≤ Memory.size := by
    rwa [index_draw]
  rw [execute_draw h, Outcome.machine_silent, execute_draw h', Outcome.machine_silent,
    spriteAt_draw hx hy]

/-- Requests to draw come to the same in any order, and leave no trace if each is made
    an even number of times. A sprite that is drawn twice in a row, with its place in
    registers other than the flag, leaves no trace either; the flag tells first whether
    some cell of the sprite was lit before, and then whether some cell was not. So it is
    clear both times exactly if the sprite has no cells. -/
theorem drawn_perm_cancel :
    (∀ memory qs screen, ∃ screen', Drawn memory qs screen screen') ∧
      (∀ memory qs qs' screen s s', qs.Perm qs' → Drawn memory qs screen s →
        Drawn memory qs' screen s' → s' = s) ∧
      (∀ memory qs screen screen', (∀ q, Even (qs.count q)) → Drawn memory qs screen screen' →
        screen' = screen) ∧
      ∀ (m : Machine) (x y n : Fin 16), x ≠ 15 → y ≠ 15 → m.index.toNat + n ≤ Memory.size →
        let once := (m.execute (Instruction.draw x y n).encode).machine
        let twice := (once.execute (Instruction.draw x y n).encode).machine
        let cells := m.spriteCells m.memory.read x y n
        twice.display = m.display ∧
          once.v.get 15 = (if ∃ p ∈ cells, m.display.get p.1 p.2 = true then 1 else 0) ∧
          twice.v.get 15 = (if ∃ p ∈ cells, m.display.get p.1 p.2 = false then 1 else 0) ∧
          (once.v.get 15 = 0 ∧ twice.v.get 15 = 0 ↔
            ∀ r < n.val, m.memory.read (m.index.toNat + r) = 0) := by
  refine ⟨fun _ _ _ => ⟨_, drawn_iff.2 rfl⟩, ?_, ?_, ?_⟩
  · intro memory qs qs' screen s s' hp h h'
    rw [drawn_iff.1 h, drawn_iff.1 h']
    exact Sprite.drawAll_perm (hp.map _).symm screen
  · intro memory qs screen screen' heven h
    rw [drawn_iff.1 h, Sprite.drawAll_map_of_even heven]
  · intro m x y n hx hy h once twice cells
    have honce : once = m.draw (m.spriteAt x y n) :=
      congrArg Outcome.machine (execute_draw h)
    have htwice : twice = (m.draw (m.spriteAt x y n)).draw (m.spriteAt x y n) :=
      execute_draw_twice h hx hy
    have hcells : cells = (m.spriteAt x y n).cells := spriteCells_eq h fun _ _ => rfl
    have hblank : cells = [] ↔ ∀ r < n.val, m.memory.read (m.index.toNat + r) = 0 :=
      Sprite.cellsAt_eq_nil_iff
    rw [← hblank, honce, htwice, hcells]
    refine ⟨?_, flag_draw length_rows_le, flag_draw_draw length_rows_le,
      flags_eq_zero_iff length_rows_le⟩
    rw [display_draw, display_draw, Sprite.drawOn_drawOn]

/-- The glyph of zero, drawn across a corner of the screen with one of its cells lit, and
    together with the glyph of one. -/
theorem drawn_perm_cancel_glyph :
    let m := ({ create ⟨0, 0⟩ .halt with
      display := .ofFn fun cx cy => cx = 62 && cy = 30 }.setV 0 62).setV 1 30
    let q : DrawRequest := ⟨62, 30, 0, 5, by decide⟩
    let q' : DrawRequest := ⟨60, 31, 5, 5, by decide⟩
    (∃ screen, Drawn m.memory [q, q', q', q] m.display screen ∧ screen = m.display) ∧
      (0 : Fin 16) ≠ 15 ∧ (1 : Fin 16) ≠ 15 ∧ m.index.toNat + 5 ≤ Memory.size ∧
      ((m.execute 0xD015).machine.execute 0xD015).machine.display = m.display ∧
      (m.execute 0xD015).machine.v.get 15 = 1 ∧
      ((m.execute 0xD015).machine.execute 0xD015).machine.v.get 15 = 1 := by
  intro m q q'
  obtain ⟨hdrawn, -, heven, htwice⟩ := drawn_perm_cancel
  have hw : (Instruction.draw 0 1 5).encode = 0xD015 := by decide
  obtain ⟨hdisplay, hfirst, hsecond, -⟩ := htwice m 0 1 5 (by decide) (by decide) (by decide)
  rw [hw] at hdisplay hfirst hsecond
  obtain ⟨screen, hs⟩ := hdrawn m.memory [q, q', q', q] m.display
  have hcount : ∀ p, Even ([q, q', q', q].count p) := by
    intro p
    simp only [List.count_cons, List.count_nil, Nat.zero_add]
    split_ifs <;> decide
  refine ⟨⟨screen, hs, heven _ _ _ _ hcount hs⟩, by decide, by decide, by decide, hdisplay, ?_, ?_⟩
  · rw [hfirst]
    decide +kernel
  · rw [hsecond]
    decide +kernel

end Machine

end Chip8
