import Chip8.Sprite
import Mathlib.Algebra.BigOperators.Group.List.Lemmas
import Mathlib.Algebra.BigOperators.Ring.List
import Mathlib.Algebra.Ring.Parity
import Mathlib.Data.List.GetD
import Mathlib.Data.List.Nodup
import Mathlib.Data.List.ProdSigma

/-!
# Drawing a sprite

A sprite is drawn on all cells of the screen at once: each cell is flipped that the
sprite lights. Here this is compared with drawing cell by cell. The cells of a sprite
(`Sprite.cellsAt`) are visited row by row, from the left in each; each is flipped when
it is visited (`Canvas.flip`), and a collision is recorded if it was lit just before.

* `foldl_flip_cells`: since no cell is visited twice, both come to the same;
* `get_drawAll`: after any number of sprites a cell has been flipped as often as it
  was lit by one of them. Hence the order of the sprites does not matter
  (`drawAll_perm`), and a sprite drawn an even number of times leaves no trace
  (`drawAll_map_of_even`).
-/

namespace Chip8

/-! ### Cell by cell -/

namespace Sprite

/-- The bits that are set in `n` rows of eight, as pairs of a row and a column: row by
    row, and in each row from the left, which is the highest bit of the byte. -/
def dots (byte : Nat → UInt8) (n : Nat) : List (Nat × Nat) :=
  (List.range n ×ˢ List.range 8).filter fun (r, c) => (byte r).toNat.testBit (7 - c)

/-- The cells that are lit by `n` rows of eight with the top left corner at
    `(left, top)`, in the same order. -/
def cellsAt (left top : Nat) (byte : Nat → UInt8) (n : Nat) : List (Fin 64 × Fin 32) :=
  (dots byte n).map fun (r, c) => (.ofNat 64 (left + c), .ofNat 32 (top + r))

/-- The cells that a sprite lights. -/
def cells (s : Sprite) : List (Fin 64 × Fin 32) :=
  cellsAt s.left s.top (s.rows.getD · 0) s.rows.length

end Sprite

/-- A screen that is drawn on, and whether a cell has been flipped that was lit. -/
@[ext]
structure Canvas where
  /-- The screen. -/
  screen : Screen
  /-- Whether there was a collision. -/
  collided : Bool
deriving DecidableEq

/-- Flips the cell `p`, with a collision if it is lit. -/
def Canvas.flip (c : Canvas) (p : Fin 64 × Fin 32) : Canvas where
  screen := .ofFn fun x y => c.screen.get x y ^^ decide (p = (x, y))
  collided := c.collided || c.screen.get p.1 p.2

namespace Canvas

variable {c : Canvas} {l : List (Fin 64 × Fin 32)} {p : Fin 64 × Fin 32}

theorem get_flip (x : Fin 64) (y : Fin 32) :
    (c.flip p).screen.get x y = (c.screen.get x y ^^ decide (p = (x, y))) :=
  Bitmap.get_ofFn _ x y

theorem get_flip_of_ne {q : Fin 64 × Fin 32} (h : p ≠ q) :
    (c.flip p).screen.get q.1 q.2 = c.screen.get q.1 q.2 := by
  rw [get_flip, decide_eq_false h, Bool.xor_false]

/-- Cells that are flipped once each differ from before, and all others do not. -/
theorem get_foldl_flip (hl : l.Nodup) (c : Canvas) (x : Fin 64) (y : Fin 32) :
    (l.foldl flip c).screen.get x y = (c.screen.get x y ^^ l.contains (x, y)) := by
  induction l generalizing c with
  | nil => simp
  | cons p l ih =>
    obtain ⟨hp, hl⟩ := List.nodup_cons.1 hl
    rw [List.foldl_cons, ih hl, get_flip, Bool.xor_assoc]
    by_cases h : p = (x, y)
    · subst h
      simp [hp]
    · simp [h, Ne.symm h]

/-- Cells that are flipped once each collide with what was lit at the start. -/
theorem collided_foldl_flip (hl : l.Nodup) (c : Canvas) :
    (l.foldl flip c).collided = true ↔
      c.collided = true ∨ ∃ q ∈ l, c.screen.get q.1 q.2 = true := by
  induction l generalizing c with
  | nil => simp
  | cons p l ih =>
    obtain ⟨hp, hl⟩ := List.nodup_cons.1 hl
    -- the cells after `p` are still as they were
    have hrest : (∃ q ∈ l, (c.flip p).screen.get q.1 q.2 = true) ↔
        ∃ q ∈ l, c.screen.get q.1 q.2 = true := by
      refine exists_congr fun q => and_congr_right fun hq => ?_
      have hpq : p ≠ q := by
        rintro rfl
        exact hp hq
      rw [get_flip_of_ne hpq]
    rw [List.foldl_cons, ih hl, hrest, List.exists_mem_cons_iff, flip, Bool.or_eq_true, or_assoc]

end Canvas

namespace Sprite

variable {left top n : Nat} {byte : Nat → UInt8} {s : Sprite}

theorem mem_dots {r c : Nat} :
    (r, c) ∈ dots byte n ↔ r < n ∧ c < 8 ∧ (byte r).toNat.testBit (7 - c) = true := by
  simp [dots, and_assoc]

theorem mem_cellsAt {p : Fin 64 × Fin 32} :
    p ∈ cellsAt left top byte n ↔ ∃ r < n, ∃ c < 8, (byte r).toNat.testBit (7 - c) = true ∧
      p = (.ofNat 64 (left + c), .ofNat 32 (top + r)) := by
  rw [cellsAt, List.mem_map]
  constructor
  · rintro ⟨⟨r, c⟩, hd, rfl⟩
    obtain ⟨hr, hc, hb⟩ := mem_dots.1 hd
    exact ⟨r, hr, c, hc, hb, rfl⟩
  · rintro ⟨r, hr, c, hc, hb, rfl⟩
    exact ⟨(r, c), mem_dots.2 ⟨hr, hc, hb⟩, rfl⟩

/-- No cell is visited twice, since a sprite is no larger than the screen. -/
theorem nodup_cellsAt (hn : n ≤ 32) : (cellsAt left top byte n).Nodup := by
  refine List.Nodup.map_on ?_ ((List.nodup_range.product List.nodup_range).filter _)
  rintro ⟨r, c⟩ hd ⟨r', c'⟩ hd' h
  obtain ⟨hr, hc, -⟩ := mem_dots.1 hd
  obtain ⟨hr', hc', -⟩ := mem_dots.1 hd'
  have hx := congrArg (·.1.val) h
  have hy := congrArg (·.2.val) h
  simp only [Fin.val_ofNat] at hx hy
  rw [Prod.mk.injEq]
  omega

/-- A byte is zero if none of its bits is set, counted from the left. -/
theorem eq_zero_iff_testBit {b : UInt8} :
    b = 0 ↔ ∀ c < 8, b.toNat.testBit (7 - c) = false := by
  constructor
  · rintro rfl c -
    exact Nat.zero_testBit _
  · intro h
    rw [← UInt8.toNat_inj]
    refine Nat.eq_of_testBit_eq fun i => ?_
    rw [UInt8.toNat_zero, Nat.zero_testBit]
    by_cases hi : i < 8
    · have hc := h (7 - i) (by omega)
      rwa [Nat.sub_sub_self (by omega)] at hc
    · have hb : b.toNat < 2 ^ i :=
        Nat.lt_of_lt_of_le b.toNat_lt (Nat.pow_le_pow_right (by decide) (Nat.le_of_not_lt hi))
      exact Nat.testBit_lt_two_pow hb

theorem cellsAt_eq_nil_iff : cellsAt left top byte n = [] ↔ ∀ r < n, byte r = 0 := by
  simp only [List.eq_nil_iff_forall_not_mem, mem_cellsAt, eq_zero_iff_testBit]
  constructor
  · intro h r hr c hc
    exact Bool.eq_false_iff.2 fun hb => h _ ⟨r, hr, c, hc, hb, rfl⟩
  · rintro h p ⟨r, hr, c, hc, hb, -⟩
    exact Bool.eq_false_iff.1 (h r hr c hc) hb

theorem cellsAt_congr {byte' : Nat → UInt8} (h : ∀ r < n, byte r = byte' r) :
    cellsAt left top byte n = cellsAt left top byte' n := by
  rw [cellsAt, cellsAt, dots, dots, List.filter_congr]
  rintro ⟨r, c⟩ hrc
  rw [List.mem_product, List.mem_range] at hrc
  simp only [h r hrc.1]

/-- The cells of a sprite are those that it lights. -/
theorem mem_cells_iff (hs : s.rows.length ≤ 32) {x : Fin 64} {y : Fin 32} :
    (x, y) ∈ s.cells ↔ s.lights x y = true := by
  rw [cells, mem_cellsAt, lights, Bool.and_eq_true, decide_eq_true_iff]
  constructor
  · rintro ⟨r, hr, c, hc, hb, hp⟩
    rw [Prod.mk.injEq, Fin.ext_iff, Fin.ext_iff, Fin.val_ofNat, Fin.val_ofNat] at hp
    have hcolumn : (x + (64 - s.left % 64)) % 64 = c := by omega
    have hrow : (y + (32 - s.top % 32)) % 32 = r := by omega
    rw [hcolumn, hrow]
    exact ⟨hc, hb⟩
  · rintro ⟨hc, hb⟩
    refine ⟨_, ?_, _, hc, hb, ?_⟩
    · -- past the last row no bit is set
      by_contra hr
      rw [List.getD_eq_default _ _ (Nat.le_of_not_lt hr)] at hb
      simp at hb
    · rw [Prod.mk.injEq, Fin.ext_iff, Fin.ext_iff, Fin.val_ofNat, Fin.val_ofNat]
      omega

theorem collides_iff (hs : s.rows.length ≤ 32) {screen : Screen} :
    s.collides screen = true ↔ ∃ p ∈ s.cells, screen.get p.1 p.2 = true := by
  simp only [collides, Bitmap.anyCell_eq_true, Bool.and_eq_true, Prod.exists, mem_cells_iff hs,
    and_comm]

theorem get_drawOn (screen : Screen) (x : Fin 64) (y : Fin 32) :
    (s.drawOn screen).get x y = (screen.get x y ^^ s.lights x y) :=
  Bitmap.get_ofFn _ x y

/-- Once a sprite is drawn, it collides with what was not lit before. -/
theorem collides_drawOn_iff (hs : s.rows.length ≤ 32) {screen : Screen} :
    s.collides (s.drawOn screen) = true ↔ ∃ p ∈ s.cells, screen.get p.1 p.2 = false := by
  rw [collides_iff hs]
  refine exists_congr fun p => and_congr_right fun hp => ?_
  rw [get_drawOn, (mem_cells_iff hs).1 hp, Bool.xor_true, Bool.not_eq_true']

/-- Drawing a sprite on all cells at once comes to the same as drawing it cell by
    cell. -/
theorem foldl_flip_cells (hs : s.rows.length ≤ 32) (screen : Screen) :
    s.cells.foldl Canvas.flip ⟨screen, false⟩ = ⟨s.drawOn screen, s.collides screen⟩ := by
  have hl : s.cells.Nodup := nodup_cellsAt hs
  refine Canvas.ext (Bitmap.ext_get fun x y => ?_) (Bool.eq_iff_iff.2 ?_)
  · have hcontains : s.cells.contains (x, y) = s.lights x y :=
      Bool.eq_iff_iff.2 (List.contains_iff_mem.trans (mem_cells_iff hs))
    rw [Canvas.get_foldl_flip hl, get_drawOn, hcontains]
  · rw [Canvas.collided_foldl_flip hl, collides_iff hs]
    simp

/-! ### Many sprites -/

/-- A sprite that is drawn twice leaves no trace. -/
theorem drawOn_drawOn (screen : Screen) : s.drawOn (s.drawOn screen) = screen := by
  refine Bitmap.ext_get fun x y => ?_
  rw [get_drawOn, get_drawOn, Bool.xor_assoc, Bool.xor_self, Bool.xor_false]

/-- Draws the sprites one after the other. -/
def drawAll : List Sprite → Screen → Screen
  | [], screen => screen
  | s :: sprites, screen => drawAll sprites (s.drawOn screen)

/-- A cell is flipped once for each sprite that lights it. -/
theorem get_drawAll (sprites : List Sprite) (screen : Screen) (x : Fin 64) (y : Fin 32) :
    (drawAll sprites screen).get x y =
      (screen.get x y ^^ decide (Odd (sprites.countP (·.lights x y)))) := by
  induction sprites generalizing screen with
  | nil => simp [drawAll]
  | cons s sprites ih =>
    rw [drawAll, ih, get_drawOn, Bool.xor_assoc, List.countP_cons]
    cases s.lights x y <;> simp [Nat.odd_add_one, -Nat.not_odd_iff_even]

theorem drawAll_perm {l l' : List Sprite} (h : l.Perm l') (screen : Screen) :
    drawAll l screen = drawAll l' screen := by
  refine Bitmap.ext_get fun x y => ?_
  rw [get_drawAll, get_drawAll, h.countP_eq]

theorem even_countP {α : Type} [DecidableEq α] {l : List α} (h : ∀ a, Even (l.count a))
    (p : α → Bool) : Even (l.countP p) := by
  -- the members with `p` are as many as all their repetitions
  rw [← List.sum_map_count_dedup_filter_eq_countP, even_iff_two_dvd]
  refine List.dvd_sum fun k hk => ?_
  obtain ⟨a, -, rfl⟩ := List.mem_map.1 hk
  exact (h a).two_dvd

/-- Sprites that are drawn an even number of times each leave no trace. -/
theorem drawAll_map_of_even {α : Type} [DecidableEq α] {l : List α} (h : ∀ a, Even (l.count a))
    (f : α → Sprite) (screen : Screen) : drawAll (l.map f) screen = screen := by
  refine Bitmap.ext_get fun x y => ?_
  have heven : Even ((l.map f).countP (·.lights x y)) := by
    rw [List.countP_map]
    exact even_countP h _
  rw [get_drawAll, decide_eq_false (Nat.not_odd_iff_even.2 heven), Bool.xor_false]

end Sprite

end Chip8
