import Chip8.Image
import Chip8.Proofs.Capacity
import Mathlib.Data.List.OfFn
import Mathlib.Tactic.Ring

/-!
# Images of bitmaps

A bitmap painted at a scale has the pixel `(c, r)` in the colour of the cell `(c / s, r / s)`
(`get_paint_of_div`), so the bitmap can be told from the first pixel of every cell
(`cellsOf_sampled_paint`). It is rendered whole exactly if the bytes of the image are within
the limit, unless it is not scaled at all (`render_eq_whole_iff`). Otherwise it is not rendered,
or an extent of the whole image is no signed number of 64 bits (`render_eq_ok`).

Row by row, the cell `(x, y)` of a bitmap has the place `y * w + x` (`getElem?_toRowMajor`),
so its image can be told from the list of its cells as well (`get_paint_toRowMajor`).
-/

namespace Chip8

namespace Colour

/-- The red, the green and the blue component, as numbers. -/
def components (c : Colour) : List Int :=
  [c.red.toNat, c.green.toNat, c.blue.toNat]

theorem ofInt_toNat (v : UInt8) : UInt8.ofInt v.toNat = v := by
  have hlt : (v.toNat : Int) < 2 ^ 8 := by exact_mod_cast v.toNat_lt
  rw [UInt8.ofInt, Int.emod_eq_of_lt (Int.natCast_nonneg _) hlt, Int.toNat_natCast,
    UInt8.ofNat_toNat]

theorem ofComponents_components (c : Colour) (cells : Nat) :
    ofComponents c.components cells = .ok c := by
  have hrange (v : UInt8) : 0 ≤ (v.toNat : Int) ∧ (v.toNat : Int) < 256 :=
    ⟨Int.natCast_nonneg _, by exact_mod_cast v.toNat_lt⟩
  rw [ofComponents, if_pos (by simp [components, hrange])]
  simp only [components, List.map_cons, List.map_nil, ofInt_toNat]

end Colour

namespace Image

variable {w h s : Nat}

/-- The first pixel of a cell, on either axis. -/
def corner {n : Nat} (hs : 0 < s) (i : Fin n) : Fin (n * s) :=
  ⟨i * s, Nat.mul_lt_mul_of_pos_right i.isLt hs⟩

/-- Every `s`-th row of an image, and every `s`-th pixel in it. -/
def sampled (i : Image (w * s) (h * s)) (hs : 0 < s) : Image w h :=
  ofFn fun x y => i.get (corner hs x) (corner hs y)

/-- The cells that have a colour. -/
def cellsOf (i : Image w h) (c : Colour) : Bitmap w h :=
  .ofFn fun x y => i.get x y = c

theorem cell_corner {n : Nat} (hs : 0 < s) (i : Fin n) : cell (corner hs i) = i :=
  Fin.ext (Nat.mul_div_cancel _ hs)

end Image

namespace Bitmap

open Capacity

variable {cap : Capacity} {w h s : Nat} {scale : Int}

/-! ### Pixels -/

theorem get_paint_of_div (b : Bitmap w h) (p : Palette) {c : Fin (w * s)} {r : Fin (h * s)}
    {x : Fin w} {y : Fin h} (hx : (c : Nat) / s = x) (hy : (r : Nat) / s = y) :
    (b.paint p s).get c r = if b.get x y then p.on else p.off := by
  have hc : Image.cell c = x := Fin.ext hx
  have hr : Image.cell r = y := Fin.ext hy
  rw [get_paint, hc, hr]

theorem get_sampled_paint (b : Bitmap w h) (p : Palette) (hs : 0 < s) (x : Fin w) (y : Fin h) :
    ((b.paint p s).sampled hs).get x y = if b.get x y then p.on else p.off := by
  rw [Image.sampled, Image.get_ofFn, get_paint, Image.cell_corner, Image.cell_corner]

/-- With two colours, the first pixels of the cells tell the bitmap. -/
theorem cellsOf_sampled_paint (b : Bitmap w h) {p : Palette} (hp : p.on ≠ p.off) (hs : 0 < s) :
    ((b.paint p s).sampled hs).cellsOf p.on = b := by
  refine ext_get fun x y => ?_
  rw [Image.cellsOf, get_ofFn, get_sampled_paint]
  cases b.get x y with
  | true => exact decide_eq_true rfl
  | false => exact decide_eq_false hp.symm

theorem paletteOf_components (b : Bitmap w h) (p : Palette) :
    b.paletteOf p.on.components p.off.components = .ok p := by
  simp only [paletteOf, Colour.ofComponents_components]

/-! ### Row by row -/

theorem natCast_place (x : Fin w) (y : Fin h) : (y * w + x : Nat) = Fin.mkDivMod y x := by
  rw [Fin.coe_mkDivMod, Nat.mul_comm]

theorem toRowMajor_eq_ofFn (b : Bitmap w h) :
    b.toRowMajor = List.ofFn fun i : Fin (h * w) => if b.get i.modNat i.divNat then 1 else 0 := by
  rw [List.ofFn_mul, toRowMajor, List.flatMap_def, List.finRange, List.finRange, List.map_ofFn]
  congr 2
  funext y
  rw [Function.comp_apply, List.map_ofFn]
  congr 1
  funext x
  simp only [Function.comp_apply, natCast_place, Fin.eta, Fin.modNat_mkDivMod,
    Fin.divNat_mkDivMod]

theorem length_toRowMajor (b : Bitmap w h) : b.toRowMajor.length = h * w := by
  rw [toRowMajor_eq_ofFn, List.length_ofFn]

theorem getElem?_toRowMajor (b : Bitmap w h) (x : Fin w) (y : Fin h) :
    b.toRowMajor[y * w + x]? = some (if b.get x y then 1 else 0) := by
  rw [toRowMajor_eq_ofFn, natCast_place, List.getElem?_ofFn, dif_pos (Fin.isLt _), Fin.eta,
    Fin.modNat_mkDivMod, Fin.divNat_mkDivMod]

/-- The image can be told from the list of the cells, in which a row takes `w` places. -/
theorem get_paint_toRowMajor (b : Bitmap w h) (p : Palette) (c : Fin (w * s)) (r : Fin (h * s)) :
    (b.paint p s).get c r = if b.toRowMajor[r / s * w + c / s]? = some 1 then p.on else p.off := by
  have hcell : b.toRowMajor[r / s * w + c / s]? =
      some (if b.get (Image.cell c) (Image.cell r) then 1 else 0) :=
    b.getElem?_toRowMajor (Image.cell c) (Image.cell r)
  rw [hcell, get_paint]
  cases b.get (Image.cell c) (Image.cell r) <;> rfl

/-! ### Room -/

theorem natCast_cellSize (scale : Int) : (cellSize scale : Int) = max 1 scale := by
  rw [cellSize]
  omega

theorem cellSize_pos (scale : Int) : 0 < cellSize scale :=
  Nat.lt_of_lt_of_le Nat.one_pos (Nat.le_max_left 1 _)

theorem cellSize_of_le (hscale : scale ≤ 1) : cellSize scale = 1 := by
  rw [cellSize]
  omega

theorem room_of_lt (hw : 0 < w) (hscale : 1 < scale) :
    room cap w h scale = (repeated h scale >>= fun rows => cap.reserve 1 [rows, w, 3] >>= fun _ =>
      repeated w scale >>= fun columns => cap.reserve 1 [rows, columns, 3]) := by
  rw [room, extents, if_neg hw.ne']
  simp only
  rw [if_neg (not_le.2 hscale)]

theorem room_of_le (hw : 0 < w) (hscale : scale ≤ 1) : room cap w h scale = .ok [h, w, 3] := by
  rw [room, extents, if_neg hw.ne']
  simp only
  rw [if_pos hscale]
  rfl

/-- There is room for the scaled image exactly if there is for its extents: the image whose
    rows alone are repeated is no larger. -/
theorem room_eq_ok_iff_reserve (hw : 0 < w) (hh : 0 < h) (hscale : 1 < scale) :
    room cap w h scale = .ok [h * scale, w * scale, 3] ↔
      cap.reserve 1 [h * scale, w * scale, 3] = .ok [h * scale, w * scale, 3] := by
  have hpos : 0 < scale := Int.zero_lt_one.trans hscale
  have hh' : 0 < (h : Int) := Int.natCast_pos.2 hh
  have hw' : 0 < (w : Int) := Int.natCast_pos.2 hw
  rw [room_of_lt hw hscale]
  simp only [bind_eq_ok_iff]
  constructor
  · rintro ⟨rows, -, _, -, columns, -, hlast⟩
    exact (reserve_eq_ok hlast).1 ▸ hlast
  · intro hlast
    have hrows : isSigned 64 (h * scale) = true := isSigned_of_reserve hlast (by simp)
    have hcolumns : isSigned 64 (w * scale) = true := isSigned_of_reserve hlast (by simp)
    have hcount := isSigned_mono hpos.le (le_mul_of_one_le_left hpos.le hh') hrows
    have hle : [h * scale, w, 3].prod ≤ [h * scale, w * scale, 3].prod := by
      simp only [List.prod_cons, List.prod_nil, mul_one]
      exact mul_le_mul_of_nonneg_left (mul_le_mul_of_nonneg_right
        (le_mul_of_one_le_right hw'.le hscale.le) (by decide)) (mul_pos hh' hpos).le
    have hfirst := reserve_of_prod_le Nat.one_pos (by simp [hh, hw, hpos])
      (by simp [hh, hw, hpos]) hle hlast
    exact ⟨_, repeated_of_isSigned hcount hrows, _, hfirst, _,
      repeated_of_isSigned hcount hcolumns, hlast⟩

/-- There is room for an image that is scaled exactly if its bytes are within the limit, and
    always for one that is not. -/
theorem room_eq_ok_iff (cap : Capacity) (hw : 0 < w) (hh : 0 < h) (scale : Int) :
    room cap w h scale = .ok [↑(h * cellSize scale), ↑(w * cellSize scale), 3] ↔
      scale ≤ 1 ∨ 3 * (h * cellSize scale) * (w * cellSize scale) ≤ cap.limit := by
  rcases Int.lt_or_le 1 scale with hscale | hscale
  · have hs : (cellSize scale : Int) = scale := by rw [natCast_cellSize, max_eq_right hscale.le]
    have hpos : 0 < scale := Int.zero_lt_one.trans hscale
    have hbytes : ((1 : Nat) : Int) * [h * scale, w * scale, 3].prod =
        (3 * (h * cellSize scale) * (w * cellSize scale) : Nat) := by
      simp only [List.prod_cons, List.prod_nil, Nat.cast_mul, hs]
      ring
    rw [Nat.cast_mul, Nat.cast_mul, hs, room_eq_ok_iff_reserve hw hh hscale,
      reserve_eq_ok_iff Nat.one_pos (by simp [hw, hh, hpos]), hbytes, Nat.cast_le]
    exact (or_iff_right (not_le.2 hscale)).symm
  · rw [room_of_le hw hscale, cellSize_of_le hscale, Nat.mul_one, Nat.mul_one]
    exact iff_of_true rfl (.inl hscale)

/-- Extents that signed numbers can tell are those for which room is made, if any is. -/
theorem extents_of_room (hw : 0 < w) {extents : List Int} (h₀ : room cap w h scale = .ok extents)
    (hrows : isSigned 64 ↑(h * cellSize scale) = true)
    (hcolumns : isSigned 64 ↑(w * cellSize scale) = true) :
    extents = [↑(h * cellSize scale), ↑(w * cellSize scale), 3] := by
  rcases Int.lt_or_le 1 scale with hscale | hscale
  · have hs : (cellSize scale : Int) = scale := by rw [natCast_cellSize, max_eq_right hscale.le]
    rw [Nat.cast_mul, hs] at hrows hcolumns ⊢
    rw [room_of_lt hw hscale] at h₀
    simp only [bind_eq_ok_iff] at h₀
    obtain ⟨rows, hr, _, -, columns, hc, hlast⟩ := h₀
    rw [(reserve_eq_ok hlast).1, eq_of_repeated hr hrows, eq_of_repeated hc hcolumns, Nat.cast_mul,
      hs]
  · rw [room_of_le hw hscale] at h₀
    rw [cellSize_of_le hscale, Nat.mul_one, Nat.mul_one]
    exact (Except.ok.inj h₀).symm

/-! ### Rendering -/

/-- What is rendered is whole, or it has other extents, and then an extent of the whole image
    is no signed number of 64 bits. -/
theorem render_eq_ok (hw : 0 < w) {b : Bitmap w h} {p : Palette} {r : Image.Rendering}
    (hr : b.render cap p scale = .ok r) :
    r = b.whole p (cellSize scale) ∨
      r.extents ≠ [↑(h * cellSize scale), ↑(w * cellSize scale), 3] ∧
        (2 ^ 63 ≤ h * cellSize scale ∨ 2 ^ 63 ≤ w * cellSize scale) := by
  rw [render] at hr
  split at hr
  · cases hr
  next extents hroom =>
  simp only at hr
  split at hr
  · exact .inl (Except.ok.inj hr).symm
  next hne =>
  rw [← Except.ok.inj hr]
  refine .inr ⟨hne, ?_⟩
  by_contra hlt
  rw [not_or, not_le, not_le] at hlt
  exact hne (extents_of_room hw hroom (isSigned_natCast hlt.1) (isSigned_natCast hlt.2))

/-- A bitmap is rendered whole exactly if the bytes of its image are within the limit, or it
    is not scaled. -/
theorem render_eq_whole_iff (cap : Capacity) (hw : 0 < w) (hh : 0 < h) (b : Bitmap w h)
    (p : Palette) (scale : Int) :
    b.render cap p scale = .ok (b.whole p (cellSize scale)) ↔
      scale ≤ 1 ∨ 3 * (h * cellSize scale) * (w * cellSize scale) ≤ cap.limit := by
  rw [← room_eq_ok_iff cap hw hh]
  constructor
  · intro hr
    rw [render] at hr
    split at hr
    · cases hr
    next extents hroom =>
    simp only at hr
    split at hr
    · next hextents => rw [hroom, hextents]
    · next hne => exact absurd (congrArg Image.Rendering.extents (Except.ok.inj hr)) hne
  · intro hroom
    rw [render, hroom]
    exact if_pos rfl

end Bitmap

end Chip8
