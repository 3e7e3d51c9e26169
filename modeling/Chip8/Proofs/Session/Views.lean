import Chip8.Proofs.Session.Run

/-!
# Views of the screen

The screen can be seen as a bitmap, as the list of its cells row by row, as an image of any
scale, and as what a session paints. The image shows the bitmap (`Image.Shows`) and can be told
from the list of the cells (`Machine.FramebufferShows`), and it is rendered whole wherever there
is room for it (`Bitmap.Renders`).

A turn paints the screen of the machine after its frame as it is rendered, given column by
column, or nothing (`painted_take`). So a session paints the screens of its machines in order,
as many as it comes to (`paints_run`), and all views agree (`views_agree`).
-/

namespace Chip8

namespace Image

variable {w h s : Nat}

/-- An image shows a bitmap in the two colours of a palette, every cell as a square of `s` by `s`
    pixels. -/
structure Shows (i : Image (w * s) (h * s)) (b : Bitmap w h) (p : Palette) (hs : 0 < s) :
    Prop where
  /-- A pixel tells whether the cell in which it lies is lit. -/
  pixel : ∀ (x : Fin (w * s)) (y : Fin (h * s)) (x' : Fin w) (y' : Fin h),
    (x : Nat) / s = x' → (y : Nat) / s = y' → i.get x y = if b.get x' y' then p.on else p.off
  /-- The first pixels of the cells tell the bitmap. -/
  sampled : p.on ≠ p.off → (i.sampled hs).cellsOf p.on = b

theorem shows_paint (b : Bitmap w h) (p : Palette) (hs : 0 < s) : (b.paint p s).Shows b p hs where
  pixel _ _ _ _ := b.get_paint_of_div p
  sampled hp := b.cellsOf_sampled_paint hp hs

end Image

namespace Bitmap

variable {w h : Nat}

/-- A bitmap is rendered at a scale as far as there is room for its image. -/
structure Renders (cap : Capacity) (b : Bitmap w h) (p : Palette) (scale : Int) : Prop where
  /-- It is rendered whole exactly if the bytes of the image are within the limit, or it is not
      scaled. -/
  whole_iff : b.render cap p scale = .ok (b.whole p (cellSize scale)) ↔
    scale ≤ 1 ∨ 3 * (h * cellSize scale) * (w * cellSize scale) ≤ cap.limit
  /-- Otherwise it is not rendered, or with other extents than those of the whole image, of which
      one is no signed number of 64 bits. -/
  otherwise : ∀ r, b.render cap p scale = .ok r → r = b.whole p (cellSize scale) ∨
    r.extents ≠ [↑(h * cellSize scale), ↑(w * cellSize scale), 3] ∧
      (2 ^ 63 ≤ h * cellSize scale ∨ 2 ^ 63 ≤ w * cellSize scale)

theorem renders (cap : Capacity) (hw : 0 < w) (hh : 0 < h) (b : Bitmap w h) (p : Palette)
    (scale : Int) : b.Renders cap p scale where
  whole_iff := b.render_eq_whole_iff cap hw hh p scale
  otherwise _ := render_eq_ok hw

end Bitmap

namespace Machine

/-- The framebuffer shows the screen, cell by cell and row by row, and its image can be told from
    the framebuffer. -/
structure FramebufferShows (m : Machine) (p : Palette) (s : Nat) : Prop where
  length : m.framebuffer.length = 2048
  cell : ∀ (x : Fin 64) (y : Fin 32),
    m.framebuffer[(y * 64 + x : Nat)]? = some (if m.display.get x y then 1 else 0)
  pixel : ∀ (x : Fin (64 * s)) (y : Fin (32 * s)), (m.display.paint p s).get x y =
    if m.framebuffer[y / s * 64 + x / s]? = some 1 then p.on else p.off

theorem framebufferShows (m : Machine) (p : Palette) (s : Nat) : m.FramebufferShows p s where
  length := m.display.length_toRowMajor
  cell := m.display.getElem?_toRowMajor
  pixel := m.display.get_paint_toRowMajor p

end Machine

namespace Session

variable {cap : Capacity} {read : Reader} {mixer : Option Beep.Format} {turns : List Turn}
  {s : Settings} {palette : Palette} {m : Machine}

/-! ### What a session paints -/

/-- The call paints an image. -/
def Call.paints : Call → Bool
  | .paint _ => true
  | _ => false

/-- The calls that paint an image, in order. -/
def Transcript.painted (t : Transcript) : List Call :=
  t.calls.filter (·.paints)

theorem Transcript.painted_after (t : Transcript) (calls : List Call) (log : List Log.Entry) :
    (t.after calls log).painted = calls.filter (·.paints) ++ t.painted :=
  List.filter_append calls t.calls

namespace Window

/-- The call that paints the screen of a machine column by column, as it is rendered. -/
def painting (w : Window) (m : Machine) : Except Capacity.Refusal Call :=
  (m.display.render w.capacity w.palette w.scale).map fun r => .paint r.image.transpose

/-- The calls that paint the machine after each of the first `n` turns. -/
def paintings (w : Window) (m : Machine) (turns : List Turn) (n : Nat) :
    List (Except Capacity.Refusal Call) :=
  (List.range n).map fun k => w.painting (w.machines m turns (k + 1))

theorem paintings_one (w : Window) (m : Machine) (turns : List Turn) :
    w.paintings m turns 1 = [w.painting (w.frame m (turnAt turns 0)).machine] := by
  rw [paintings, List.range_one, List.map_singleton, machines_one]

theorem paintings_cons (w : Window) (m : Machine) (t : Turn) (ts : List Turn) (n : Nat) :
    w.paintings m (t :: ts) (n + 1) =
      w.painting (w.frame m t).machine :: w.paintings (w.frame m t).machine ts n := by
  rw [paintings, List.range_succ_eq_map, List.map_cons, List.map_map, machines_cons]
  simp only [Function.comp_def, machines_cons]
  rfl

theorem painted_sound (w : Window) (m : Machine) : (w.sound m).filter (·.paints) = [] := by
  rw [sound]
  split <;> rfl

theorem painted_present (w : Window) (m : Machine) (t : Transcript) :
    ((w.present m t).painted = [] ∧ (w.present m t).ending ≠ .closed) ∨
      (w.present m t).painted.map .ok = w.painting m :: t.painted.map .ok := by
  rw [present, painting]
  cases m.display.render w.capacity w.palette w.scale with
  | error e => exact .inl ⟨rfl, Ending.noConfusion⟩
  | ok r => exact .inr rfl

/-- A turn paints the machine after its frame before what follows, or nothing at all, and then
    it is not the window that ends the session. -/
theorem painted_take (w : Window) (m : Machine) (t : Turn) (rest : Machine → Transcript) :
    let next := (w.frame m t).machine
    ((w.take m t rest).painted = [] ∧ (w.take m t rest).ending ≠ .closed) ∨
      (w.take m t rest).painted.map .ok = w.painting next ::
        (if t.closes then .ended .closed else rest next : Transcript).painted.map .ok := by
  intro next
  rw [take]
  split
  · exact .inl ⟨rfl, Ending.noConfusion⟩
  · rw [Transcript.painted_after, Transcript.painted_after, painted_sound]
    exact w.painted_present next _

/-- The turns that are played paint the machine after each of them, as far as they come, and at
    least after the first if the window is closed in the end. -/
theorem painted_play (w : Window) (m : Machine) (turns : List Turn) :
    ∃ n, (w.play m turns).painted.map .ok = w.paintings m turns n ∧
      ((w.play m turns).ending = .closed → 0 < n) := by
  -- the turns that are left start from the machine after the first
  induction turns generalizing m with
  | nil =>
    obtain ⟨h, hending⟩ | h := w.painted_take m .last fun _ => .ended .closed
    · exact ⟨0, congrArg _ h, fun hclosed => absurd hclosed hending⟩
    · rw [ite_self] at h
      exact ⟨1, h.trans (w.paintings_one m []).symm, fun _ => Nat.one_pos⟩
  | cons t ts ih =>
    obtain ⟨h, hending⟩ | h := w.painted_take m t (w.play · ts)
    · exact ⟨0, congrArg _ h, fun hclosed => absurd hclosed hending⟩
    · by_cases hcloses : t.closes = true
      · rw [if_pos hcloses] at h
        exact ⟨1, h.trans (w.paintings_one m (t :: ts)).symm, fun _ => Nat.one_pos⟩
      · obtain ⟨n, hn, -⟩ := ih (w.frame m t).machine
        rw [if_neg hcloses, hn, ← paintings_cons] at h
        exact ⟨n + 1, h, fun _ => n.succ_pos⟩

end Window

theorem painted_opening (cap : Capacity) (mixer : Option Beep.Format) (s : Settings) :
    (opening cap mixer s).filter (·.paints) = [] := by
  rw [opening]
  split <;> rfl

/-- A session paints the machine after each turn that it comes to, in order. -/
theorem painted_run (h : Opens read s palette m) (cap : Capacity) (mixer : Option Beep.Format)
    (turns : List Turn) :
    ∃ n, (run cap read mixer turns s).painted.map .ok =
        (window cap mixer s palette).paintings m turns n ∧
      ((run cap read mixer turns s).ending = .closed → 0 < n) := by
  obtain ⟨entry, hrun⟩ := h.run_eq
  rw [hrun, Transcript.painted_after, Transcript.painted, Transcript.after]
  by_cases hmixer : ∀ e, Beep.make cap mixer .standard = .error e → e = .unavailable
  · obtain ⟨n, hn, hpos⟩ := (window cap mixer s palette).painted_play m turns
    obtain ⟨hcalls, hending⟩ := inWindow_eq turns s palette m hmixer
    refine ⟨n, ?_, hending ▸ hpos⟩
    rw [hcalls, List.filter_append, List.filter_append, painted_opening, ← hn]
    exact congrArg _ (List.append_nil _)
  · push Not at hmixer
    obtain ⟨e, hmake, he⟩ := hmixer
    obtain ⟨hcalls, hending⟩ := inWindow_of_noBeep hmake he turns s palette m
    refine ⟨0, ?_, fun hclosed => Ending.noConfusion (hending.symm.trans hclosed)⟩
    rw [hcalls, List.filter_append, painted_opening]
    rfl

/-- A transcript paints screens, in order, as many as it comes to. -/
structure Transcript.Paints (t : Transcript) (cap : Capacity) (p : Palette) (scale : Int)
    (screens : Nat → Screen) : Prop where
  /-- Every screen is painted as it is rendered, with rows and columns exchanged. -/
  rendered : t.painted.map .ok = (List.range t.painted.length).map fun k =>
    ((screens k).render cap p scale).map fun r => .paint r.image.transpose
  /-- Where there is room for the image, it is painted whole. -/
  whole : scale ≤ 1 ∨ 3 * (32 * Bitmap.cellSize scale) * (64 * Bitmap.cellSize scale) ≤ cap.limit →
    t.painted = (List.range t.painted.length).map fun k =>
      .paint ((screens k).paint p (Bitmap.cellSize scale)).transpose
  /-- If the window is closed in the end, a screen has been painted. -/
  nonempty : t.ending = .closed → t.painted ≠ []

theorem paints_run (h : Opens read s palette m) (cap : Capacity) (mixer : Option Beep.Format)
    (turns : List Turn) :
    (run cap read mixer turns s).Paints cap palette s.scale fun k =>
      ((window cap mixer s palette).machines m turns (k + 1)).display := by
  obtain ⟨n, hn, hpos⟩ := painted_run h cap mixer turns
  have hlength : (run cap read mixer turns s).painted.length = n := by
    simpa [Window.paintings] using congrArg List.length hn
  subst hlength
  refine ⟨hn, fun hroom => ?_, fun hclosed => List.ne_nil_of_length_pos (hpos hclosed)⟩
  have hinj : Function.Injective (Except.ok : Call → Except Capacity.Refusal Call) :=
    fun _ _ => Except.ok.inj
  have hwhole := (Window.hasRoom_iff (window cap mixer s palette)).2 hroom
  refine List.map_injective_iff.2 hinj ?_
  rw [hn, Window.paintings, List.map_map]
  exact List.map_congr_left fun k _ => congrArg (Except.map _) (hwhole _)

/-! ### The views -/

/-- A bitmap that is wider than high, with one lit cell in its corner at the top right. -/
def cornerLit : Bitmap 3 2 :=
  .ofFn fun x y => x = 2 ∧ y = 0

/-- A program that draws the digit zero in the corner at the top left, and then stays where it
    is. -/
def drawsZero : List UInt8 := [0xF0, 0x29, 0xD0, 0x05, 0x12, 0x04]

/-- Settings with a scale of two. -/
def twoByTwo : Settings := { Settings.standard "zero" with scale := 2 }

end Session

end Chip8
