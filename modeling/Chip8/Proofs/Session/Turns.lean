import Chip8.Proofs.Image
import Chip8.Proofs.Machine.Run
import Chip8.Session
import Mathlib.Data.Nat.Find

/-!
# The turns of a session

A session runs one frame a turn, so what it shows is known from the machine alone:
`Window.machines` are the loaded machine and the machine after each turn, in which
the keys that are held are taken over and a frame is run. A turn shows the machine
after its frame (`Window.shows`).

The turns are taken in order up to the first that closes the window, and that one
is shown too, unless the machine stops in an earlier one or in the same: then
nothing of that turn is shown (`Window.Plays`, `Window.plays_play`). Of what happens to
the window, only whether it closes matters (`Window.play_congr`).
-/

namespace Chip8

namespace Machine

variable {m : Machine}

theorem fault?_eq_none_iff : m.fault? = none ↔ m.fault = none :=
  Option.map_eq_none_iff

theorem fault_ne_none_iff : m.fault ≠ none ↔ ∃ a, m.fault? = some a := by
  rw [← Option.ne_none_iff_exists', Ne, Ne, fault?_eq_none_iff]

end Machine

namespace Session

variable {m : Machine} {t : Turn} {turns : List Turn} {q : Nat}

/-! ### One turn -/

namespace Turn

/-- The turn closes the window: the user closes it or presses escape. -/
def Closing (t : Turn) : Prop :=
  .quit ∈ t.events ∨ .keyDown escape ∈ t.events

instance (t : Turn) : Decidable t.Closing :=
  inferInstanceAs (Decidable (_ ∨ _))

/-- Which keys of the machine are down: those whose host keys are held. -/
def keys (t : Turn) : Vector Bool 16 :=
  Keypad.standardCodes.map fun code => decide (code ∈ t.held)

theorem closes_iff : t.closes = true ↔ t.Closing := by
  rw [closes, List.any_eq_true, Closing]
  constructor
  · rintro ⟨e, he, hc⟩
    cases e with
    | quit => exact .inl he
    | keyDown code => exact .inr (of_decide_eq_true hc ▸ he)
    | keyUp code => cases hc
  · rintro (he | he)
    · exact ⟨_, he, rfl⟩
    · exact ⟨_, he, rfl⟩

theorem last_closing : last.Closing :=
  .inl (List.mem_singleton_self _)

/-- The standard keypad has the keys down whose host keys are held. -/
theorem statesHolding_held (t : Turn) :
    Keypad.standard.statesHolding (t.held.map fun code => .number (.whole code)) = t.keys := by
  rw [Keypad.statesHolding, Keypad.standard, Keypad.ofCodes, keys, Vector.map_map]
  refine Vector.map_congr_left fun code _ => ?_
  rw [Function.comp_apply, List.any_map, Bool.eq_iff_iff, List.any_eq_true, decide_eq_true_eq]
  constructor
  · rintro ⟨c, hc, hs⟩
    exact of_decide_eq_true hs ▸ hc
  · exact fun hc => ⟨code, hc, decide_eq_true rfl⟩

end Turn

/-- The turn number `k`. After those that are listed the window is closed. -/
def turnAt (turns : List Turn) (k : Nat) : Turn :=
  turns.getD k .last

namespace Window

/-- The machine before the turn `k`. -/
def machines (w : Window) (m : Machine) (turns : List Turn) : Nat → Machine
  | 0 => m
  | k + 1 =>
    (((w.machines m turns k).setKeys (turnAt turns k).keys).emulate w.instructions).machine

/-- What a turn shows of the machine after its frame. -/
def shows (w : Window) (m : Machine) : List Call :=
  .awaitFrame framesPerSecond :: (if w.audible ∧ m.soundEvent then [.playSound] else []) ++
    [.paint (m.display.paint w.palette (Bitmap.cellSize w.scale)).transpose, .flip]

/-- There is room for the image of the screen: it is rendered whole. -/
def HasRoom (w : Window) : Prop :=
  ∀ screen : Screen, screen.render w.capacity w.palette w.scale =
    .ok (screen.whole w.palette (Bitmap.cellSize w.scale))

/-- The calls and the ending of the turns up to `q`, which closes the window, when
    `machines` are the machines before each turn. -/
structure Plays (w : Window) (machines : Nat → Machine) (q : Nat) (calls : List Call)
    (ending : Ending) : Prop where
  /-- As long as the machine runs, every turn up to `q` is shown. -/
  closed : (∀ k ≤ q, (machines (k + 1)).fault = none) →
    calls = (List.range (q + 1)).flatMap (fun k => w.shows (machines (k + 1))) ∧
      ending = .closed
  /-- If it stops in the turn `f`, the turns before are shown, and no more. -/
  stopped : ∀ f ≤ q, ∀ a, (∀ k < f, (machines (k + 1)).fault = none) →
    (machines (f + 1)).fault? = some a →
    calls = (List.range f).flatMap (fun k => w.shows (machines (k + 1))) ++
        [.awaitFrame framesPerSecond] ∧
      ending = .stopped a

variable {w : Window} {machines : Nat → Machine} {a : MachineFault} {calls : List Call}
  {ending : Ending}

/-- If the machine stops in one of the turns up to `q`, there is a first of them. -/
theorem exists_first_stop (h : ∃ k ≤ q, (machines (k + 1)).fault ≠ none) :
    ∃ f ≤ q, ∃ a, (∀ k < f, (machines (k + 1)).fault = none) ∧
      (machines (f + 1)).fault? = some a := by
  classical
  obtain ⟨hle, hf⟩ := Nat.find_spec h
  obtain ⟨a, ha⟩ := Machine.fault_ne_none_iff.1 hf
  refine ⟨Nat.find h, hle, a, fun k hk => ?_, ha⟩
  exact not_not.1 fun hne => Nat.find_min h hk ⟨Nat.le_trans (Nat.le_of_lt hk) hle, hne⟩

namespace Plays

theorem ending_eq (h : w.Plays machines q calls ending) :
    ending = .closed ∨ ∃ a, ending = .stopped a := by
  by_cases hstop : ∃ k ≤ q, (machines (k + 1)).fault ≠ none
  · obtain ⟨f, hle, a, hlt, ha⟩ := exists_first_stop hstop
    exact .inr ⟨a, (h.stopped f hle a hlt ha).2⟩
  · push Not at hstop
    exact .inl (h.closed hstop).2

/-- The machine stops in the first turn. -/
theorem of_stopped (ha : (machines 1).fault? = some a) :
    w.Plays machines q [.awaitFrame framesPerSecond] (.stopped a) := by
  constructor
  · exact fun hrun => absurd (hrun 0 q.zero_le) (Machine.fault_ne_none_iff.2 ⟨_, ha⟩)
  · intro f _ b hrun hb
    cases f with
    | zero => exact ⟨rfl, congrArg Ending.stopped (Option.some.inj (ha.symm.trans hb))⟩
    | succ f => exact absurd (hrun 0 f.succ_pos) (Machine.fault_ne_none_iff.2 ⟨_, ha⟩)

/-- The first turn closes the window. -/
theorem of_closing (hf : (machines 1).fault = none) :
    w.Plays machines 0 (w.shows (machines 1)) .closed := by
  constructor
  · exact fun _ => ⟨(List.append_nil _).symm, rfl⟩
  · intro f hle b _ hb
    obtain rfl := Nat.le_zero.1 hle
    exact absurd hf (Machine.fault_ne_none_iff.2 ⟨_, hb⟩)

/-- The first turn is shown, and the others follow. -/
theorem cons (hf : (machines 1).fault = none)
    (h : w.Plays (fun k => machines (k + 1)) q calls ending) :
    w.Plays machines (q + 1) (w.shows (machines 1) ++ calls) ending := by
  have shift (n : Nat) : (List.range (n + 1)).flatMap (fun k => w.shows (machines (k + 1))) =
      w.shows (machines 1) ++
        (List.range n).flatMap fun k => w.shows (machines (k + 1 + 1)) := by
    rw [List.range_succ_eq_map, List.flatMap_cons, List.flatMap_map]
  constructor
  · intro hrun
    obtain ⟨hcalls, hending⟩ := h.closed fun k hk => hrun (k + 1) (Nat.succ_le_succ hk)
    exact ⟨by rw [shift, hcalls], hending⟩
  · intro f hle b hrun hb
    cases f with
    | zero => exact absurd hf (Machine.fault_ne_none_iff.2 ⟨_, hb⟩)
    | succ f =>
      obtain ⟨hcalls, hending⟩ := h.stopped f (Nat.le_of_succ_le_succ hle) b
        (fun k hk => hrun (k + 1) (Nat.succ_lt_succ hk)) hb
      exact ⟨by rw [shift, hcalls, List.append_assoc], hending⟩

end Plays

theorem machines_one (w : Window) (m : Machine) (turns : List Turn) :
    w.machines m turns 1 = (w.frame m (turnAt turns 0)).machine := by
  rw [frame, Turn.statesHolding_held]
  rfl

theorem machines_cons (w : Window) (m : Machine) (t : Turn) (ts : List Turn) (k : Nat) :
    w.machines m (t :: ts) (k + 1) = w.machines (w.frame m t).machine ts k := by
  induction k with
  | zero => exact machines_one w m (t :: ts)
  | succ k ih => rw [machines, ih]; rfl

/-- There is room for the image exactly if its bytes are within the limit, or it is not
    scaled. -/
theorem hasRoom_iff (w : Window) :
    w.HasRoom ↔ w.scale ≤ 1 ∨ 3 * (screenHeight * Bitmap.cellSize w.scale) *
      (screenWidth * Bitmap.cellSize w.scale) ≤ w.capacity.limit := by
  have hiff (screen : Screen) := screen.render_eq_whole_iff w.capacity (by decide) (by decide)
    w.palette w.scale
  exact ⟨fun h => (hiff .blank).1 (h .blank), fun h screen => (hiff screen).2 h⟩

theorem shows_eq (w : Window) (m : Machine) :
    w.shows m = .awaitFrame framesPerSecond :: w.sound m ++
      [.paint (m.display.paint w.palette (Bitmap.cellSize w.scale)).transpose, .flip] := by
  rw [shows, sound]
  simp only [Bool.and_eq_true]

theorem play_eq_take (w : Window) (m : Machine) (turns : List Turn) :
    ∃ rest, w.play m turns = w.take m (turnAt turns 0) rest := by
  cases turns with
  | nil => exact ⟨_, rfl⟩
  | cons t ts => exact ⟨_, rfl⟩

/-- A turn in which the machine stops shows nothing. -/
theorem take_stopped (rest : Machine → Transcript)
    (ha : (w.frame m t).machine.fault? = some a) :
    (w.take m t rest).calls = [.awaitFrame framesPerSecond] ∧
      (w.take m t rest).ending = .stopped a := by
  simp only [take, ha]
  exact ⟨rfl, rfl⟩

section HasRoom

variable (hroom : w.HasRoom) (rest : Machine → Transcript)
include hroom

/-- A turn in which the machine does not stop shows it, and is the last if it
    closes the window. -/
theorem take_shown (hf : (w.frame m t).machine.fault = none) :
    let next := if t.closes then .ended .closed else rest (w.frame m t).machine
    (w.take m t rest).calls = w.shows (w.frame m t).machine ++ next.calls ∧
      (w.take m t rest).ending = next.ending := by
  have hf' := Machine.fault?_eq_none_iff.2 hf
  simp only [take, hf', present, hroom (w.frame m t).machine.display, shows_eq]
  refine ⟨?_, rfl⟩
  simp only [Transcript.after, Bitmap.whole, List.append_assoc, List.cons_append, List.nil_append]

theorem take_closing (ht : t.Closing) (hf : (w.frame m t).machine.fault = none) :
    (w.take m t rest).calls = w.shows (w.frame m t).machine ∧
      (w.take m t rest).ending = .closed := by
  have h := take_shown hroom rest hf
  rw [if_pos (Turn.closes_iff.2 ht)] at h
  exact ⟨h.1.trans (List.append_nil _), h.2⟩

theorem take_going (ht : ¬ t.Closing) (hf : (w.frame m t).machine.fault = none) :
    (w.take m t rest).calls =
        w.shows (w.frame m t).machine ++ (rest (w.frame m t).machine).calls ∧
      (w.take m t rest).ending = (rest (w.frame m t).machine).ending := by
  have h := take_shown hroom rest hf
  rwa [if_neg (mt Turn.closes_iff.1 ht)] at h

end HasRoom

/-! ### All turns -/

theorem plays_play_of_stopped (ha : (w.machines m turns 1).fault? = some a) :
    w.Plays (w.machines m turns) q (w.play m turns).calls (w.play m turns).ending := by
  obtain ⟨rest, hplay⟩ := w.play_eq_take m turns
  obtain ⟨hcalls, hending⟩ := take_stopped rest (machines_one w m turns ▸ ha)
  rw [hplay, hcalls, hending]
  exact .of_stopped ha

theorem plays_play_of_closing (hroom : w.HasRoom) (hq : (turnAt turns 0).Closing)
    (hf : (w.machines m turns 1).fault = none) :
    w.Plays (w.machines m turns) 0 (w.play m turns).calls (w.play m turns).ending := by
  obtain ⟨rest, hplay⟩ := w.play_eq_take m turns
  obtain ⟨hcalls, hending⟩ := take_closing hroom rest hq (machines_one w m turns ▸ hf)
  rw [hplay, hcalls, hending, ← machines_one]
  exact .of_closing hf

theorem plays_play_cons {ts : List Turn} (hroom : w.HasRoom) (ht : ¬ t.Closing)
    (hf : (w.frame m t).machine.fault = none)
    (h : w.Plays (w.machines (w.frame m t).machine ts) q (w.play (w.frame m t).machine ts).calls
      (w.play (w.frame m t).machine ts).ending) :
    w.Plays (w.machines m (t :: ts)) (q + 1) (w.play m (t :: ts)).calls
      (w.play m (t :: ts)).ending := by
  have hone : w.machines m (t :: ts) 1 = (w.frame m t).machine := machines_one w m (t :: ts)
  obtain ⟨hcalls, hending⟩ := take_going hroom (w.play · ts) ht hf
  have hplays : w.Plays (w.machines m (t :: ts)) (q + 1) _ _ :=
    .cons (hone ▸ hf) (by simpa only [machines_cons] using h)
  rwa [hone, ← hcalls, ← hending] at hplays

/-- Playing the turns shows them up to the first that closes the window, or up to
    the one in which the machine stops. -/
theorem plays_play (hroom : (w.machines m turns 1).fault = none → w.HasRoom)
    (hq : (turnAt turns q).Closing) (hlt : ∀ k < q, ¬ (turnAt turns k).Closing) :
    w.Plays (w.machines m turns) q (w.play m turns).calls (w.play m turns).ending := by
  -- The turn that closes the window comes nearer with each turn that is taken.
  induction q generalizing m turns with
  | zero =>
    by_cases hf : (w.machines m turns 1).fault = none
    · exact plays_play_of_closing (hroom hf) hq hf
    · obtain ⟨a, ha⟩ := Machine.fault_ne_none_iff.1 hf
      exact plays_play_of_stopped ha
  | succ q ih =>
    cases turns with
    | nil => exact absurd Turn.last_closing (hlt 0 q.succ_pos)
    | cons t ts =>
      by_cases hf : (w.machines m (t :: ts) 1).fault = none
      · have hrest : w.Plays (w.machines (w.frame m t).machine ts) q _ _ :=
          ih (fun _ => hroom hf) hq fun k hk => hlt (k + 1) (Nat.succ_lt_succ hk)
        exact plays_play_cons (hroom hf) (hlt 0 q.succ_pos)
          (machines_one w m (t :: ts) ▸ hf) hrest
      · obtain ⟨a, ha⟩ := Machine.fault_ne_none_iff.1 hf
        exact plays_play_of_stopped ha

theorem take_congr {t' : Turn} {rest rest' : Machine → Transcript} (hheld : t'.held = t.held)
    (hcloses : t'.Closing ↔ t.Closing) (hrest : ¬ t.Closing → rest' = rest) :
    w.take m t' rest' = w.take m t rest := by
  have hframe : w.frame m t' = w.frame m t := by rw [frame, frame, hheld]
  by_cases h : t.Closing
  · have ht := Turn.closes_iff.2 h
    have ht' := Turn.closes_iff.2 (hcloses.2 h)
    simp only [take, hframe, ht, ht', if_true]
  · have ht : t'.closes = t.closes := by
      rw [Bool.eq_iff_iff, Turn.closes_iff, Turn.closes_iff, hcloses]
    rw [take, take, hframe, ht, hrest h]

/-- Of what is told in the turns, only the keys that are held and whether a turn
    closes the window matter. -/
theorem play_congr {turns' : List Turn}
    (h : ∀ k, (turnAt turns' k).held = (turnAt turns k).held ∧
      ((turnAt turns' k).Closing ↔ (turnAt turns k).Closing)) :
    w.play m turns' = w.play m turns := by
  induction turns generalizing m turns' with
  | nil =>
    obtain ⟨rest', hplay⟩ := w.play_eq_take m turns'
    rw [hplay]
    exact take_congr (h 0).1 (h 0).2 fun hn => absurd Turn.last_closing hn
  | cons t ts ih =>
    cases turns' with
    | nil => exact take_congr (h 0).1 (h 0).2 fun hn => absurd ((h 0).2.1 Turn.last_closing) hn
    | cons t' ts' =>
      exact take_congr (h 0).1 (h 0).2 fun _ => funext fun m => ih fun k => h (k + 1)

end Window

theorem exists_first_closing (turns : List Turn) :
    ∃ q, (turnAt turns q).Closing ∧ ∀ k < q, ¬ (turnAt turns k).Closing := by
  classical
  have hex : ∃ q, (turnAt turns q).Closing := by
    refine ⟨turns.length, ?_⟩
    rw [turnAt, List.getD_eq_getElem?_getD, List.getElem?_eq_none (Nat.le_refl _)]
    exact Turn.last_closing
  exact ⟨Nat.find hex, Nat.find_spec hex, fun k hk => Nat.find_min hex hk⟩

end Session

end Chip8
