import Chip8.Proofs.Machine.Run
import Mathlib.Algebra.Order.BigOperators.Group.List
import Mathlib.Algebra.Ring.Int.Defs

/-!
# Every frame is counted once

The events that reach a bar count frames: `counted` is the sum of the updates. When the
body runs on a frame, the updates so far are those of the whole groups completed
(`trackerAt_eq`), so the bar is never ahead of the scan and less than a group behind. The
last group, whole or not, is counted when the bar is closed. Over a whole scan the updates
therefore add up to the number of frames (`scan_counts_frames`).
-/

namespace Chip8.Progress

variable {σ β : Type} {n r i : Nat}

/-! ### Counting -/

/-- The frames that an event adds to those counted. -/
def Event.frames : Event → Int
  | .update k => k
  | .opened _ _ | .closed => 0

/-- The frames that are counted when some events have reached the bar. -/
def counted (l : List Event) : Int :=
  (l.map Event.frames).sum

@[simp]
theorem counted_cons (e : Event) (l : List Event) : counted (e :: l) = e.frames + counted l :=
  List.sum_cons

@[simp]
theorem counted_append (l l' : List Event) : counted (l ++ l') = counted l + counted l' := by
  rw [counted, List.map_append, List.sum_append]
  rfl

theorem counted_replicate (k : Nat) (c : Int) :
    counted (List.replicate k (.update c)) = k * c := by
  rw [counted, List.map_replicate, List.sum_replicate_int]
  rfl

/-- A bar that never moves back never shows more than it shows in the end. -/
theorem counted_take_le {l : List Event} (h : ∀ e ∈ l, 0 ≤ e.frames) (k : Nat) :
    counted (l.take k) ≤ counted l := by
  refine ((List.take_sublist k l).map Event.frames).sum_le_sum fun c hc => ?_
  obtain ⟨e, he, rfl⟩ := List.mem_map.1 hc
  exact h e he

/-- The events of a bar that is moved on by `k` groups and then by the rest. -/
def eventsOf (n r k : Nat) : List Event :=
  .opened n (description n) ::
    (List.replicate k (.update r) ++ [.update (n - (r * k : Nat)), .closed])

theorem counted_eventsOf (n r k : Nat) : counted (eventsOf n r k) = n := by
  rw [eventsOf, counted_cons, counted_append, counted_replicate, counted_cons, counted_cons]
  simp only [Event.frames, counted, List.map_nil, List.sum_nil, Int.natCast_mul]
  rw [Int.mul_comm]
  omega

theorem frames_nonneg_of_mem_eventsOf {k : Nat} (hk : r * k ≤ n) :
    ∀ e ∈ eventsOf n r k, 0 ≤ e.frames := by
  intro e he
  rw [eventsOf, List.mem_cons, List.mem_append, List.mem_replicate, List.mem_pair] at he
  rcases he with rfl | ⟨-, rfl⟩ | rfl | rfl
  · exact Int.le_refl 0
  · exact Int.natCast_nonneg r
  · exact Int.sub_nonneg_of_le (Int.ofNat_le.2 hk)
  · exact Int.le_refl 0

/-! ### The rate -/

theorem natCast_rate (n : Nat) (asked? : Option Int) :
    (rate n asked? : Int) = max 1 (min (asked?.getD (max 1 (min (n / 20) 50))) n) :=
  Int.toNat_of_nonneg (Int.le_trans (by decide) (Int.le_max_left 1 _))

theorem one_le_rate (n : Nat) (asked? : Option Int) : 1 ≤ rate n asked? := by
  rw [← Int.ofNat_le, natCast_rate]
  exact Int.le_max_left 1 _

theorem rate_le (hn : 0 < n) (asked? : Option Int) : rate n asked? ≤ n := by
  rw [← Int.ofNat_le, natCast_rate]
  exact Int.max_le.2 ⟨Int.ofNat_le.2 hn, Int.min_le_right _ _⟩

/-! ### The tracker -/

namespace Tracker

/-- An open bar for `n` frames after `k` updates at the rate `r`. -/
def updated (n r k : Nat) : Tracker :=
  ⟨some (r * k : Nat), (.opened n (description n) :: List.replicate k (.update r)).toArray⟩

theorem advance_updated (n r k : Nat) : (updated n r k).advance r = updated n r (k + 1) := by
  simp only [advance, updated, List.push_toArray, List.replicate_succ', List.cons_append,
    Nat.mul_add_one, Int.natCast_add]

theorem counted_updated (n r k : Nat) :
    counted (updated n r k).events.toList = (r * k : Nat) := by
  rw [updated, List.toList_toArray, counted_cons, counted_replicate, Event.frames, Int.zero_add,
    Nat.mul_comm, Int.natCast_mul]

theorem before_zero (n r : Nat) : start.before n r 0 = updated n r 0 := rfl

/-- A multiple of the rate that is not past the end is not past the last whole group. -/
theorem le_sub_mod (hd : r ∣ i) (hi : i ≤ n) : i ≤ n - n % r := by
  calc i = r * (i / r) := (Nat.mul_div_cancel' hd).symm
    _ ≤ r * (n / r) := Nat.mul_le_mul_left r (Nat.div_le_div_right hi)
    _ = n - n % r := Nat.eq_sub_of_add_eq (Nat.div_add_mod n r)

/-- Before a frame the bar is moved on if another group has been completed. -/
theorem before_updated (hi : i + 1 < n) :
    (updated n r (i / r)).before n r (i + 1) = updated n r ((i + 1) / r) := by
  rw [before, if_neg i.succ_ne_zero, Nat.succ_div]
  by_cases hd : r ∣ i + 1
  · rw [if_pos ⟨i.succ_pos, Nat.mod_eq_zero_of_dvd hd, le_sub_mod hd hi.le⟩, if_pos hd]
    exact advance_updated n r (i / r)
  · rw [if_neg fun h => hd (Nat.dvd_of_mod_eq_zero h.2.1), if_neg hd]
    rfl

theorem after_of_lt (hi : i + 1 < n) (t : Tracker) : t.after n i = t :=
  if_neg hi.ne

/-- After the last frame the rest is counted and the bar is closed. -/
theorem after_updated (hi : i + 1 = n) (k : Nat) :
    (updated n r k).after n i = ⟨none, (eventsOf n r k).toArray⟩ := by
  rw [after, if_pos hi, eventsOf]
  simp only [finish, updated, List.push_toArray, List.cons_append, List.append_assoc,
    List.nil_append]

end Tracker

/-! ### Scans -/

/-- The tracker when the body runs on frame `i`, in a scan over `n` frames that starts from
    `s` and reports at the rate `r`. -/
def trackerAt (n r : Nat) (body : Body σ β) (s : σ) (i : Nat) : Tracker :=
  ((decorate n r body).scan i (s, .start)).1.2.before n r i

theorem scan_succ_tracker (n r : Nat) (body : Body σ β) (s : σ) (i : Nat) :
    ((decorate n r body).scan (i + 1) (s, .start)).1.2 =
      (trackerAt n r body s i).after n i := by
  rw [Body.scan_succ]
  rfl

/-- When the body runs on a frame, the whole groups before it have been counted. -/
theorem trackerAt_eq (body : Body σ β) (s : σ) (hi : i < n) :
    trackerAt n r body s i = .updated n r (i / r) := by
  -- what the frame before leaves is moved on by a group at most, and never closed
  induction i with
  | zero => rw [Nat.zero_div]; exact Tracker.before_zero n r
  | succ i ih =>
    rw [trackerAt, scan_succ_tracker, Tracker.after_of_lt hi, ih (Nat.lt_of_succ_lt hi)]
    exact Tracker.before_updated hi

/-- After the last frame the whole groups before it have been counted, and then the rest. -/
theorem events_scan (hn : 0 < n) (r : Nat) (body : Body σ β) (s : σ) :
    ((decorate n r body).scan n (s, .start)).1.2.events.toList = eventsOf n r ((n - 1) / r) := by
  have hlast : n - 1 + 1 = n := Nat.sub_add_cancel hn
  have hscan := scan_succ_tracker n r body s (n - 1)
  rw [hlast, trackerAt_eq body s (Nat.sub_one_lt_of_lt hn), Tracker.after_updated hlast] at hscan
  rw [hscan]

/-- A scan over frames opens a bar, moves it on by the rate as often as whole groups are
    completed before the last frame, moves it on by the rest, which is not more than a
    group, and closes it. So every frame is counted once, and the bar never shows more
    frames than there are. When the body runs on a frame, the bar is not ahead of the
    frames completed and less than a group behind. Neither the state nor the outputs are
    changed. -/
theorem scan_counts_frames (hn : 0 < n) (asked? : Option Int) (body : Body σ β) (s : σ) :
    let r := rate n asked?
    let groups := (n - 1) / r
    let reported := (decorate n r body).scan n (s, .start)
    let events := reported.1.2.events.toList
    ((r : Int) = max 1 (min (asked?.getD (max 1 (min (n / 20) 50))) n) ∧ 1 ≤ r ∧ r ≤ n) ∧
      events = .opened n (description n) :: (List.replicate groups (.update r) ++
        [.update (n - (r * groups : Nat)), .closed]) ∧
      (1 ≤ n - r * groups ∧ n - r * groups ≤ r) ∧
      counted events = n ∧ (∀ k, counted (events.take k) ≤ n) ∧
      (∀ i < n, counted (trackerAt n r body s i).events.toList = (r * (i / r) : Nat) ∧
        r * (i / r) ≤ i ∧ i < r * (i / r) + r) ∧
      reported.1.1 = (body.scan n s).1 ∧ reported.2 = (body.scan n s).2 := by
  intro r groups reported events
  have hr : 1 ≤ r := one_le_rate n asked?
  have hevents : events = eventsOf n r groups := events_scan hn r body s
  have hgroups : r * groups ≤ n - 1 := Nat.mul_div_le (n - 1) r
  have hrest : n - 1 < r * groups + r := Nat.lt_mul_div_succ (n - 1) hr
  have htotal : counted events = n := hevents ▸ counted_eventsOf n r groups
  have hforward : ∀ e ∈ events, 0 ≤ e.frames :=
    hevents ▸ frames_nonneg_of_mem_eventsOf (Nat.le_trans hgroups (Nat.sub_le n 1))
  refine ⟨⟨natCast_rate n asked?, hr, rate_le hn asked?⟩, hevents, ⟨?_, ?_⟩, htotal,
    fun k => ?_, fun i hi => ?_, Machine.scan_decorate body n r n s .start⟩
  · omega
  · omega
  · exact htotal ▸ counted_take_le hforward k
  · rw [trackerAt_eq body s hi, Tracker.counted_updated]
    exact ⟨rfl, Nat.mul_div_le i r, Nat.lt_mul_div_succ i hr⟩

/-- Seven frames at a rate of three: two whole groups, and one frame that is left. -/
theorem scan_counts_frames_seven :
    ((decorate 7 (rate 7 (some 3)) fun (s : Nat) i => (s + i, s)).scan 7
        (0, .start)).1.2.events.toList =
      [.opened 7 "Emulating (7 frames)", .update 3, .update 3, .update 1, .closed] := by
  obtain ⟨-, hevents, -⟩ :=
    scan_counts_frames (by decide : 0 < 7) (some 3) (fun (s : Nat) i => (s + i, s)) 0
  exact hevents.trans (by decide +kernel)

end Chip8.Progress
