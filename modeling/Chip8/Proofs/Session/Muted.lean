import Chip8.Proofs.Beep
import Chip8.Proofs.Session.Run

/-!
# Sessions without sound

Two transcripts that differ in nothing but the sound (`SameButBeep`) have the same calls but
for those that make, set or play a sound, the same messages but for the warning that there is
no sound, and the same ending. Each turn keeps this (`take_sameButBeep`), hence so does any
number of turns (`play_sameButBeep`): whether there is a beep makes no difference to the
machine, the window and the images.

It is the making of the beep that does. If there is a mixer, but the beep cannot be made for
its format, the session ends before the first turn, though it would have run without sound.
A session is thus the same as without sound exactly if there is no such mixer
(`run_sameButBeep_iff`).
-/

namespace Chip8.Session

variable {cap : Capacity} {read : Reader} {mixer : Option Beep.Format} {f : Beep.Format}
  {turns : List Turn} {s : Settings} {palette : Palette} {m : Machine} {w : Window}

/-! ### Sounds left out -/

/-- The call makes a sound, sets how loud it is, or plays it. -/
def Call.sounds : Call → Bool
  | .makeSound _ | .setVolume _ | .playSound => true
  | _ => false

/-- The warning that a session goes on without sound. -/
def mutedWarning : Log.Entry :=
  Log.warning (mutedMessage .unavailable)

namespace Transcript

/-- The calls that are not about the sound. -/
def silentCalls (t : Transcript) : List Call :=
  t.calls.filter (!·.sounds)

/-- The messages but for the warning that there is no sound. -/
def otherLog (t : Transcript) : List Log.Entry :=
  t.log.filter (· ≠ mutedWarning)

/-- The transcripts differ only in what concerns the sound. -/
structure SameButBeep (t u : Transcript) : Prop where
  calls : t.silentCalls = u.silentCalls
  log : t.otherLog = u.otherLog
  ending : t.ending = u.ending

namespace SameButBeep

variable {t u : Transcript} {calls calls' : List Call} {log log' : List Log.Entry}

theorem refl (t : Transcript) : t.SameButBeep t :=
  ⟨rfl, rfl, rfl⟩

theorem after (h : t.SameButBeep u)
    (hcalls : calls.filter (!·.sounds) = calls'.filter (!·.sounds))
    (hlog : log.filter (· ≠ mutedWarning) = log'.filter (· ≠ mutedWarning)) :
    (t.after calls log).SameButBeep (u.after calls' log') := by
  refine ⟨?_, ?_, h.ending⟩
  · rw [silentCalls, silentCalls, Transcript.after, Transcript.after, List.filter_append,
      List.filter_append, hcalls]
    exact congrArg _ h.calls
  · rw [otherLog, otherLog, Transcript.after, Transcript.after, List.filter_append,
      List.filter_append, hlog]
    exact congrArg _ h.log

theorem released (h : t.SameButBeep u) : t.released.SameButBeep u.released := by
  refine ⟨?_, h.log, h.ending⟩
  rw [silentCalls, silentCalls, Transcript.released, Transcript.released, List.filter_append,
    List.filter_append]
  exact congrArg (· ++ _) h.calls

end SameButBeep

end Transcript

namespace Window

variable {rest rest' : Machine → Transcript}

/-- The same window without a sound to play. -/
def muted (w : Window) : Window :=
  { w with audible := false }

theorem silent_sound (w : Window) (m : Machine) : (w.sound m).filter (!·.sounds) = [] := by
  rw [sound]
  split <;> rfl

theorem present_sameButBeep (w : Window) (m : Machine) {t u : Transcript} (h : t.SameButBeep u) :
    (w.present m t).SameButBeep (w.muted.present m u) := by
  change (w.present m t).SameButBeep (w.present m u)
  rw [present, present]
  split
  · exact .refl _
  · exact h.after rfl rfl

/-- A turn is the same but for the sound if what follows it is. -/
theorem take_sameButBeep (h : ∀ m, (rest m).SameButBeep (rest' m)) (w : Window) (m : Machine)
    (t : Turn) : (w.take m t rest).SameButBeep (w.muted.take m t rest') := by
  have hframe : w.muted.frame m t = w.frame m t := rfl
  rw [take, take, hframe]
  refine Transcript.SameButBeep.after ?_ rfl rfl
  split
  · exact .refl _
  · refine (present_sameButBeep w _ ?_).after ?_ rfl
    · split
      · exact .refl _
      · exact h _
    · rw [silent_sound, silent_sound]

/-- Any number of turns is the same but for the sound. -/
theorem play_sameButBeep (w : Window) (m : Machine) (turns : List Turn) :
    (w.play m turns).SameButBeep (w.muted.play m turns) := by
  induction turns generalizing m with
  | nil => exact take_sameButBeep (fun _ => .refl _) w m .last
  | cons t ts ih => exact take_sameButBeep ih w m t

end Window

/-! ### The beep -/

theorem prepareSound_of_makes (h : Beep.Makes cap f .standard) :
    ∃ calls, prepareSound cap (some f) .standard = .ok calls ∧ calls.filter (!·.sounds) = [] := by
  obtain ⟨sound, hmake⟩ := Beep.makes_iff.2 h
  rw [prepareSound, hmake]
  exact ⟨_, rfl, rfl⟩

theorem make_of_not_makes (h : ¬ Beep.Makes cap f .standard) :
    ∃ e, Beep.make cap (some f) .standard = .error e ∧ e ≠ .unavailable := by
  cases hmake : Beep.make cap (some f) .standard with
  | ok sound => exact absurd (Beep.makes_iff.1 ⟨sound, hmake⟩) h
  | error e =>
    refine ⟨e, rfl, ?_⟩
    rintro rfl
    exact Beep.make_ne_unavailable cap f .standard hmake

/-! ### Whole sessions -/

/-- With a beep, a session in a window is the same but for the sound. -/
theorem inWindow_sameButBeep (h : Beep.Makes cap f .standard) (turns : List Turn) (s : Settings)
    (palette : Palette) (m : Machine) :
    (inWindow cap (some f) turns s palette m).SameButBeep
      (inWindow cap none turns s palette m) := by
  obtain ⟨calls, hprepare, hsilent⟩ := prepareSound_of_makes h
  rw [inWindow, inWindow, hprepare]
  refine Transcript.SameButBeep.released (Transcript.SameButBeep.after ?_ rfl rfl)
  refine Transcript.SameButBeep.after ?_ hsilent rfl
  exact (Window.play_sameButBeep _ m turns).after rfl rfl

/-- If the beep cannot be made, though there is a mixer, no turn is taken. -/
theorem awaitFrame_notMem_inWindow (h : ¬ Beep.Makes cap f .standard) :
    .awaitFrame framesPerSecond ∉ (inWindow cap (some f) turns s palette m).calls := by
  obtain ⟨e, hmake, he⟩ := make_of_not_makes h
  rw [(inWindow_of_noBeep hmake he turns s palette m).1]
  simp [opening, hmake]

/-- Without a mixer, a turn is taken at least. -/
theorem awaitFrame_mem_inWindow :
    .awaitFrame framesPerSecond ∈ (inWindow cap none turns s palette m).calls := by
  have hmixer : ∀ e, Beep.make cap none .standard = .error e → e = .unavailable :=
    fun e he => (Except.error.inj he).symm
  obtain ⟨rest, hplay⟩ := (window cap none s palette).play_eq_take m turns
  rw [(inWindow_eq turns s palette m hmixer).1, hplay]
  simp [Window.take, Transcript.after]

/-- A session goes on as it would without sound, whatever the mixer, exactly if it opens no
    window, or there is no mixer, or the beep can be made for the format of the mixer: it
    makes the same calls but for those of the sound, prints the same messages but for the
    warning that there is no sound, and ends in the same way. -/
theorem run_sameButBeep_iff (cap : Capacity) (read : Reader) (mixer : Option Beep.Format)
    (turns : List Turn) (s : Settings) :
    (run cap read mixer turns s).SameButBeep (run cap read none turns s) ↔
      ∀ palette m, Opens read s palette m → ∀ f, mixer = some f → Beep.Makes cap f .standard := by
  by_cases hopens : ∃ palette m, Opens read s palette m
  · obtain ⟨palette, m, hopens⟩ := hopens
    obtain ⟨entry, hrun⟩ := hopens.run_eq
    rw [hrun, hrun]
    constructor
    · rintro h - - - f rfl
      by_contra hmakes
      have hmem : .awaitFrame framesPerSecond ∈
          ((inWindow cap none turns s palette m).after [] [entry]).silentCalls :=
        List.mem_filter.2 ⟨awaitFrame_mem_inWindow, rfl⟩
      rw [← h.calls] at hmem
      exact awaitFrame_notMem_inWindow hmakes (List.mem_filter.1 hmem).1
    · intro h
      cases mixer with
      | none => exact .refl _
      | some f =>
        have hmakes : Beep.Makes cap f .standard := h palette m hopens f rfl
        exact (inWindow_sameButBeep hmakes turns s palette m).after rfl rfl
  · push Not at hopens
    obtain ⟨log, ending, hrun⟩ := run_of_not_opens hopens
    rw [hrun, hrun]
    exact ⟨fun _ palette m h => absurd h (hopens palette m), fun _ => .refl _⟩

/-- With samples of 32 bits a session ends before its first turn, for the amplitude does not
    fit the samples of the beep, though it would have run without sound. -/
theorem not_run_sameButBeep_wideSamples :
    ¬ (run .standard (fun _ => .ok [0x12, 0x00]) (some ⟨44100, 32, 2⟩) []
      (.standard "idle")).SameButBeep
        (run .standard (fun _ => .ok [0x12, 0x00]) none [] (.standard "idle")) := by
  have hwide : (run .standard (fun _ => .ok [0x12, 0x00]) (some ⟨44100, 32, 2⟩) []
      (.standard "idle")).ending = .noBeep .amplitudeTooLarge := by decide +kernel
  have hnone : (run .standard (fun _ => .ok [0x12, 0x00]) none []
      (.standard "idle")).ending = .closed := by
    decide +kernel
  intro h
  cases hwide.symm.trans (h.ending.trans hnone)

end Chip8.Session
