import Chip8.CommandLine
import Chip8.Proofs.Beep
import Chip8.Proofs.Machine.Frames
import Chip8.Proofs.Session.Release

/-!
# The exit status

The command with the name of a program as its only argument runs a session with the
standard settings (`run_name`). For these a megabyte is enough (`standard_hasRoom`,
`standard_makes`). If there is no mixer, or one of the format that is asked for, such a
session ends in three ways only: the program cannot be loaded, the machine stops, or the
window is closed (`ending_of_loadFile_error`, `exists_plays`).

The exit status tells the last from the others, and each of the others is logged as a
failure, for a session logs none itself (`failures_ofTranscript`). Which of the three it
is follows from the contents of the file and from the machine after each turn
(`machineAt`) up to the one that closes the window (`exits_with_failure_iff`).
-/

namespace Chip8

theorem Machine.level_of_loadFile {m m' : Machine} {read : Reader} {name : String}
    {entry : Log.Entry} (h : m.loadFile read name = .ok (m', entry)) : entry.level = .info := by
  rw [loadFile] at h
  split at h
  · cases h
  · split at h
    · cases h
    · split at h
      · cases h
      · cases h
        rfl

/-- A session logs no failure, however it ends. -/
theorem Session.level_of_mem_log (cap : Capacity) (read : Reader) (mixer : Option Beep.Format)
    (turns : List Turn) (s : Settings) :
    ∀ e ∈ (run cap read mixer turns s).log, e.level ≠ .error := by
  rw [run]
  split
  · exact List.forall_mem_nil _
  · split
    · exact List.forall_mem_nil _
    · next hload =>
      refine List.forall_mem_cons.2 ⟨?_, ?_⟩
      · rw [Machine.level_of_loadFile hload]
        decide
      · split
        · exact List.forall_mem_nil _
        · obtain ⟨t, ht, heq⟩ := exists_quiet_inWindow cap mixer turns s ‹Palette› ‹Machine›
          rw [heq]
          exact ht.log

namespace CommandLine

open Session

variable {cap : Capacity} {read : Reader} {mixer : Option Beep.Format} {turns : List Turn}
  {name : String} {rom : List UInt8} {q : Nat}

/-! ### Arguments -/

theorem ofChars_positional {l : List Char} (h : l.head? ≠ some '-') :
    Argument.ofChars l = .positional := by
  have hdash (r : List Char) : l ≠ '-' :: r := by
    rintro rfl
    exact h rfl
  rw [Argument.ofChars] <;> exact fun _ => hdash _

/-- An argument that does not start with a dash is the name of a program. -/
theorem parse_name (h : name.toList.head? ≠ some '-') : parse [name] = .session name := by
  have hdashes : name ≠ "--" := by
    rintro rfl
    exact h (by decide)
  rw [parse, parseFrom, if_neg hdashes, ofChars_positional h]
  rfl

theorem run_name (h : name.toList.head? ≠ some '-') :
    run cap read mixer turns [name] =
      .ofTranscript (Session.run cap read mixer turns (.standard name)) := by
  rw [run, parse_name h]

/-! ### Failures -/

/-- The failures that the command logged. -/
def Result.failures (r : Result) : List String :=
  (r.log.filter (·.level = .error)).map (·.message)

theorem level_of_mem_conclude {ending : Session.Ending} :
    ∀ e ∈ (conclude ending).2, e.level = .error := by
  unfold conclude
  split <;> simp [Log.failure]

/-- The failures that are logged are those of the conclusion. -/
theorem failures_ofTranscript {t : Transcript} (h : ∀ e ∈ t.log, e.level ≠ .error) :
    (Result.ofTranscript t).failures = (conclude t.ending).2.map (·.message) := by
  have hsession : t.log.filter (·.level = .error) = [] := by
    simpa [List.filter_eq_nil_iff] using h
  have hconclusion : (conclude t.ending).2.filter (·.level = .error) = (conclude t.ending).2 := by
    simpa [List.filter_eq_self] using level_of_mem_conclude
  rw [Result.failures, show (Result.ofTranscript t).log = t.log ++ (conclude t.ending).2 from rfl,
    List.filter_append, hsession, hconclusion, List.nil_append]

/-- The command ends with the conclusion of its session, and logs no other failure. -/
theorem run_eq_conclude (h : name.toList.head? ≠ some '-') {ending : Session.Ending}
    (hending : (Session.run cap read mixer turns (.standard name)).ending = ending) :
    (run cap read mixer turns [name]).ending = (conclude ending).1 ∧
      (run cap read mixer turns [name]).failures = (conclude ending).2.map (·.message) := by
  subst hending
  rw [run_name h]
  exact ⟨rfl, failures_ofTranscript (level_of_mem_log cap read mixer turns _)⟩

/-! ### The session -/

/-- The machine before the turn `k`, when the command runs a program: it starts from
    reset, and in every turn it takes over the keys and runs a frame of ten
    instructions. -/
def machineAt (rom : List UInt8) (turns : List Turn) : Nat → Machine
  | 0 => (Machine.create (Threefry.ofSeed 0) .halt).loaded rom
  | k + 1 => (((machineAt rom turns k).setKeys (turnAt turns k).keys).emulate 10).machine

theorem machines_eq_machineAt (cap : Capacity) (mixer : Option Beep.Format) (name : String)
    (palette : Palette) (rom : List UInt8) (turns : List Turn) :
    (window cap mixer (.standard name) palette).machines
      ((Machine.create (Threefry.ofSeed 0) .halt).loaded rom) turns = machineAt rom turns := by
  funext k
  induction k with
  | zero => rfl
  | succ k ih => rw [Window.machines, ih]; rfl

/-- There is always room for the image of the screen at the scale of eight. -/
theorem standard_hasRoom (cap : Capacity) (mixer : Option Beep.Format) (name : String)
    (palette : Palette) : (window cap mixer (.standard name) palette).HasRoom := by
  have hbytes : 3 * (screenHeight * 8) * (screenWidth * 8) ≤ cap.limit :=
    Nat.le_trans (by decide) cap.le_limit
  exact (Window.hasRoom_iff _).2 (.inr hbytes)

/-- The beep can always be made for the format that is asked for: it has forty-four periods of
    a hundred samples. -/
theorem standard_makes (cap : Capacity) : Beep.Makes cap wantedFormat .standard := by
  have hbytes : Beep.bytes 100 (max 1 (4410 / 100)) 1 ≤ cap.limit :=
    Int.le_trans (by decide) (Int.ofNat_le.2 cap.le_limit)
  exact ⟨100, 4410, rfl, rfl, by decide, by decide, hbytes⟩

theorem unavailable_of_make_standard {e : Beep.Failure}
    (hmixer : mixer = none ∨ mixer = some wantedFormat)
    (h : Beep.make cap mixer .standard = .error e) : e = .unavailable := by
  rcases hmixer with rfl | rfl
  · exact (Except.error.inj h).symm
  · obtain ⟨sound, hmake⟩ := Beep.makes_iff.2 (standard_makes cap)
    cases h.symm.trans hmake

theorem standard_seed (name : String) :
    Threefry.ofSeed? (Settings.standard name).seed = some (Threefry.ofSeed 0) := rfl

/-- A program that cannot be loaded ends the session. -/
theorem ending_of_loadFile_error {e : LoadError}
    (h : (Machine.create (Threefry.ofSeed 0) .halt).loadFile read name = .error e) :
    (Session.run cap read mixer turns (.standard name)).ending = .notLoaded e := by
  rw [run_of_loadFile_error (s := .standard name) (standard_seed name) h]
  rfl

/-- A program that can be loaded is run, up to the turn that closes the window. -/
theorem exists_plays (hnull : '\x00' ∉ name.toList)
    (hmixer : mixer = none ∨ mixer = some wantedFormat) (hread : read name = .ok rom)
    (hsize : rom.length < 3584) (hq : (turnAt turns q).Closing)
    (hlt : ∀ k < q, ¬ (turnAt turns k).Closing) :
    ∃ w calls, Window.Plays w (machineAt rom turns) q calls
      (Session.run cap read mixer turns (.standard name)).ending := by
  have hscheme : Palette.ofName? "classic" = some .classic := by decide
  obtain ⟨-, hrun⟩ := run_eq_inWindow (s := .standard name) cap mixer turns hnull hread hsize
    hscheme (standard_seed name)
  obtain ⟨-, hplayed⟩ := inWindow_eq turns (.standard name) .classic
    ((Machine.create (Threefry.ofSeed 0) .halt).loaded rom)
    fun e he => unavailable_of_make_standard hmixer he
  have hplays := Window.plays_play (w := window cap mixer (.standard name) .classic)
    (m := (Machine.create (Threefry.ofSeed 0) .halt).loaded rom)
    (fun _ => standard_hasRoom cap mixer name .classic) hq hlt
  rw [machines_eq_machineAt, ← hplayed, ← hrun] at hplays
  exact ⟨_, _, hplays⟩

/-! ### The exit status -/

theorem fault_machineAt_zero (rom : List UInt8) (turns : List Turn) :
    (machineAt rom turns 0).fault = none := by
  obtain ⟨memory, hl⟩ := Machine.loaded_eq (Machine.create (Threefry.ofSeed 0) .halt) rom
  rw [machineAt, hl]
  rfl

/-- The machine that is found stopped after a turn has stopped in one of the steps of
    the turn. -/
theorem exists_stopsWith_turn {f : Nat} {a : MachineFault}
    (hrun : ∀ k < f, (machineAt rom turns (k + 1)).fault = none)
    (ha : (machineAt rom turns (f + 1)).fault? = some a) :
    ∃ j < 10, (((machineAt rom turns f).setKeys (turnAt turns f).keys).after j).StopsWith a := by
  have hf : (machineAt rom turns f).fault = none := by
    cases f with
    | zero => exact fault_machineAt_zero rom turns
    | succ f => exact hrun f f.lt_succ_self
  rw [machineAt, Machine.machine_emulate_eq_endFrame, Machine.fault?_endFrame] at ha
  exact Machine.exists_stopsWith_after hf ha

/-- The command fails on a program, if the turn `q` closes the window: the program cannot
    be read, it does not fit, or the machine has stopped after a turn up to `q`. -/
def Fails (read : Reader) (turns : List Turn) (name : String) (q : Nat) : Prop :=
  (∃ e, read name = .error e) ∨ ∃ rom, read name = .ok rom ∧
    (3584 ≤ rom.length ∨ ∃ k ≤ q, (machineAt rom turns (k + 1)).fault ≠ none)

/-- The result reports that the machine `m` has stopped for `cause` in a turn of ten steps that
    started from `before`: its only failure tells why, and where, and on which word, and this is
    how one of the steps has stopped. -/
structure Reports (r : Result) (before m : Machine) (cause : Fault) : Prop where
  failures : r.failures = ["Machine stopped: " ++ (cause.description ++
    " at 0x" ++ Text.hexadecimal 3 m.pc.toNat ++
    " (opcode 0x" ++ Text.hexadecimal 4 m.faultWord.toNat ++ ")")]
  step : ∃ j < 10, (before.after j).StopsWith ⟨cause, m.pc, m.faultWord⟩

/-- The result of the command with the name of a program, if the turn `q` closes the window. -/
structure Exits (read : Reader) (turns : List Turn) (name : String) (q : Nat) (r : Result) :
    Prop where
  /-- The command exits with one and logs a single failure if it fails, and only then. -/
  failure_iff : r.ending = .exited 1 ∧ r.failures.length = 1 ↔ Fails read turns name q
  /-- Otherwise it exits with zero and logs no failure. -/
  success : ¬ Fails read turns name q → r.ending = .exited 0 ∧ r.failures = []
  /-- The first turn in which the machine stops is reported. -/
  reports : ∀ rom f cause, read name = .ok rom → rom.length < 3584 → f ≤ q →
    (∀ k < f, (machineAt rom turns (k + 1)).fault = none) →
    (machineAt rom turns (f + 1)).fault = some cause →
      Reports r ((machineAt rom turns f).setKeys (turnAt turns f).keys)
        (machineAt rom turns (f + 1)) cause

section

variable (hdash : name.toList.head? ≠ some '-') (hnull : '\x00' ∉ name.toList)
  (hmixer : mixer = none ∨ mixer = some wantedFormat) (hq : (turnAt turns q).Closing)
  (hlt : ∀ k < q, ¬ (turnAt turns k).Closing)
include hdash hnull hmixer hq hlt

/-- If the machine stops in the turn `f`, this is what is said. -/
theorem exited_of_stopped (hread : read name = .ok rom) (hsize : rom.length < 3584) {f : Nat}
    (hf : f ≤ q) {a : MachineFault} (hrun : ∀ k < f, (machineAt rom turns (k + 1)).fault = none)
    (ha : (machineAt rom turns (f + 1)).fault? = some a) :
    (run cap read mixer turns [name]).ending = .exited 1 ∧
      (run cap read mixer turns [name]).failures = ["Machine stopped: " ++ a.message] := by
  obtain ⟨w, calls, hplays⟩ := exists_plays hnull hmixer hread hsize hq hlt
  exact run_eq_conclude hdash (hplays.stopped f hf a hrun ha).2

theorem exited_of_fails (h : Fails read turns name q) :
    (run cap read mixer turns [name]).ending = .exited 1 ∧
      (run cap read mixer turns [name]).failures.length = 1 := by
  obtain ⟨e, hread⟩ | ⟨rom, hread, hfail⟩ := h
  · have hending : (Session.run cap read mixer turns (.standard name)).ending = _ :=
      ending_of_loadFile_error (Machine.loadFile_unreadable _ hnull hread)
    obtain ⟨hend, hfailures⟩ := run_eq_conclude hdash hending
    exact ⟨hend, congrArg List.length hfailures⟩
  · by_cases hsize : 3584 ≤ rom.length
    · have hending : (Session.run cap read mixer turns (.standard name)).ending = _ :=
        ending_of_loadFile_error (Machine.loadFile_tooLarge _ hnull hread hsize)
      obtain ⟨hend, hfailures⟩ := run_eq_conclude hdash hending
      exact ⟨hend, congrArg List.length hfailures⟩
    · obtain ⟨f, hf, a, hrun, ha⟩ := Window.exists_first_stop (hfail.resolve_left hsize)
      obtain ⟨hend, hfailures⟩ := exited_of_stopped hdash hnull hmixer hq hlt hread
        (Nat.lt_of_not_le hsize) hf hrun ha
      exact ⟨hend, congrArg List.length hfailures⟩

theorem exited_of_not_fails (h : ¬ Fails read turns name q) :
    (run cap read mixer turns [name]).ending = .exited 0 ∧
      (run cap read mixer turns [name]).failures = [] := by
  rw [Fails, not_or] at h
  obtain ⟨hreadable, hruns⟩ := h
  cases hread : read name with
  | error e => exact absurd ⟨e, hread⟩ hreadable
  | ok rom =>
    have hfine : ¬ (3584 ≤ rom.length ∨ ∃ k ≤ q, (machineAt rom turns (k + 1)).fault ≠ none) :=
      fun h => hruns ⟨rom, hread, h⟩
    push Not at hfine
    obtain ⟨w, calls, hplays⟩ := exists_plays hnull hmixer hread hfine.1 hq hlt
    exact run_eq_conclude hdash (hplays.closed hfine.2).2

theorem reports_of_stopped (hread : read name = .ok rom) (hsize : rom.length < 3584) {f : Nat}
    (hf : f ≤ q) {cause : Fault} (hrun : ∀ k < f, (machineAt rom turns (k + 1)).fault = none)
    (hcause : (machineAt rom turns (f + 1)).fault = some cause) :
    Reports (run cap read mixer turns [name])
      ((machineAt rom turns f).setKeys (turnAt turns f).keys)
      (machineAt rom turns (f + 1)) cause := by
  have ha : (machineAt rom turns (f + 1)).fault? = some ⟨cause, (machineAt rom turns (f + 1)).pc,
      (machineAt rom turns (f + 1)).faultWord⟩ := by
    rw [Machine.fault?, hcause]
    rfl
  exact ⟨(exited_of_stopped hdash hnull hmixer hq hlt hread hsize hf hrun ha).2,
    exists_stopsWith_turn hrun ha⟩

theorem exits_run (cap : Capacity) :
    Exits read turns name q (run cap read mixer turns [name]) := by
  refine ⟨⟨?_, exited_of_fails hdash hnull hmixer hq hlt⟩,
    exited_of_not_fails hdash hnull hmixer hq hlt, fun rom f cause hread hsize hf hrun hcause =>
      reports_of_stopped hdash hnull hmixer hq hlt hread hsize hf hrun hcause⟩
  rintro ⟨hend, -⟩
  by_contra hn
  cases hend.symm.trans (exited_of_not_fails hdash hnull hmixer hq hlt hn).1

end

/-- A program that waits for a key, and then returns without having been called. -/
def keyThenReturn : List UInt8 := [0xF0, 0x0A, 0x00, 0xEE]

/-- Two turns: in the second a key is held, and the window is closed. -/
def keyThenEscape : List Turn :=
  [⟨[], [.keyUp escape]⟩, ⟨[120], [.keyDown escape]⟩]

end CommandLine

end Chip8
