import Chip8.Proofs.Machine.Run
import Chip8.Proofs.Memory
import Mathlib.Data.List.Induction

/-!
# Loading one program after the other

A program that is loaded goes to the start of programs, over what an earlier one has
left there. It leaves alone what lies before it, what lies past its end, and all of the
machine but its memory. A program that does not fit is refused and changes nothing
(`loadRom_of_fits`, `loadRom_of_tooLarge`).

So after any list of attempts an address holds what the last program put there that was
accepted and is long enough (`lastOn?`), or what it held before if there is none
(`memory_loads`).
-/

namespace Chip8.Machine

variable {m m' : Machine} {rom : List UInt8} {roms : List (List UInt8)} {a : Nat}

/-! ### One program -/

theorem loadRom_of_fits (m : Machine) (h : rom.length < 3584) :
    m.loadRom rom = .ok { m with memory := m.memory.writeAll 0x200 rom } :=
  if_pos h

theorem loadRom_of_tooLarge (m : Machine) (h : 3584 ≤ rom.length) :
    m.loadRom rom = .error ⟨rom.length, 3584⟩ :=
  if_neg (Nat.not_lt.2 h)

theorem loadRom_eq_error_iff {e : RomTooLarge} :
    m.loadRom rom = .error e ↔ 3584 ≤ rom.length ∧ e = ⟨rom.length, 3584⟩ := by
  rcases Nat.lt_or_ge rom.length 3584 with h | h
  · rw [loadRom_of_fits m h]
    exact ⟨nofun, fun he => absurd he.1 (Nat.not_le.2 h)⟩
  · rw [loadRom_of_tooLarge m h, Except.error.injEq, eq_comm]
    exact (and_iff_right h).symm

theorem loaded_of_ok (h : m.loadRom rom = .ok m') : m.loaded rom = m' := by
  rw [loaded, h]

theorem loaded_of_tooLarge (m : Machine) (h : 3584 ≤ rom.length) : m.loaded rom = m := by
  rw [loaded, loadRom_of_tooLarge m h]

/-- The program is accepted and has a byte for the address `a`. -/
def PutsAt (a : Nat) (rom : List UInt8) : Prop :=
  rom.length < 3584 ∧ 0x200 ≤ a ∧ a - 0x200 < rom.length

instance (a : Nat) (rom : List UInt8) : Decidable (PutsAt a rom) :=
  inferInstanceAs (Decidable (_ ∧ _))

theorem read_loaded_of_putsAt (h : PutsAt a rom) (m : Machine) :
    (m.loaded rom).memory.read a = rom.getD (a - 0x200) 0 := by
  obtain ⟨hfits, hle, hlt⟩ := h
  have ha : a < Memory.size := by
    rw [Memory.size]
    omega
  rw [loaded_of_ok (loadRom_of_fits m hfits), Memory.read_writeAll rom ha, if_pos hle,
    List.getD_eq_getElem _ _ hlt, List.getD_eq_getElem _ _ hlt]

theorem read_loaded_of_not_putsAt (h : ¬ PutsAt a rom) (ha : a < Memory.size) (m : Machine) :
    (m.loaded rom).memory.read a = m.memory.read a := by
  rcases Nat.lt_or_ge rom.length 3584 with hfits | hlarge
  · rw [PutsAt] at h
    rw [loaded_of_ok (loadRom_of_fits m hfits)]
    exact Memory.read_writeAll_of_outside rom ha (by omega) m.memory
  · rw [loaded_of_tooLarge m hlarge]

/-- Loading changes nothing but memory. -/
theorem loaded_eq (m : Machine) (rom : List UInt8) :
    ∃ memory, m.loaded rom = { m with memory } := by
  rcases Nat.lt_or_ge rom.length 3584 with hfits | hlarge
  · exact ⟨_, loaded_of_ok (loadRom_of_fits m hfits)⟩
  · exact ⟨m.memory, loaded_of_tooLarge m hlarge⟩

theorem loadRom_eq (h : m.loadRom rom = .ok m') : ∃ memory, m' = { m with memory } := by
  rw [← loaded_of_ok h]
  exact loaded_eq m rom

/-! ### Many programs -/

/-- The machine after an attempt to load each of the programs in turn. -/
def loads (m : Machine) (roms : List (List UInt8)) : Machine :=
  roms.foldl loaded m

theorem loads_concat (m : Machine) (roms : List (List UInt8)) (rom : List UInt8) :
    m.loads (roms ++ [rom]) = (m.loads roms).loaded rom :=
  List.foldl_append

/-- The last program of a list that is accepted and has a byte for the address `a`. -/
def lastOn? (roms : List (List UInt8)) (a : Nat) : Option (List UInt8) :=
  (roms.filter (PutsAt a ·)).getLast?

theorem lastOn?_concat (roms : List (List UInt8)) (rom : List UInt8) (a : Nat) :
    lastOn? (roms ++ [rom]) a = if PutsAt a rom then some rom else lastOn? roms a := by
  rw [lastOn?, List.filter_append]
  split_ifs with h
  · rw [List.filter_cons_of_pos (by simpa using h), List.filter_nil, List.getLast?_concat]
  · rw [List.filter_cons_of_neg (by simpa using h), List.filter_nil, List.append_nil, lastOn?]

theorem read_loads (roms : List (List UInt8)) (ha : a < Memory.size) (m : Machine) :
    (m.loads roms).memory.read a =
      match lastOn? roms a with
      | some rom => rom.getD (a - 0x200) 0
      | none => m.memory.read a := by
  -- the last program decides, so the induction takes it off the end
  induction roms using List.reverseRecOn with
  | nil => rfl
  | append_singleton roms rom ih =>
    rw [loads_concat, lastOn?_concat]
    by_cases h : PutsAt a rom
    · rw [if_pos h, read_loaded_of_putsAt h]
    · rw [if_neg h, read_loaded_of_not_putsAt h ha, ih]

theorem loads_eq_memory (m : Machine) (roms : List (List UInt8)) :
    m.loads roms = { m with memory := (m.loads roms).memory } := by
  induction roms generalizing m with
  | nil => rfl
  | cons rom roms ih =>
    obtain ⟨memory, hrom⟩ := loaded_eq m rom
    rw [loads, List.foldl_cons, ← loads, ih, hrom]

/-- No program has a byte for an address before the start of programs or for the last
    address. -/
theorem lastOn?_eq_none (roms : List (List UInt8)) (h : a < 0x200 ∨ 0xFFF ≤ a) :
    lastOn? roms a = none := by
  rw [lastOn?, List.getLast?_eq_none_iff, List.filter_eq_nil_iff]
  intro rom _ hp
  obtain ⟨hfits, hle, hlt⟩ := of_decide_eq_true hp
  omega

/-- In a list of attempts to load a program, each fails if and only if the program has
    3584 bytes or more, and then it changes nothing. After all of them every address
    holds the byte of the last program that was accepted and reaches it, and what it held
    before if there is none: no program reaches an address before the start of programs
    or the last address, and what lies past the end of a program stays as it was. All but
    memory is unchanged. -/
theorem memory_loads (m : Machine) (roms : List (List UInt8)) :
    (∀ n (hn : n < roms.length),
        (∀ e, (m.loads (roms.take n)).loadRom roms[n] = .error e ↔
          3584 ≤ roms[n].length ∧ e = ⟨roms[n].length, 3584⟩) ∧
        (∀ m', (m.loads (roms.take n)).loadRom roms[n] = .ok m' →
          m.loads (roms.take (n + 1)) = m') ∧
        (3584 ≤ roms[n].length → m.loads (roms.take (n + 1)) = m.loads (roms.take n))) ∧
      (∀ a < 0x1000, (m.loads roms).memory.read a =
        match lastOn? roms a with
        | some rom => rom.getD (a - 0x200) 0
        | none => m.memory.read a) ∧
      (∀ a < 0x200, (m.loads roms).memory.read a = m.memory.read a) ∧
      (m.loads roms).memory.read 0xFFF = m.memory.read 0xFFF ∧
      (∀ rom a, 0x200 + rom.length ≤ a → a < 0x1000 →
        (m.loads (roms ++ [rom])).memory.read a = (m.loads roms).memory.read a) ∧
      m.loads roms = { m with memory := (m.loads roms).memory } := by
  refine ⟨fun n hn => ?_, fun a ha => read_loads roms ha m, fun a ha => ?_, ?_,
    fun rom a hle ha => ?_, loads_eq_memory m roms⟩
  · have hnext : m.loads (roms.take (n + 1)) = (m.loads (roms.take n)).loaded roms[n] := by
      rw [List.take_succ_eq_append_getElem hn, loads_concat]
    rw [hnext]
    exact ⟨fun _ => loadRom_eq_error_iff, fun _ => loaded_of_ok, loaded_of_tooLarge _⟩
  · have ha' : a < Memory.size := by
      rw [Memory.size]
      omega
    rw [read_loads roms ha', lastOn?_eq_none roms (.inl ha)]
  · rw [read_loads roms (by decide), lastOn?_eq_none roms (.inr (Nat.le_refl _))]
  · have hp : ¬ PutsAt a rom := by
      rw [PutsAt]
      omega
    rw [loads_concat, read_loaded_of_not_putsAt hp ha]

example :
    let m := (create ⟨0, 0⟩ .halt).loads [[1, 2, 3], .replicate 3584 7, [9]]
    (m.memory.read 0x200, m.memory.read 0x201) = (9, 2) := by decide +kernel

end Chip8.Machine
