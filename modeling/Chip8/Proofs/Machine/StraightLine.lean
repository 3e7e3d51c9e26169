import Chip8.Proofs.Machine.Loading
import Chip8.Proofs.Machine.Policy

/-!
# Straight-line programs

Some instructions only compute: they read and write registers, timers, the screen and
the random stream, and go on to the next instruction (`Instruction.computes`). They leave
memory alone, and it does not matter for them from where they are executed
(`exec_withProgress`).

So a program that is made of such instructions stays as it was loaded while it runs, and
every step fetches the next of its words. After `i` steps it has executed the first `i`
words in order (`steps_holdsWords`, `steps_straightLine`).
-/

namespace Chip8

/-! ### Words in memory -/

namespace Memory

variable {memory : Memory} {a : Nat} {w : UInt16} {ws : List UInt16}

/-- The bytes of a list of words, the high byte of each word first. -/
def bytesOf (ws : List UInt16) : List UInt8 :=
  ws.flatMap fun w => [.ofNat (w.toNat / 256), .ofNat (w.toNat % 256)]

/-- The words `ws` stand in memory from the address `a` on. -/
def HoldsWords (memory : Memory) (a : Nat) (ws : List UInt16) : Prop :=
  ∀ i (hi : i < ws.length), memory.bigEndian (a + 2 * i) = ws[i]

theorem length_bytesOf (ws : List UInt16) : (bytesOf ws).length = 2 * ws.length := by
  induction ws with
  | nil => rfl
  | cons w ws ih =>
    rw [bytesOf, List.flatMap_cons, List.length_append, ← bytesOf, ih, List.length_cons]
    simp only [List.length_cons, List.length_nil]
    omega

theorem getD_bytesOf (ws : List UInt16) {i : Nat} (hi : i < ws.length) :
    (bytesOf ws).getD (2 * i) 0 = .ofNat (ws[i].toNat / 256) ∧
      (bytesOf ws).getD (2 * i + 1) 0 = .ofNat (ws[i].toNat % 256) := by
  induction ws generalizing i with
  | nil => cases hi
  | cons w ws ih =>
    cases i with
    | zero => exact ⟨rfl, rfl⟩
    | succ i => exact ih (Nat.lt_of_succ_lt_succ hi)

/-- The words whose bytes are put into memory stand there. -/
theorem holdsWords_writeAll (h : a + 2 * ws.length ≤ size) (memory : Memory) :
    (memory.writeAll a (bytesOf ws)).HoldsWords a ws := by
  intro i hi
  have hbyte : ∀ j < 2 * ws.length,
      (memory.writeAll a (bytesOf ws)).read (a + j) = (bytesOf ws).getD j 0 := by
    intro j hj
    rw [← length_bytesOf] at hj
    rw [read_writeAll_add hj (by rw [length_bytesOf] at hj; omega), List.getD_eq_getElem _ _ hj]
  obtain ⟨hhigh, hlow⟩ := getD_bytesOf ws hi
  have hw := ws[i].toNat_lt
  rw [bigEndian, Nat.add_assoc, hbyte _ (by omega), hbyte _ (by omega), hhigh, hlow,
    ← UInt16.toNat_inj]
  simp only [UInt8.toNat_ofNat', UInt16.toNat_ofNat']
  omega

theorem HoldsWords.of_prefix {vs : List UInt16} (h : memory.HoldsWords a ws) (hp : vs <+: ws) :
    memory.HoldsWords a vs := by
  intro i hi
  rw [h i (Nat.lt_of_lt_of_le hi hp.length_le), hp.getElem hi]

theorem HoldsWords.last (h : memory.HoldsWords a (ws ++ [w])) :
    memory.bigEndian (a + 2 * ws.length) = w := by
  rw [h ws.length (by simp), List.getElem_concat_length rfl]

end Memory

/-! ### Instructions that only compute -/

/-- The forms of the instructions that neither transfer control nor touch memory. -/
def Form.straightLine : List Form :=
  [⟨0x0, some 0x0, some 0xE, some 0x0⟩, -- 00E0
   ⟨0x6, none, none, none⟩, -- 6XNN
   ⟨0x7, none, none, none⟩, -- 7XNN
   ⟨0x8, none, none, some 0x0⟩, -- 8XY0
   ⟨0x8, none, none, some 0x1⟩, -- 8XY1
   ⟨0x8, none, none, some 0x2⟩, -- 8XY2
   ⟨0x8, none, none, some 0x3⟩, -- 8XY3
   ⟨0x8, none, none, some 0x4⟩, -- 8XY4
   ⟨0x8, none, none, some 0x5⟩, -- 8XY5
   ⟨0x8, none, none, some 0x6⟩, -- 8XY6
   ⟨0x8, none, none, some 0x7⟩, -- 8XY7
   ⟨0x8, none, none, some 0xE⟩, -- 8XYE
   ⟨0xA, none, none, none⟩, -- ANNN
   ⟨0xC, none, none, none⟩, -- CXNN
   ⟨0xF, none, some 0x0, some 0x7⟩, -- FX07
   ⟨0xF, none, some 0x1, some 0x5⟩, -- FX15
   ⟨0xF, none, some 0x1, some 0x8⟩, -- FX18
   ⟨0xF, none, some 0x1, some 0xE⟩, -- FX1E
   ⟨0xF, none, some 0x2, some 0x9⟩] -- FX29

/-- The word `w` has one of these forms. -/
def Form.StraightLine (w : UInt16) : Prop :=
  ∃ f ∈ straightLine, f.Matches w.toNat

instance (w : UInt16) : Decidable (Form.StraightLine w) :=
  inferInstanceAs (Decidable (∃ f ∈ Form.straightLine, f.Matches w.toNat))

/-- Whether an instruction only computes: it neither transfers control, nor skips, nor
    waits, nor touches memory. -/
def Instruction.computes : Instruction → Bool
  | .clear | .load _ _ | .addImm _ _ | .alu _ _ _ | .loadIndex _ | .random _ _ | .readDelay _
  | .setDelay _ | .setSound _ | .addIndex _ | .glyph _ => true
  | _ => false

theorem Instruction.computes_of_form_mem {i : Instruction} (h : i.form ∈ Form.straightLine) :
    i.computes = true := by
  cases i with
  | clear | load x k | addImm x k | alu op x y | loadIndex a | random x k | readDelay x
  | setDelay x | setSound x | addIndex x | glyph x => rfl
  | _ => simp [form, Form.straightLine] at h

/-- A word of one of the forms encodes an instruction that only computes. -/
theorem Form.StraightLine.exists_encode {w : UInt16} (h : Form.StraightLine w) :
    ∃ i : Instruction, i.computes = true ∧ w = i.encode := by
  obtain ⟨f, hf, hw⟩ := h
  have hall : f ∈ all := (show ∀ f ∈ straightLine, f ∈ all by decide) f hf
  obtain ⟨i, rfl⟩ := Form.defined_iff.1 ⟨f, hall, hw⟩
  rw [Instruction.eq_form hall hw] at hf
  exact ⟨i, Instruction.computes_of_form_mem hf, rfl⟩

namespace Machine

variable {m : Machine} {i : Instruction} {ws : List UInt16}

/-- The machine with another address of the next instruction and another status. -/
def withProgress (m : Machine) (pc : UInt16) (status : Status) : Machine :=
  { m with pc := pc, status := status }

/-- An instruction that only computes does not look at its own address. -/
theorem exec_withProgress (h : i.computes = true) (m : Machine) (pc : UInt16) (status : Status) :
    (m.withProgress pc status).exec i = (m.exec i).withProgress pc status := by
  cases i with
  | alu op x y => cases op <;> rfl
  | clear | load x k | addImm x k | loadIndex a | random x k | readDelay x | setDelay x
  | setSound x | addIndex x | glyph x => rfl
  | _ => cases h

/-- An instruction that only computes leaves memory alone and does not fault. -/
theorem exec_of_computes (h : i.computes = true) (m : Machine) :
    (m.exec i).memory = m.memory ∧ (m.exec i).fault = m.fault := by
  cases i with
  | alu op x y => cases op <;> exact ⟨rfl, rfl⟩
  | clear | load x k | addImm x k | loadIndex a | random x k | readDelay x | setDelay x
  | setSound x | addIndex x | glyph x => exact ⟨rfl, rfl⟩
  | _ => cases h

/-- A step at the address `a`, where such an instruction stands. -/
theorem step_withProgress {a : Nat} (h : i.computes = true) (hf : m.fault = none)
    (ha : a ≤ 0xFFE) (hi : m.memory.bigEndian a = i.encode) (status : Status) :
    (m.withProgress (.ofNat a) status).step =
      .silent ((m.exec i).withProgress (.ofNat (a + 2)) .advanced) := by
  have hat : (UInt16.ofNat a).toNat = a := UInt16.toNat_ofNat_of_lt (by rw [UInt16.size]; omega)
  have hfault : (m.withProgress (.ofNat a) status).fault = none := hf
  have hreads : (m.withProgress (.ofNat a) status).Reads i := by
    rw [Reads, withProgress, hat]
    exact ⟨ha, hi⟩
  have hfetched : (m.withProgress (.ofNat a) status).fetched =
      m.withProgress (.ofNat (a + 2)) .advanced := by
    rw [UInt16.ofNat_add]
    rfl
  rw [step_of_reads hfault hreads, hfetched, exec_withProgress h]

/-! ### Lists of words -/

/-- Executes the words of a list in order, without fetching them. -/
def executeAll (m : Machine) (ws : List UInt16) : Outcome :=
  ws.foldl (fun o w => o.andThen (·.execute w)) (.silent m)

theorem executeAll_concat (m : Machine) (ws : List UInt16) (w : UInt16) :
    m.executeAll (ws ++ [w]) = (m.executeAll ws).andThen (·.execute w) :=
  List.foldl_append

/-- The words of a straight-line program that stands in memory where the machine is are
    executed in order, one at every step. -/
theorem steps_holdsWords {a : Nat} (hws : ∀ w ∈ ws, Form.StraightLine w) (hf : m.fault = none)
    (hpc : m.pc = .ofNat a) (hend : a + 2 * ws.length ≤ 4096) (hmem : m.memory.HoldsWords a ws) :
    ∃ m', m.executeAll ws = .silent m' ∧ m'.memory = m.memory ∧ m'.fault = none ∧
      (Outcome.silent m).steps ws.length = .silent (m'.withProgress (.ofNat (a + 2 * ws.length))
        (if ws.length = 0 then m.status else .advanced)) := by
  -- every word is fetched from memory as it was at first, so the last one is taken off
  induction ws using List.reverseRecOn with
  | nil =>
    refine ⟨m, rfl, rfl, hf, ?_⟩
    rw [List.length_nil, Nat.mul_zero, Nat.add_zero, ← hpc]
    rfl
  | append_singleton ws w ih =>
    rw [List.forall_mem_append, List.forall_mem_singleton] at hws
    rw [List.length_append, List.length_singleton] at hend ⊢
    obtain ⟨i, hi, rfl⟩ := hws.2.exists_encode
    obtain ⟨m', hall, hmemory, hfault, hsteps⟩ :=
      ih hws.1 (by omega) (hmem.of_prefix (List.prefix_append ws _))
    obtain ⟨hexec, hexecFault⟩ := exec_of_computes hi m'
    refine ⟨m'.exec i, ?_, hexec.trans hmemory, hexecFault.trans hfault, ?_⟩
    · rw [executeAll_concat, hall, Outcome.silent_andThen, execute_encode]
    · have hword : m'.memory.bigEndian (a + 2 * ws.length) = i.encode := by
        rw [hmemory]
        exact hmem.last
      rw [Outcome.steps_succ, hsteps, Outcome.silent_andThen,
        step_withProgress hi hfault (by omega) hword, if_neg ws.length.succ_ne_zero, Nat.mul_succ,
        Nat.add_assoc]

/-- A program that is made of words of the straight-line forms only and is smaller than
    the room for programs can be loaded. A machine that runs and is at the start of
    programs then executes its words in order, one at every step: after `i` steps it is as
    executing the first `i` words leaves it, but that it is at the word after them and, if
    there are any, has advanced. It has not faulted and reports nothing. -/
theorem steps_straightLine (hws : ∀ w ∈ ws, Form.StraightLine w) (hlen : 2 * ws.length < 3584)
    (hpc : m.pc = 0x200) (hf : m.fault = none) :
    ∃ m', m.loadRom (Memory.bytesOf ws) = .ok m' ∧
      ∀ i ≤ ws.length, ∃ m'', m'.executeAll (ws.take i) = .silent m'' ∧ m''.fault = none ∧
        (Outcome.silent m').steps i = .silent { m'' with
          pc := .ofNat (0x200 + 2 * i)
          status := if i = 0 then m.status else .advanced } := by
  have hfits : (Memory.bytesOf ws).length < 3584 := by rwa [Memory.length_bytesOf]
  have hholds : (m.memory.writeAll 0x200 (Memory.bytesOf ws)).HoldsWords 0x200 ws :=
    Memory.holdsWords_writeAll (by rw [Memory.size]; omega) m.memory
  refine ⟨_, loadRom_of_fits m hfits, fun i hi => ?_⟩
  have htake : (ws.take i).length = i := List.length_take_of_le hi
  have hsteps := steps_holdsWords
    (m := { m with memory := m.memory.writeAll 0x200 (Memory.bytesOf ws) }) (a := 0x200)
    (fun w hw => hws w (List.mem_of_mem_take hw)) hf hpc (by rw [htake]; omega)
    (hholds.of_prefix (List.take_prefix i ws))
  rw [htake] at hsteps
  obtain ⟨m'', hall, -, hfault, hsteps⟩ := hsteps
  exact ⟨m'', hall, hfault, hsteps⟩

/-- Three words, the last of which puts the sum of the random byte and of `V1` into `V1`. -/
theorem steps_straightLine_random :
    let ws : List UInt16 := [0x6105, 0xC0FF, 0x8104]
    (∀ w ∈ ws, Form.StraightLine w) ∧ 2 * ws.length < 3584 ∧
      (create ⟨0, 0⟩ .halt).pc = 0x200 ∧ (create ⟨0, 0⟩ .halt).fault = none ∧
      ∃ m', (create ⟨0, 0⟩ .halt).loadRom (Memory.bytesOf ws) = .ok m' ∧
        ∃ m'', m'.executeAll ws = .silent m'' ∧
          (Outcome.silent m').steps 3 = .silent { m'' with pc := 0x206, status := .advanced } := by
  intro ws
  have hws : ∀ w ∈ ws, Form.StraightLine w := by
    rw [List.forall_mem_cons, List.forall_mem_cons, List.forall_mem_singleton]
    decide +kernel
  have hlen : 2 * ws.length < 3584 := by decide
  obtain ⟨m', hload, hsteps⟩ := steps_straightLine (m := create ⟨0, 0⟩ .halt) hws hlen rfl rfl
  obtain ⟨m'', hall, -, hstep⟩ := hsteps 3 (Nat.le_refl 3)
  exact ⟨hws, hlen, rfl, rfl, m', hload, m'', hall, hstep⟩

end Machine

end Chip8
