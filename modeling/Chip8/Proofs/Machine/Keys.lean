import Chip8.Proofs.Keypad
import Chip8.Proofs.Machine.Policy
import Mathlib.Order.Bounds.Basic

/-!
# Keys of the host in a program

A program sees the keys in three instructions: one waits until a key is down and reads
the greatest of them, and two skip the next instruction, one if a given key is down and
the other if it is up. They go by the set of the keys that are down
(`Machine.keysDown`, `Machine.Sees`).

A keypad that is refreshed and then handed to the machine makes this the set of the keys
whose host code is found to be pressed (`Keypad.Provider.pressed`), whatever was asked of
the keypad before. So the program sees what the host does (`keys_reach_program`).
-/

namespace Chip8

/-- The keys whose host code is found in the provider to be pressed. -/
def Keypad.Provider.pressed {ε α : Type} (truth : α → Bool) (p : Keypad.Provider ε α)
    (code : Fin 16 → HostCode) : Set (Fin 16) :=
  {key | p.state truth (code key) = .ok true}

namespace Machine

variable {m m' m'' : Machine} {x key : Fin 16}

/-- The keys that are down. -/
def keysDown (m : Machine) : Set (Fin 16) :=
  {key | m.keypad.get key = true}

/-! ### Reading the keys -/

/-- Which instruction is the next does not depend on the keys. -/
theorem reads_setKeys {i : Instruction} {keys : Vector Bool 16} :
    (m.setKeys keys).Reads i ↔ m.Reads i :=
  Iff.rfl

theorem highestKey?_eq_none_iff : m.highestKey? = none ↔ m.keysDown = ∅ := by
  rw [highestKey?, List.find?_eq_none, Set.eq_empty_iff_forall_notMem]
  simp only [List.mem_reverse, List.mem_finRange, true_imp_iff]
  rfl

/-- The key that is read is the greatest that is down. -/
theorem isGreatest_of_highestKey? (h : m.highestKey? = some key) :
    IsGreatest m.keysDown key := by
  obtain ⟨hdown, before, after, hsplit, hbefore⟩ := List.find?_eq_some_iff_append.1 h
  refine ⟨hdown, fun other hother => ?_⟩
  -- the keys are searched downwards, so a greater key would have come before
  have hsorted : (before ++ key :: after).Pairwise (· > ·) := by
    rw [← hsplit]
    exact List.pairwise_reverse.2 (List.pairwise_lt_finRange 16)
  have hmem : other ∈ before ++ key :: after := by
    rw [← hsplit, List.mem_reverse]
    exact List.mem_finRange other
  rcases List.mem_append.1 hmem with hb | hc
  · have hup := hbefore other hb
    rw [show m.keypad[other] = true from hother] at hup
    cases hup
  · rcases List.mem_cons.1 hc with rfl | ha
    · exact le_rfl
    · exact ((List.pairwise_cons.1 (List.pairwise_append.1 hsorted).2.1).1 other ha).le

theorem highestKey?_of_isGreatest (h : IsGreatest m.keysDown key) :
    m.highestKey? = some key := by
  cases hk : m.highestKey? with
  | some other => rw [(isGreatest_of_highestKey? hk).unique h]
  | none =>
    rw [highestKey?_eq_none_iff] at hk
    exact absurd h.1 (Set.eq_empty_iff_forall_notMem.1 hk key)

theorem exists_isGreatest (h : m.keysDown.Nonempty) : ∃ key, IsGreatest m.keysDown key := by
  cases hk : m.highestKey? with
  | some key => exact ⟨key, isGreatest_of_highestKey? hk⟩
  | none => exact absurd (highestKey?_eq_none_iff.1 hk) h.ne_empty

/-- The key that `VX` names is the one of its low four bits. -/
theorem keyDown_iff : m.keyDown x = true ↔ Fin.ofNat 16 (m.v.get x).toNat ∈ m.keysDown :=
  Iff.rfl

/-! ### One step -/

/-- The next step leads to `m'`, and past the next `n` bytes of the program. -/
def Advances (m : Machine) (n : Nat) (m' : Machine) : Prop :=
  ∃ pc : UInt16, pc.toNat = m.pc.toNat + n ∧
    m.step = .silent { m' with status := .advanced, pc := pc }

theorem Advances.unique {n k : Nat} (h : m.Advances n m') (h' : m.Advances k m'') : n = k := by
  obtain ⟨pc, hpc, hstep⟩ := h
  obtain ⟨pc', hpc', hstep'⟩ := h'
  have : pc = pc' := congrArg (·.machine.pc) (hstep.symm.trans hstep')
  rw [this] at hpc
  omega

/-- A key that is down is read at once. -/
theorem advances_waitKey (hf : m.fault = none) (hi : m.Reads (.waitKey x))
    (h : IsGreatest m.keysDown key) : m.Advances 2 (m.setV x (.ofNat key)) := by
  have hk : m.fetched.highestKey? = some key := highestKey?_of_isGreatest h
  refine ⟨m.fetched.pc, pc_fetched (inReach_iff.2 hi.1), ?_⟩
  rw [step_of_reads hf hi, exec, hk]
  rfl

/-- As long as no key is down the machine waits. -/
theorem step_waitKey (hf : m.fault = none) (hi : m.Reads (.waitKey x)) (h : m.keysDown = ∅) :
    m.step = .silent { m with status := .blocked } := by
  have hk : m.fetched.highestKey? = none := highestKey?_eq_none_iff.2 h
  rw [step_of_reads hf hi, exec, hk, block_fetched]

theorem advances_skipIf {i : Instruction} {c : Bool} (hf : m.fault = none) (hi : m.Reads i)
    (h : m.fetched.exec i = m.fetched.skipIf c) : m.Advances (if c then 4 else 2) m := by
  have hle := hi.1
  have hpc := pc_fetched (inReach_iff.2 hle)
  refine ⟨(m.fetched.skipIf c).pc, ?_, ?_⟩
  · cases c with
    | false => exact hpc
    | true =>
      simp only [skipIf, if_true, UInt16.toNat_add, hpc, UInt16.reduceToNat]
      omega
  · rw [step_of_reads hf hi, h]
    cases c <;> rfl

theorem advances_skipKey (hf : m.fault = none) (hi : m.Reads (.skipKey x)) :
    m.Advances (if m.keyDown x then 4 else 2) m :=
  advances_skipIf hf hi rfl

theorem advances_skipNoKey (hf : m.fault = none) (hi : m.Reads (.skipNoKey x)) :
    m.Advances (if m.keyDown x then 2 else 4) m := by
  have h := advances_skipIf (c := !m.keyDown x) hf hi rfl
  cases hk : m.keyDown x <;> rwa [hk] at h

/-- Of the two instructions that skip on a key, in the same place of a machine that is the
    same in all but memory, one skips and the other does not. -/
theorem advances_skipKey_iff_not (hf : m.fault = none) {a b : Memory}
    (ha : { m with memory := a }.Reads (.skipKey x))
    (hb : { m with memory := b }.Reads (.skipNoKey x)) :
    { m with memory := a }.Advances 4 { m with memory := a } ↔
      ¬ { m with memory := b }.Advances 4 { m with memory := b } := by
  have hskip : { m with memory := a }.Advances (if m.keyDown x then 4 else 2) _ :=
    advances_skipKey hf ha
  have hskipNo : { m with memory := b }.Advances (if m.keyDown x then 2 else 4) _ :=
    advances_skipNoKey hf hb
  cases hk : m.keyDown x with
  | true =>
    rw [hk] at hskip hskipNo
    exact iff_of_true hskip fun h => absurd (h.unique hskipNo) (by decide)
  | false =>
    rw [hk] at hskip hskipNo
    exact iff_of_false (fun h => absurd (h.unique hskip) (by decide)) (not_not_intro hskipNo)

/-- The next step goes by the keys `P`, whichever of the instructions that read the keys it
    fetches: `FX0A`, `EX9E` or `EXA1`. -/
structure Sees (m : Machine) (P : Set (Fin 16)) : Prop where
  /-- The greatest key goes to `VX`. -/
  read : ∀ x, m.Reads (.waitKey x) → P.Nonempty →
    ∃ key, IsGreatest P key ∧ m.Advances 2 (m.setV x (.ofNat key))
  /-- Without a key the machine waits in place. -/
  wait : ∀ x, m.Reads (.waitKey x) → P = ∅ → m.step = .silent { m with status := .blocked }
  /-- The next instruction is skipped if the key of the low four bits of `VX` is down. -/
  skip : ∀ x, m.Reads (.skipKey x) →
    (Fin.ofNat 16 (m.v.get x).toNat ∈ P → m.Advances 4 m) ∧
      (Fin.ofNat 16 (m.v.get x).toNat ∉ P → m.Advances 2 m)
  /-- Or it is skipped if that key is up. -/
  skipNo : ∀ x, m.Reads (.skipNoKey x) →
    (Fin.ofNat 16 (m.v.get x).toNat ∈ P → m.Advances 2 m) ∧
      (Fin.ofNat 16 (m.v.get x).toNat ∉ P → m.Advances 4 m)
  /-- Whatever else is in memory, exactly one of the last two instructions skips. -/
  skipOne : ∀ x (a b : Memory), { m with memory := a }.Reads (.skipKey x) →
    { m with memory := b }.Reads (.skipNoKey x) →
    ({ m with memory := a }.Advances 4 { m with memory := a } ↔
      ¬ { m with memory := b }.Advances 4 { m with memory := b })

/-- A machine that runs goes by the keys that are down. -/
theorem sees_keysDown (hf : m.fault = none) : m.Sees m.keysDown where
  read x hi h := by
    obtain ⟨key, hkey⟩ := exists_isGreatest h
    exact ⟨key, hkey, advances_waitKey hf hi hkey⟩
  wait x hi := step_waitKey hf hi
  skip x hi := by
    have hadv := advances_skipKey hf hi
    rw [← keyDown_iff]
    exact ⟨fun h => by rwa [if_pos h] at hadv, fun h => by rwa [if_neg h] at hadv⟩
  skipNo x hi := by
    have hadv := advances_skipNoKey hf hi
    rw [← keyDown_iff]
    exact ⟨fun h => by rwa [if_pos h] at hadv, fun h => by rwa [if_neg h] at hadv⟩
  skipOne x a b := advances_skipKey_iff_not hf

/-! ### From the host to the program -/

variable {ε α : Type} {truth : α → Bool} {p : Keypad.Provider ε α} {code : Fin 16 → HostCode}

/-- A refreshed keypad makes exactly those keys down that are pressed. -/
theorem refresh_pressed {k : Keypad} (hk : ∀ key, k.codes.get key = code key)
    (hp : ∀ key, ∃ value, p.lookup (code key) = .ok value) :
    ∃ k', k.refresh (p.state truth) = .ok k' ∧
      ∀ m : Machine, (m.setKeys k'.states).keysDown = p.pressed truth code := by
  choose values hvalues using hp
  have hlookup : ∀ key, p.lookup (k.codes.get key) = .ok (values key) := by
    intro key
    rw [hk, hvalues]
  refine ⟨_, Keypad.refresh_of_ok hlookup, fun m => Set.ext fun key => ?_⟩
  have hdown : (Vector.ofFn fun key => truth (values key)).get key = truth (values key) :=
    Vector.getElem_ofFn key.isLt
  have hstate : p.state truth (code key) = .ok (truth (values key)) := by
    rw [Keypad.Provider.state, hvalues]
    rfl
  simp only [keysDown, setKeys, Keypad.Provider.pressed, Set.mem_ofPred_eq, hdown, hstate,
    Except.ok.injEq]

/-- A map with a code for every key makes a keypad. Whatever is asked of it, if then all
    codes are found in a provider, the keypad can be refreshed and handed to a machine
    that runs. Then exactly the keys are down whose code is pressed, so that keys with the
    same code are down together, and the program sees them: `FX0A` puts the greatest key
    that is down into `VX` and advances, or waits in place and changes nothing if there is
    none; `EX9E` skips if the key of the low four bits of `VX` is down and advances by one
    instruction otherwise; `EXA1` does the opposite, so that in the same state exactly one
    of the two skips. -/
theorem keys_reach_program (truth : α → Bool)
    (hp : ∀ key, ∃ value, p.lookup (code key) = .ok value) (hf : m.fault = none) :
    ∃ k, Keypad.ofMap (fun key => some (code key)) = .ok k ∧
      ∀ rs : List (Keypad.Request ε α), ∃ k',
        (k.after truth rs).refresh (p.state truth) = .ok k' ∧
        (m.setKeys k'.states).keysDown = p.pressed truth code ∧
        (∀ key key', code key = code key' →
          (key ∈ p.pressed truth code ↔ key' ∈ p.pressed truth code)) ∧
        (m.setKeys k'.states).Sees (p.pressed truth code) := by
  refine ⟨_, Keypad.ofMap_of_complete code, fun rs => ?_⟩
  have hcodes : ∀ key, ((Keypad.ofCodes (.ofFn code)).after truth rs).codes.get key = code key := by
    intro key
    rw [(Keypad.after_latest truth rfl rs).1]
    exact Vector.getElem_ofFn key.isLt
  obtain ⟨k', hk', hdown⟩ := refresh_pressed hcodes hp
  refine ⟨k', hk', hdown m, fun key key' heq => ?_, ?_⟩
  · simp only [Keypad.Provider.pressed, Set.mem_ofPred_eq, heq]
  · rw [← hdown m]
    exact sees_keysDown hf

/-- The keys `3` and `E` are pressed, and the greater of them goes to `V3`. -/
theorem keys_reach_program_positions :
    let m := (create ⟨0, 0⟩ .halt).loaded [0xF3, 0x0A]
    let code : Fin 16 → HostCode := fun key => .number (.whole key.val)
    let p : Keypad.Provider Empty Bool := .sequence (.ofFn fun key : Fin 16 => key ∈ [3, 14])
    (∀ key, ∃ value, p.lookup (code key) = .ok value) ∧ m.fault = none ∧
      ∃ k, Keypad.ofMap (fun key => some (code key)) = .ok k ∧
        ∃ k', k.refresh (p.state id) = .ok k' ∧
          (m.setKeys k'.states).Advances 2 ((m.setKeys k'.states).setV 3 14) := by
  intro m code p
  have hp : ∀ key, ∃ value, p.lookup (code key) = .ok value := by
    simp only [p, code]
    decide +kernel
  have hpressed : IsGreatest (p.pressed id code) 14 := by
    have hmem : ∀ key, p.state id (code key) = .ok true → key ≤ 14 := by
      simp only [p, code]
      decide +kernel
    exact ⟨rfl, hmem⟩
  obtain ⟨k, hk, hrefresh⟩ := keys_reach_program (m := m) id hp rfl
  obtain ⟨k', hk', -, -, hsees⟩ := hrefresh []
  have hreads : m.Reads (.waitKey 3) := by
    simp only [m]
    decide +kernel
  obtain ⟨key, hkey, hadv⟩ := hsees.read 3 (reads_setKeys.2 hreads) ⟨14, hpressed.1⟩
  rw [hkey.unique hpressed] at hadv
  exact ⟨hp, rfl, k, hk, k', hk', hadv⟩

end Machine

end Chip8
