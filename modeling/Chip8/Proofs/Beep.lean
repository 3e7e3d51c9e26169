import Chip8.Beep
import Chip8.Proofs.Capacity

/-!
# The beep is a square wave

A tone can be made into a sound of a format (`Makes`) exactly if its period has a sample at
least, the amplitude of the format fits a sample and there is room for the samples
(`makes_iff`). The sound is a period that is repeated, so its samples depend on their place
in the period alone (`getElem?_repeated`): a half of each period is up and the rest is down,
in whole periods that fill the duration as far as they fit (`make_squareWave`).
-/

namespace Chip8.Beep

open Capacity

variable {cap : Capacity} {f : Format} {t : Tone} {p b n channels : Int} {l : List Int}

/-! ### Room for the samples -/

/-- The bytes of `n` periods of `p` samples, for every channel. -/
def bytes (p n channels : Int) : Int :=
  sampleBytes * (n * p) * max 1 channels

theorem le_bytes (hp : 0 < p) (hn : 0 < n) (channels : Int) :
    sampleBytes * (n * p) ≤ bytes p n channels :=
  le_mul_of_one_le_right (mul_nonneg (Int.natCast_nonneg sampleBytes) (mul_pos hn hp).le)
    (le_max_left 1 channels)

/-- One channel needs room for the periods. -/
theorem room_eq_ok_iff_of_le (hc : channels ≤ 1) :
    room cap p n channels = .ok l ↔
      isSigned 64 n = true ∧ cap.reserve sampleBytes [n, p] = .ok l := by
  rw [room, bind_eq_ok_iff]
  simp only [bind_eq_ok_iff, repeated_one_eq_ok_iff, if_pos hc]
  constructor
  · rintro ⟨_, ⟨hsigned, rfl⟩, _, hreserve, h⟩
    exact ⟨hsigned, Except.ok.inj h ▸ hreserve⟩
  · rintro ⟨hsigned, hreserve⟩
    exact ⟨n, ⟨hsigned, rfl⟩, l, hreserve, rfl⟩

/-- Several channels need room for the periods once more, and for those of all channels. -/
theorem room_eq_ok_iff_of_lt (hc : 1 < channels) :
    room cap p n channels = .ok l ↔
      isSigned 64 n = true ∧ isSigned 64 channels = true ∧
        (∃ one, cap.reserve sampleBytes [n, p] = .ok one) ∧
          cap.reserve sampleBytes [n * p, channels] = .ok l := by
  rw [room, bind_eq_ok_iff]
  simp only [bind_eq_ok_iff, repeated_one_eq_ok_iff, if_neg (not_le.2 hc)]
  constructor
  · rintro ⟨_, ⟨hsigned, rfl⟩, one, hreserve, _, ⟨hsigned', rfl⟩, h⟩
    exact ⟨hsigned, hsigned', ⟨one, hreserve⟩, h⟩
  · rintro ⟨hsigned, hsigned', ⟨one, hreserve⟩, h⟩
    exact ⟨n, ⟨hsigned, rfl⟩, one, hreserve, channels, ⟨hsigned', rfl⟩, h⟩

theorem reserve_periods_iff (hp : 0 < p) (hn : 0 < n) :
    cap.reserve sampleBytes [n, p] = .ok [n, p] ↔ sampleBytes * (n * p) ≤ cap.limit := by
  rw [reserve_eq_ok_iff (by decide) (by simp [hp, hn]), List.prod_pair]

theorem reserve_channels_iff (hp : 0 < p) (hn : 0 < n) (hc : 1 < channels) :
    cap.reserve sampleBytes [n * p, channels] = .ok [n * p, channels] ↔
      bytes p n channels ≤ cap.limit := by
  have hfilled : Filled [n * p, channels] := by
    simp [mul_pos hn hp, Int.zero_lt_one.trans hc]
  rw [reserve_eq_ok_iff (by decide) hfilled, List.prod_pair, bytes, max_eq_right hc.le,
    mul_assoc (sampleBytes : Int)]

/-- There is room for the samples exactly if their bytes are within the limit. -/
theorem exists_room_iff (hp : 0 < p) (hn : 0 < n) :
    (∃ l, room cap p n channels = .ok l) ↔ bytes p n channels ≤ cap.limit := by
  rcases Int.lt_or_le 1 channels with hc | hc
  · rw [← reserve_channels_iff hp hn hc]
    simp only [room_eq_ok_iff_of_lt hc]
    constructor
    · rintro ⟨l, -, -, -, h⟩
      exact (reserve_eq_ok h).1 ▸ h
    · intro h
      have hreserve := (reserve_periods_iff hp hn).2
        ((le_bytes hp hn channels).trans ((reserve_channels_iff hp hn hc).1 h))
      exact ⟨_, isSigned_of_reserve hreserve (by simp), isSigned_of_reserve h (by simp),
        ⟨_, hreserve⟩, h⟩
  · rw [bytes, max_eq_left hc, mul_one, ← reserve_periods_iff hp hn]
    simp only [room_eq_ok_iff_of_le hc]
    constructor
    · rintro ⟨l, -, h⟩
      exact (reserve_eq_ok h).1 ▸ h
    · intro h
      exact ⟨_, isSigned_of_reserve h (by simp), h⟩

/-! ### Making a sound -/

theorem one_le_periods (p b : Int) : 1 ≤ max 1 (b / p) :=
  le_max_left 1 _

theorem natCast_periods (p b : Int) : (periods p b : Int) = max 1 (b / p) :=
  Int.toNat_of_nonneg (Int.zero_lt_one.le.trans (one_le_periods p b))

/-- The square wave with a period of `p` samples that may have `b` samples. -/
def soundOf (p b bits channels : Int) : Sound :=
  ⟨wave p.toNat (amplitude bits), periods p b, channels⟩

theorem reserve_period (hp : 0 < p) (hn : 0 < n) (h : bytes p n channels ≤ cap.limit) :
    cap.reserve sampleBytes [p] = .ok [p] := by
  have hone : sampleBytes * p ≤ sampleBytes * (n * p) :=
    mul_le_mul_of_nonneg_left (le_mul_of_one_le_left hp.le hn) (Int.natCast_nonneg sampleBytes)
  rw [reserve_eq_ok_iff (by decide) (by simp [hp]), List.prod_singleton]
  exact hone.trans ((le_bytes hp hn channels).trans h)

/-- What comes of a square wave with a period of `p` samples: there is no room for it, if its
    period and its samples can be told at all, or one of its numbers is to blame, or it is
    made. -/
inductive Squared (cap : Capacity) (p : Int) (budget : Except Number.Failure Int)
    (bits channels : Int) : Except Failure Sound → Prop
  | noRoom (e : Refusal)
      (h : ∀ b, budget = .ok b → 0 < p → ¬ bytes p (max 1 (b / p)) channels ≤ cap.limit) :
      Squared cap p budget bits channels (.error (.noRoom e))
  | amplitudeTooLarge (h : 16 < bits.natAbs) :
      Squared cap p budget bits channels (.error .amplitudeTooLarge)
  | unbounded {e : Number.Failure} (h : budget = .error e) :
      Squared cap p budget bits channels (.error (.unbounded e))
  | emptyPeriod (h : p = 0) : Squared cap p budget bits channels (.error .emptyPeriod)
  | made {b : Int} (hbudget : budget = .ok b) (hp : 0 < p) (hbits : bits.natAbs ≤ 16)
      (hroom : bytes p (max 1 (b / p)) channels ≤ cap.limit) :
      Squared cap p budget bits channels (.ok (soundOf p b bits channels))

theorem nonneg_of_reserve (h : cap.reserve sampleBytes [p] = .ok l) : 0 ≤ p := by
  obtain ⟨-, -, n, -, hm⟩ := reserve_eq_ok h
  rw [Capacity.measure] at hm
  split at hm
  · cases hm
  · next hp => exact not_lt.1 hp

theorem squared_square (cap : Capacity) (p : Int) (budget : Except Number.Failure Int)
    (bits channels : Int) :
    Squared cap p budget bits channels (square cap p budget bits channels) := by
  unfold square
  split
  · next e he =>
    refine .noRoom e fun b _ hp hroom => ?_
    cases he.symm.trans (reserve_period hp (one_le_periods p b) hroom)
  next l hl =>
  split
  · next hbits => exact .amplitudeTooLarge hbits
  next hbits =>
  split
  · exact .unbounded rfl
  next b =>
  split
  · next hp => exact .emptyPeriod hp
  next hp =>
  have hpos : 0 < p := lt_of_le_of_ne (nonneg_of_reserve hl) (Ne.symm hp)
  have hroom := @exists_room_iff cap p (periods p b) channels hpos
    (natCast_periods p b ▸ one_le_periods p b)
  rw [natCast_periods] at hroom
  dsimp only
  rw [natCast_periods]
  split
  · next e he =>
    refine .noRoom e fun b' hb' _ hle => ?_
    cases Except.ok.inj hb'
    obtain ⟨l', hl'⟩ := hroom.2 hle
    cases he.symm.trans hl'
  · next l' hl' => exact .made rfl hpos (not_lt.1 hbits) (hroom.1 ⟨l', hl'⟩)

section

variable {bits : Int} (hp : 0 < p) (hbits : bits.natAbs ≤ 16)
include hp hbits

theorem square_of_room (h : bytes p (max 1 (b / p)) channels ≤ cap.limit) :
    square cap p (.ok b) bits channels = .ok (soundOf p b bits channels) := by
  generalize hs : square cap p (.ok b) bits channels = r
  cases hs ▸ squared_square cap p (.ok b) bits channels with
  | noRoom e hno => exact absurd h (hno b rfl hp)
  | amplitudeTooLarge hlarge => exact absurd hbits (not_le.2 hlarge)
  | unbounded he => cases he
  | emptyPeriod hzero => exact absurd hzero hp.ne'
  | made hb => cases hb; rfl

theorem square_of_not_room (h : ¬ bytes p (max 1 (b / p)) channels ≤ cap.limit) :
    ∃ e, square cap p (.ok b) bits channels = .error (.noRoom e) := by
  generalize hs : square cap p (.ok b) bits channels = r
  cases hs ▸ squared_square cap p (.ok b) bits channels with
  | noRoom e => exact ⟨e, rfl⟩
  | amplitudeTooLarge hlarge => exact absurd hbits (not_le.2 hlarge)
  | unbounded he => cases he
  | emptyPeriod hzero => exact absurd hzero hp.ne'
  | made hb _ _ hroom => cases hb; exact absurd hroom h

end

/-- A tone can be made into a sound of a format: its period has a sample at least, the
    amplitude fits a sample, and there is room for the samples. -/
def Makes (cap : Capacity) (f : Format) (t : Tone) : Prop :=
  ∃ p b, period f.rate t.frequency = .ok p ∧ budget f.rate t.duration = .ok b ∧
    1 ≤ p ∧ f.bits.natAbs ≤ 16 ∧ bytes p (max 1 (b / p)) f.channels ≤ cap.limit

theorem make_eq_square (hperiod : period f.rate t.frequency = .ok p) :
    make cap (some f) t = square cap p (budget f.rate t.duration) f.bits f.channels := by
  rw [make]
  simp only [hperiod]

theorem makes_iff : (∃ s, make cap (some f) t = .ok s) ↔ Makes cap f t := by
  constructor
  · rintro ⟨s, h⟩
    cases hperiod : period f.rate t.frequency with
    | error e =>
      rw [make] at h
      simp only [hperiod] at h
      cases h
    | ok p =>
      rw [make_eq_square hperiod] at h
      cases h ▸ squared_square cap p (budget f.rate t.duration) f.bits f.channels with
      | made hbudget hp hbits hroom => exact ⟨p, _, hperiod, hbudget, hp, hbits, hroom⟩
  · rintro ⟨p, b, hperiod, hbudget, hp, hbits, hroom⟩
    rw [make_eq_square hperiod, hbudget]
    exact ⟨_, square_of_room hp hbits hroom⟩

/-- A mixer with a format is there, whatever the format. -/
theorem make_ne_unavailable (cap : Capacity) (f : Format) (t : Tone) :
    make cap (some f) t ≠ .error .unavailable := by
  intro h
  cases hperiod : period f.rate t.frequency with
  | error e =>
    rw [make] at h
    simp only [hperiod] at h
    cases h
  | ok p =>
    rw [make_eq_square hperiod] at h
    cases h ▸ squared_square cap p (budget f.rate t.duration) f.bits f.channels

/-! ### The samples -/

/-- The place `i` in a list that is repeated is the place `i % l.length` in it. -/
theorem getElem?_repeated {α : Type} (l : List α) (k : Nat) {i : Nat} (hi : i < k * l.length) :
    (List.replicate k l).flatten[i]? = l[i % l.length]? := by
  induction k generalizing i with
  | zero => rw [Nat.zero_mul] at hi; exact absurd hi i.not_lt_zero
  | succ k ih =>
    rw [List.replicate_succ, List.flatten_cons]
    rcases Nat.lt_or_ge i l.length with h | h
    · rw [List.getElem?_append_left h, Nat.mod_eq_of_lt h]
    · rw [List.getElem?_append_right h, ih (by rw [Nat.succ_mul] at hi; omega),
        Nat.mod_eq_sub_mod h]

theorem periodSamples_soundOf (p b bits channels : Int) :
    (soundOf p b bits channels).periodSamples =
      List.replicate (p.toNat / 2) (amplitude bits : Int) ++
        List.replicate (p.toNat - p.toNat / 2) (-amplitude bits : Int) := by
  rw [soundOf, Sound.periodSamples, wave, List.flatMap_cons, List.flatMap_singleton]

theorem length_periodSamples_soundOf (p b bits channels : Int) :
    (soundOf p b bits channels).periodSamples.length = p.toNat := by
  rw [periodSamples_soundOf, List.length_append, List.length_replicate, List.length_replicate]
  omega

theorem length_samples_soundOf (p b bits channels : Int) :
    (soundOf p b bits channels).samples.length = periods p b * p.toNat := by
  have hperiod : p.toNat / 2 + (p.toNat - p.toNat / 2 + 0) = p.toNat := by omega
  rw [Sound.length_samples]
  exact congrArg (periods p b * ·) hperiod

theorem natCast_length_samples_soundOf (hp : 0 ≤ p) (b bits channels : Int) :
    ((soundOf p b bits channels).samples.length : Int) = p * max 1 (b / p) := by
  rw [length_samples_soundOf, Int.natCast_mul, Int.toNat_of_nonneg hp, mul_comm]
  exact congrArg (p * ·) (natCast_periods p b)

theorem getElem?_periodSamples_soundOf (p : Nat) (b bits channels : Int) {j : Nat} (hj : j < p) :
    (soundOf p b bits channels).periodSamples[j]? =
      some (if j < p / 2 then (amplitude bits : Int) else -amplitude bits) := by
  rw [periodSamples_soundOf, Int.toNat_natCast]
  split
  · next h =>
    rw [List.getElem?_append_left (by rwa [List.length_replicate]), List.getElem?_replicate_of_lt h]
  · next h =>
    have hle : p / 2 ≤ j := not_lt.1 h
    rw [List.getElem?_append_right (by rwa [List.length_replicate]), List.length_replicate,
      List.getElem?_replicate_of_lt (Nat.sub_lt_sub_right hle hj)]

/-- The first half of a period is up, the rest is down. -/
theorem getElem_samples_soundOf (hp : 0 < p) (b bits channels : Int) {i : Nat}
    (hi : i < (soundOf p b bits channels).samples.length) :
    (soundOf p b bits channels).samples[i] =
      if (i : Int) % p < p / 2 then (amplitude bits : Int) else -amplitude bits := by
  obtain ⟨q, rfl⟩ := Int.eq_ofNat_of_zero_le hp.le
  have hq : 0 < q := Int.natCast_pos.1 hp
  have hlength : (soundOf q b bits channels).samples.length =
      periods q b * (soundOf q b bits channels).periodSamples.length := by
    rw [length_samples_soundOf, length_periodSamples_soundOf]
  rw [← Option.some_inj, ← List.getElem?_eq_getElem, Sound.samples,
    getElem?_repeated _ _ (hlength ▸ hi), length_periodSamples_soundOf, Int.toNat_natCast,
    getElem?_periodSamples_soundOf q b bits channels (Nat.mod_lt i hq)]
  norm_cast

theorem natCast_amplitude (bits : Int) : (amplitude bits : Int) = 2 ^ (bits.natAbs - 1) - 1 := by
  have hpow : 1 ≤ 2 ^ (bits.natAbs - 1) := Nat.one_le_two_pow
  exact Nat.cast_pred hpow

theorem amplitude_le {bits : Int} (hbits : bits.natAbs ≤ 16) : amplitude bits ≤ 32767 :=
  Nat.sub_le_sub_right (Nat.pow_le_pow_right Nat.two_pos (Nat.sub_le_sub_right hbits 1)) 1

/-- As many periods as fit, and at least one, are not longer than the longer of one period
    and what they may have, and come less than a period short of it. -/
theorem count_bounds (hp : 0 < p) (b : Int) :
    p * max 1 (b / p) ≤ max p b ∧ b - p < p * max 1 (b / p) := by
  constructor
  · rw [mul_max_of_nonneg _ _ hp.le, mul_one]
    exact max_le_max_left p (Int.mul_ediv_self_le hp.ne')
  · have hle : p * (b / p) ≤ p * max 1 (b / p) :=
      mul_le_mul_of_nonneg_left (le_max_right 1 (b / p)) hp.le
    exact (sub_lt_iff_lt_add.2 (Int.lt_mul_ediv_self_add hp)).trans_le hle

/-- The beep is a whole number of periods of a square wave, the same for every channel: as
    many as fit the duration, and at least one. In each period the first half, rounded
    down, is at the amplitude of the format, and the rest is at its negative. It is made
    whenever there is room for the samples. -/
theorem make_squareWave (hbits : 1 ≤ f.bits.natAbs ∧ f.bits.natAbs ≤ 16)
    (hchannels : 1 ≤ f.channels) (hperiod : period f.rate t.frequency = .ok p)
    (hbudget : budget f.rate t.duration = .ok b) (hp : 1 ≤ p) :
    let count := p * max 1 (b / p)
    let level : Int := 2 ^ (f.bits.natAbs - 1) - 1
    (2 * count * f.channels ≤ cap.limit →
      ∃ s, make cap (some f) t = .ok s ∧ s.channels = f.channels ∧
        (s.samples.length : Int) = count ∧
        ∀ i (hi : i < s.samples.length),
          s.samples[i] = if (i : Int) % p < p / 2 then level else -level) ∧
      (cap.limit < 2 * count * f.channels → ∃ e, make cap (some f) t = .error (.noRoom e)) ∧
      (0 ≤ level ∧ level ≤ 32767) ∧
      p ∣ count ∧ 0 < count ∧ count ≤ max p b ∧ b - p < count := by
  intro count level
  have hlevel : (amplitude f.bits : Int) = level := natCast_amplitude f.bits
  have hbytes : bytes p (max 1 (b / p)) f.channels = 2 * count * f.channels := by
    rw [bytes, max_eq_right hchannels, mul_comm (max 1 (b / p))]
    rfl
  obtain ⟨hle, hlt⟩ := count_bounds hp b
  rw [make_eq_square hperiod, hbudget, ← hbytes]
  refine ⟨fun hroom => ?_, fun hroom => square_of_not_room hp hbits.2 (not_le.2 hroom), ⟨?_, ?_⟩,
    dvd_mul_right p _, mul_pos hp (one_le_periods p b), hle, hlt⟩
  · refine ⟨_, square_of_room hp hbits.2 hroom, rfl,
      natCast_length_samples_soundOf (Int.zero_lt_one.le.trans hp) b f.bits f.channels,
      fun i hi => ?_⟩
    rw [getElem_samples_soundOf hp b f.bits f.channels hi, hlevel]
  · exact hlevel ▸ Int.natCast_nonneg _
  · exact hlevel ▸ Int.ofNat_le.2 (amplitude_le hbits.2)

/-- A period of an odd number of samples, for six channels: forty-four periods of 109
    samples each, of which the first fifty-four are up. -/
theorem make_squareWave_sixChannels :
    ∃ s, make .standard (some ⟨48000, -16, 6⟩) .standard = .ok s ∧ s.channels = 6 ∧
      s.samples.length = 4796 ∧ s.samples[53]? = some 32767 ∧ s.samples[54]? = some (-32767) := by
  have hperiod : period 48000 (.whole 440) = .ok 109 := rfl
  have hbudget : budget 48000 (.real 0.1) = .ok 4800 := rfl
  obtain ⟨hmade, -⟩ := @make_squareWave .standard ⟨48000, -16, 6⟩ .standard 109 4800 (by decide)
    (by decide) hperiod hbudget (by decide)
  obtain ⟨s, hs, hchannels, hlength, hsamples⟩ := hmade (by decide)
  have hcount : s.samples.length = 4796 := Int.ofNat_inj.1 hlength
  refine ⟨s, hs, hchannels, hcount, ?_, ?_⟩
  · rw [List.getElem?_eq_getElem (by omega), hsamples 53]
    rfl
  · rw [List.getElem?_eq_getElem (by omega), hsamples 54]
    rfl

/-- A beep of a thousand billion seconds is not made: there is no room for it, though its
    period and the number of its samples can be told. -/
theorem not_make_long :
    period 44100 (.whole 440) = .ok 100 ∧ budget 44100 (.real 1e12) = .ok 44100000000000000 ∧
      ¬ ∃ s, make .standard (some ⟨44100, -16, 1⟩) ⟨.whole 440, .real 1e12, .real 0.1⟩ = .ok s := by
  refine ⟨rfl, rfl, ?_⟩
  have hmake : make .standard (some ⟨44100, -16, 1⟩) ⟨.whole 440, .real 1e12, .real 0.1⟩ =
      .error (.noRoom .memory) := rfl
  rintro ⟨s, hs⟩
  cases hmake.symm.trans hs

end Chip8.Beep
