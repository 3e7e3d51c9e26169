import Chip8.Keypad
import Mathlib.Data.Fintype.Card
import Mathlib.Data.List.Induction
import Mathlib.Order.WellFounded

/-!
# Histories of a keypad

A keypad is made from a map that has a host code for each of the sixteen keys
(`ofMap_eq_error_iff`). From then on its keys are refreshed from a provider, which is a
function, a sequence or a mapping, are let go, and are asked for, in any order
(`Keypad.Request`).

A refresh looks the keys up one after the other and takes over all sixteen states or
none: if a lookup fails, the first that does is what the refresh fails with
(`refresh_of_ok`, `refresh_of_error`). So after any history the keys are those of the last
request that set them (`Keypad.Latest`, `states_history`).
-/

namespace Chip8.Keypad

/-! ### Lookups one after the other -/

section

variable {α β ε : Type} {n : Nat}

theorem mapM_eq_pure {μ : Type → Type} [Monad μ] [LawfulMonad μ] {f : α → μ β} {xs : Vector α n}
    {g : Fin n → β} (h : ∀ i, f (xs.get i) = pure (g i)) : xs.mapM f = pure (.ofFn g) := by
  have hxs : xs = (Vector.ofFn id).map xs.get := by
    ext i hi
    simp [Vector.get]
  have hf : f ∘ xs.get = fun i => pure (g i) := funext h
  rw [hxs, Vector.mapM_map, hf, Vector.mapM_pure, Vector.map_ofFn, Function.comp_id]

theorem toList_mapM {μ : Type → Type} [Monad μ] [LawfulMonad μ] (f : α → μ β) (xs : Vector α n) :
    Vector.toList <$> xs.mapM f = xs.toList.mapM f := by
  have h : (Vector.toList : Vector β n → List β) = Array.toList ∘ Vector.toArray := rfl
  rw [h, comp_map, Vector.toArray_mapM, Array.toList_mapM]
  rfl

theorem mapM_append_eq_error {f : α → Except ε β} {l l' : List α} {a : α} {e : ε}
    (hl : ∀ b ∈ l, ∃ c, f b = .ok c) (ha : f a = .error e) :
    (l ++ a :: l').mapM f = .error e := by
  induction l with
  | nil =>
    rw [List.nil_append, List.mapM_cons, ha]
    rfl
  | cons b l ih =>
    rw [List.forall_mem_cons] at hl
    obtain ⟨⟨c, hc⟩, hl⟩ := hl
    rw [List.cons_append, List.mapM_cons, hc, ih hl]
    rfl

/-- The first lookup that fails is what all of them together fail with. -/
theorem mapM_eq_error {f : α → Except ε β} {xs : Vector α n} {i : Fin n} {e : ε}
    (hi : f (xs.get i) = .error e) (hlt : ∀ j < i, ∃ b, f (xs.get j) = .ok b) :
    xs.mapM f = .error e := by
  have hlen : i.val < xs.toList.length := by
    rw [Vector.length_toList]
    exact i.isLt
  have hsplit : xs.toList = xs.toList.take i ++ xs.get i :: xs.toList.drop (i + 1) := by
    have hdrop : xs.toList.drop i = xs.get i :: xs.toList.drop (i + 1) :=
      List.drop_eq_getElem_cons hlen
    rw [← hdrop, List.take_append_drop]
  have hlist : xs.toList.mapM f = .error e := by
    rw [hsplit]
    refine mapM_append_eq_error (fun b hb => ?_) hi
    obtain ⟨j, hj, rfl⟩ := List.mem_take_iff_getElem.1 hb
    have hji : j < i := Nat.lt_of_lt_of_le hj (Nat.min_le_left _ _)
    exact hlt ⟨j, Nat.lt_trans hji i.isLt⟩ hji
  rw [← toList_mapM] at hlist
  cases hm : xs.mapM f with
  | error e' =>
    rw [hm] at hlist
    cases hlist
    rfl
  | ok bs =>
    rw [hm] at hlist
    cases hlist

theorem isSome_of_mapM {f : α → Option β} {l : List α} {bs : List β} (h : l.mapM f = some bs) :
    ∀ a ∈ l, (f a).isSome := by
  induction l generalizing bs with
  | nil => simp
  | cons a l ih =>
    rw [List.mapM_cons] at h
    obtain ⟨b, hb, h⟩ := Option.bind_eq_some_iff.1 h
    obtain ⟨bs, hbs, -⟩ := Option.bind_eq_some_iff.1 h
    intro c hc
    rcases List.mem_cons.1 hc with rfl | hc
    · exact Option.isSome_of_eq_some hb
    · exact ih hbs c hc

end

/-! ### Construction -/

variable {map : Fin 16 → Option HostCode} {k : Keypad}

/-- A map that has a code for every key gives a keypad with these codes. -/
theorem ofMap_of_complete (code : Fin 16 → HostCode) :
    ofMap (fun key => some (code key)) = .ok (ofCodes (.ofFn code)) := by
  have h : (Vector.ofFn fun key => some (code key)).mapM id = some (.ofFn code) :=
    mapM_eq_pure fun key => Vector.getElem_ofFn key.isLt
  rw [ofMap, h]

/-- A map without a code for some key gives none. The keys without a code are named. -/
theorem ofMap_of_incomplete {key : Fin 16} (h : map key = none) :
    ofMap map = .error ((List.finRange 16).filter fun key => (map key).isNone) := by
  have hnone : (Vector.ofFn map).mapM id = none := by
    cases hc : (Vector.ofFn map).mapM id with
    | none => rfl
    | some codes =>
      have hl := (toList_mapM id (Vector.ofFn map)).symm
      rw [hc] at hl
      have hmem : map key ∈ (Vector.ofFn map).toList := by
        rw [Vector.mem_toList_iff, Vector.mem_ofFn]
        exact ⟨key, rfl⟩
      have hsome := isSome_of_mapM hl (map key) hmem
      rw [id, h] at hsome
      cases hsome
  rw [ofMap, hnone]

theorem exists_code (h : ¬ ∃ key, map key = none) :
    ∃ code : Fin 16 → HostCode, map = fun key => some (code key) := by
  push Not at h
  choose code hcode using fun key => Option.ne_none_iff_exists'.1 (h key)
  exact ⟨code, funext hcode⟩

theorem ofMap_eq_error_iff {missing : List (Fin 16)} :
    ofMap map = .error missing ↔ (∃ key, map key = none) ∧
      missing = (List.finRange 16).filter fun key => (map key).isNone := by
  by_cases h : ∃ key, map key = none
  · obtain ⟨key, hkey⟩ := h
    rw [ofMap_of_incomplete hkey, Except.error.injEq, eq_comm]
    exact (and_iff_right ⟨key, hkey⟩).symm
  · obtain ⟨code, rfl⟩ := exists_code h
    rw [ofMap_of_complete]
    exact ⟨nofun, fun he => absurd he.1 h⟩

/-- A new keypad has the codes of the map, and no key is down. -/
theorem ofMap_eq_ok (h : ofMap map = .ok k) :
    (∀ key, map key = some (k.codes.get key)) ∧ k.states = .replicate 16 false := by
  by_cases hnone : ∃ key, map key = none
  · obtain ⟨key, hkey⟩ := hnone
    rw [ofMap_of_incomplete hkey] at h
    cases h
  · obtain ⟨code, rfl⟩ := exists_code hnone
    rw [ofMap_of_complete] at h
    obtain rfl := Except.ok.inj h
    exact ⟨fun key => congrArg some (Vector.getElem_ofFn key.isLt).symm, rfl⟩

/-! ### Requests -/

/-- Where a keypad looks its keys up. What is found there is up to the provider; of it
    only whether it counts as true matters. -/
inductive Provider (ε α : Type) where
  /-- A function of host codes, which may fail in a way of its own. -/
  | function (f : HostCode → Except ε α)
  /-- A sequence, in which a code is a position. -/
  | sequence (values : Array α)
  /-- A mapping from codes. -/
  | mapping (values : List (HostCode × α))

/-- A request to a keypad. -/
inductive Request (ε α : Type) where
  /-- Look all keys up in a provider. -/
  | refresh (p : Provider ε α)
  /-- Let all keys go. -/
  | release
  /-- Tell whether a key is down. -/
  | isDown (key : Int)

/-- What a request reports. -/
inductive Reply (ε : Type) where
  /-- The keys have been set. -/
  | done
  /-- A lookup failed: in a sequence or a mapping, or in a function. -/
  | failed (e : LookupError ⊕ ε)
  /-- Whether the key is down. -/
  | down (b : Bool)
  /-- There is no such key. -/
  | outOfRange (key : Int)

variable {ε α : Type} {truth : α → Bool} {p : Provider ε α} {r : Request ε α}
  {rs : List (Request ε α)} {codes : Vector HostCode 16} {states : Vector Bool 16}

/-- What a provider gives for a code. -/
def Provider.lookup : Provider ε α → HostCode → Except (LookupError ⊕ ε) α
  | function f, c => (f c).mapError .inr
  | sequence values, c => (valueAt values c).mapError .inl
  | mapping values, c => (valueOf values c).mapError .inl

/-- The state that a provider gives for a code: whether what it gives counts as true. -/
def Provider.state (truth : α → Bool) (p : Provider ε α) (c : HostCode) :
    Except (LookupError ⊕ ε) Bool :=
  (p.lookup c).map truth

/-- Performs a request; one that fails leaves the keypad as it is. -/
def perform (truth : α → Bool) (k : Keypad) : Request ε α → Reply ε × Keypad
  | .refresh p =>
    match k.refresh (p.state truth) with
    | .ok k => (.done, k)
    | .error e => (.failed e, k)
  | .release => (.done, k.release)
  | .isDown key =>
    match k.isDown? key with
    | some b => (.down b, k)
    | none => (.outOfRange key, k)

/-- The keypad after a list of requests. -/
def after (truth : α → Bool) (k : Keypad) (rs : List (Request ε α)) : Keypad :=
  rs.foldl (fun k r => (k.perform truth r).2) k

theorem after_concat (truth : α → Bool) (k : Keypad) (rs : List (Request ε α))
    (r : Request ε α) : k.after truth (rs ++ [r]) = ((k.after truth rs).perform truth r).2 :=
  List.foldl_append

/-! ### One request -/

/-- If every lookup succeeds, the keys that are down are those for which what has been
    found counts as true. -/
theorem refresh_of_ok {values : Fin 16 → α}
    (h : ∀ key, p.lookup (k.codes.get key) = .ok (values key)) :
    k.refresh (p.state truth) = .ok { k with states := .ofFn fun key => truth (values key) } := by
  have hm : k.codes.mapM (p.state truth) = .ok (.ofFn fun key => truth (values key)) := by
    refine mapM_eq_pure fun key => ?_
    rw [Provider.state, h]
    rfl
  rw [refresh, hm]

/-- If a lookup fails, the first that does is what the refresh fails with. -/
theorem refresh_of_error {key : Fin 16} {e : LookupError ⊕ ε}
    (h : p.lookup (k.codes.get key) = .error e)
    (hlt : ∀ j < key, ∃ v, p.lookup (k.codes.get j) = .ok v) :
    k.refresh (p.state truth) = .error e := by
  have hm : k.codes.mapM (p.state truth) = .error e := by
    refine mapM_eq_error (i := key) ?_ fun j hj => ?_
    · rw [Provider.state, h]
      rfl
    · obtain ⟨v, hv⟩ := hlt j hj
      exact ⟨truth v, by rw [Provider.state, hv]; rfl⟩
  rw [refresh, hm]

/-- Either every lookup succeeds or there is a first that fails. -/
theorem lookups_cases (p : Provider ε α) (codes : Vector HostCode 16) :
    (∃ values : Fin 16 → α, ∀ key, p.lookup (codes.get key) = .ok (values key)) ∨
      ∃ key e, p.lookup (codes.get key) = .error e ∧
        ∀ j < key, ∃ v, p.lookup (codes.get j) = .ok v := by
  by_cases h : ∃ key, ∃ e, p.lookup (codes.get key) = .error e
  · obtain ⟨key, ⟨e, he⟩, hmin⟩ :=
      wellFounded_lt.has_min {key | ∃ e, p.lookup (codes.get key) = .error e} h
    refine .inr ⟨key, e, he, fun j hj => ?_⟩
    cases hv : p.lookup (codes.get j) with
    | ok v => exact ⟨v, rfl⟩
    | error e' => exact absurd hj (hmin j ⟨e', hv⟩)
  · push Not at h
    have hok : ∀ key, ∃ v, p.lookup (codes.get key) = .ok v := by
      intro key
      cases hv : p.lookup (codes.get key) with
      | ok v => exact ⟨v, rfl⟩
      | error e => exact absurd hv (h key e)
    exact .inl ⟨_, fun key => (hok key).choose_spec⟩

theorem isDown?_of_lt (k : Keypad) (key : Fin 16) : k.isDown? key = some (k.states.get key) := by
  rw [isDown?, if_pos (Int.natCast_nonneg _)]
  exact Vector.getElem?_eq_getElem key.isLt

theorem isDown?_of_outside {key : Int} (h : key < 0 ∨ 16 ≤ key) : k.isDown? key = none := by
  rw [isDown?]
  split_ifs with hle
  · rw [Vector.getElem?_eq_none_iff]
    omega
  · rfl

/-- What a request reports, and the keypad that it leaves. -/
inductive Performs (truth : α → Bool) (k : Keypad) : Request ε α → Reply ε × Keypad → Prop
  /-- A refresh sets every key to whether what is found for its code counts as true. -/
  | refreshed {p : Provider ε α} {values : Fin 16 → α}
      (h : ∀ key, p.lookup (k.codes.get key) = .ok (values key)) :
      Performs truth k (.refresh p)
        (.done, { k with states := .ofFn fun key => truth (values key) })
  /-- If lookups fail, the failure of the first of them is reported. -/
  | failed {p : Provider ε α} {key : Fin 16} {e : LookupError ⊕ ε}
      (h : p.lookup (k.codes.get key) = .error e)
      (hlt : ∀ j < key, ∃ v, p.lookup (k.codes.get j) = .ok v) :
      Performs truth k (.refresh p) (.failed e, k)
  | released : Performs truth k .release (.done, { k with states := .replicate 16 false })
  | told (key : Fin 16) : Performs truth k (.isDown key) (.down (k.states.get key), k)
  | refused {key : Int} (h : key < 0 ∨ 16 ≤ key) :
      Performs truth k (.isDown key) (.outOfRange key, k)

theorem performs_perform (truth : α → Bool) (k : Keypad) (r : Request ε α) :
    Performs truth k r (k.perform truth r) := by
  cases r with
  | refresh p =>
    rw [perform]
    rcases lookups_cases p k.codes with ⟨values, hok⟩ | ⟨key, e, he, hlt⟩
    · rw [refresh_of_ok hok]
      exact .refreshed hok
    · rw [refresh_of_error he hlt]
      exact .failed he hlt
  | release => exact .released
  | isDown key =>
    rw [perform]
    by_cases h : key < 0 ∨ 16 ≤ key
    · rw [isDown?_of_outside h]
      exact .refused h
    · obtain ⟨n, rfl⟩ := Int.eq_ofNat_of_zero_le (show 0 ≤ key by omega)
      rw [isDown?_of_lt k ⟨n, by omega⟩]
      exact .told ⟨n, by omega⟩

/-! ### Histories -/

/-- What a request sets the keys to, if it sets them: a refresh without a failing lookup
    and a release do. -/
inductive Sets (truth : α → Bool) (codes : Vector HostCode 16) :
    Request ε α → Vector Bool 16 → Prop
  | refresh {p : Provider ε α} {values : Fin 16 → α}
      (h : ∀ key, p.lookup (codes.get key) = .ok (values key)) :
      Sets truth codes (.refresh p) (.ofFn fun key => truth (values key))
  | release : Sets truth codes .release (.replicate 16 false)

/-- The keys are in the given states after a history: those that the last of the requests
    that set the keys has set them to, and no key is down if none did. -/
def Latest (truth : α → Bool) (codes : Vector HostCode 16) (rs : List (Request ε α))
    (states : Vector Bool 16) : Prop :=
  (∃ before r later, rs = before ++ r :: later ∧ Sets truth codes r states ∧
      ∀ r' ∈ later, ∀ s, ¬ Sets truth codes r' s) ∨
    (∀ r ∈ rs, ∀ s, ¬ Sets truth codes r s) ∧ states = .replicate 16 false

/-- A request either sets the keys or leaves the keypad as it is. -/
theorem Performs.sets_or_eq {result : Reply ε × Keypad} (h : Performs truth k r result) :
    (∃ states, Sets truth k.codes r states ∧ result.2 = { k with states }) ∨
      (∀ states, ¬ Sets truth k.codes r states) ∧ result.2 = k := by
  cases h with
  | refreshed hok => exact .inl ⟨_, .refresh hok, rfl⟩
  | failed he hlt =>
    refine .inr ⟨?_, rfl⟩
    rintro _ ⟨hok⟩
    rw [hok] at he
    cases he
  | released => exact .inl ⟨_, .release, rfl⟩
  | told key => exact .inr ⟨nofun, rfl⟩
  | refused h => exact .inr ⟨nofun, rfl⟩

theorem latest_nil : Latest truth codes ([] : List (Request ε α)) (.replicate 16 false) :=
  .inr ⟨nofun, rfl⟩

theorem Sets.latest (h : Sets truth codes r states) (rs : List (Request ε α)) :
    Latest truth codes (rs ++ [r]) states :=
  .inl ⟨rs, r, [], rfl, h, nofun⟩

theorem Latest.concat (h : Latest truth codes rs states) (hr : ∀ s, ¬ Sets truth codes r s) :
    Latest truth codes (rs ++ [r]) states := by
  rcases h with ⟨before, r', later, rfl, hs, hlater⟩ | ⟨hnone, rfl⟩
  · refine .inl ⟨before, r', later ++ [r], by simp, hs, ?_⟩
    exact List.forall_mem_append.2 ⟨hlater, List.forall_mem_singleton.2 hr⟩
  · exact .inr ⟨List.forall_mem_append.2 ⟨hnone, List.forall_mem_singleton.2 hr⟩, rfl⟩

/-- The codes of a keypad never change, and its keys are in the latest states. -/
theorem after_latest (truth : α → Bool) (h : k.states = .replicate 16 false)
    (rs : List (Request ε α)) :
    (k.after truth rs).codes = k.codes ∧ Latest truth k.codes rs (k.after truth rs).states := by
  induction rs using List.reverseRecOn with
  | nil => exact ⟨rfl, h ▸ latest_nil⟩
  | append_singleton rs r ih =>
    obtain ⟨hcodes, hlatest⟩ := ih
    rw [after_concat]
    rcases (performs_perform truth (k.after truth rs) r).sets_or_eq with
      ⟨states, hs, he⟩ | ⟨hn, he⟩
    · rw [hcodes] at hs
      rw [he]
      exact ⟨hcodes, hs.latest rs⟩
    · rw [hcodes] at hn
      rw [he]
      exact ⟨hcodes, hlatest.concat hn⟩

/-- A map makes a keypad unless it has no code for some key. After any history of requests
    the keys are in the states that the last refresh without a failing lookup, or the last
    release, has set them to, and the next request is performed by the rules: a refresh
    sets all keys, or reports the first failure and changes nothing; asking for a key
    changes nothing, and fails for a number that is no key. -/
theorem states_history (truth : α → Bool) (map : Fin 16 → Option HostCode) :
    (∀ missing, ofMap map = .error missing ↔ (∃ key, map key = none) ∧
        missing = (List.finRange 16).filter fun key => (map key).isNone) ∧
      ∀ k, ofMap map = .ok k → (∀ key, map key = some (k.codes.get key)) ∧
        ∀ rs : List (Request ε α),
          (k.after truth rs).codes = k.codes ∧
            Latest truth k.codes rs (k.after truth rs).states ∧
            ∀ r : Request ε α,
              Performs truth (k.after truth rs) r ((k.after truth rs).perform truth r) := by
  refine ⟨fun _ => ofMap_eq_error_iff, fun k hk => ?_⟩
  obtain ⟨hmap, hstates⟩ := ofMap_eq_ok hk
  refine ⟨hmap, fun rs => ?_⟩
  obtain ⟨hcodes, hlatest⟩ := after_latest truth hstates rs
  exact ⟨hcodes, hlatest, performs_perform truth _⟩

/-- The second sequence is one too short, so it changes no key. -/
example :
    let k := ofCodes (.ofFn fun key => .number (.whole key.val))
    let rs : List (Request Empty Bool) :=
      [.refresh (.sequence (.replicate 16 true)), .refresh (.sequence (.replicate 15 false))]
    (k.after id rs).states = .replicate 16 true := by decide +kernel

end Chip8.Keypad
