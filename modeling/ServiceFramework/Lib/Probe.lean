import ServiceFramework.Lib.Table
import Mathlib.Data.List.Perm.Subperm
import Mathlib.Data.Nat.Find
import Mathlib.Tactic.Common

/-!
# Probing for a free key

`probe` is the loop "advance a counter until the key it yields is not taken". It returns as soon
as the counter yields a free key (`probe_eq_some_of`), so it returns within `n` rounds whenever
the first `n` keys are distinct and fewer than `n` keys are taken (`probe_total`). `wrapKey` is
the key sequence of the counter "add one modulo `N`, and add one more after a zero".
-/

namespace Probe

variable {κ σ : Type*}

section Loop

variable (next : σ → κ × σ) (taken : κ → Bool)

/-- Advance the counter until the key it yields is not taken; `none` when the fuel ends first. -/
def probe : ℕ → σ → Option (κ × σ)
  | 0, _ => none
  | n + 1, s => if taken (next s).1 then probe n (next s).2 else some (next s)

/-- The counter after `i` rounds. -/
def counterAt (s : σ) : ℕ → σ
  | 0 => s
  | i + 1 => (next (counterAt s i)).2

/-- The key tried in round `i`, counted from zero. -/
def keyAt (s : σ) (i : ℕ) : κ := (next (counterAt next s i)).1

theorem counterAt_next (s : σ) (i : ℕ) :
    counterAt next (next s).2 i = counterAt next s (i + 1) := by
  induction i with
  | zero => rfl
  | succ i ih => simp only [counterAt, ih]

theorem keyAt_next (s : σ) (i : ℕ) : keyAt next (next s).2 i = keyAt next s (i + 1) := by
  simp only [keyAt, counterAt_next]

variable {next taken} in
/-- The loop returns the key of the first round whose key is free. -/
theorem probe_first {n : ℕ} {s : σ} {r : κ × σ} (h : probe next taken n s = some r) :
    ∃ i, i < n ∧ r = next (counterAt next s i) ∧ taken (keyAt next s i) = false ∧
      ∀ j, j < i → taken (keyAt next s j) = true := by
  induction n generalizing s with
  | zero => cases h
  | succ n ih =>
    unfold probe at h
    split at h
    · next htaken =>
      obtain ⟨i, hi, rfl, hfree, hbefore⟩ := ih h
      rw [keyAt_next] at hfree
      refine ⟨i + 1, by omega, by rw [counterAt_next], hfree, ?_⟩
      intro j hj
      cases j with
      | zero => exact htaken
      | succ j =>
        rw [← keyAt_next]
        exact hbefore j (by omega)
    · next hfree =>
      cases h
      have h0 : taken (keyAt next s 0) = false := eq_false_of_ne_true hfree
      exact ⟨0, by omega, rfl, h0, fun j hj => absurd hj (Nat.not_lt_zero j)⟩

variable {next taken} in
/-- The loop only returns free keys, and it returns the key of some round. -/
theorem probe_sound {n : ℕ} {s : σ} {r : κ × σ} (h : probe next taken n s = some r) :
    taken r.1 = false ∧ ∃ i, i < n ∧ r = next (counterAt next s i) := by
  obtain ⟨i, hi, rfl, hfree, -⟩ := probe_first h
  exact ⟨hfree, i, hi, rfl⟩

/-- The loop returns in the first round whose key is free. -/
theorem probe_eq_some_of {n i : ℕ} {s : σ} (hi : i < n) (hfree : taken (keyAt next s i) = false)
    (hbefore : ∀ j, j < i → taken (keyAt next s j) = true) :
    probe next taken n s = some (next (counterAt next s i)) := by
  induction n generalizing s i with
  | zero => omega
  | succ n ih =>
    unfold probe
    cases i with
    | zero =>
      have h0 : taken (next s).1 = false := hfree
      simp [h0, counterAt]
    | succ i =>
      have h0 : taken (next s).1 = true := hbefore 0 (by omega)
      rw [if_pos h0, ih (by omega : i < n)]
      · rw [counterAt_next]
      · rw [keyAt_next]
        exact hfree
      · intro j hj
        rw [keyAt_next]
        exact hbefore (j + 1) (by omega)

/-- More fuel does not change what the loop returns. -/
theorem probe_mono {n m : ℕ} {s : σ} {r : κ × σ} (hnm : n ≤ m)
    (h : probe next taken n s = some r) : probe next taken m s = some r := by
  obtain ⟨i, hi, rfl, hfree, hbefore⟩ := probe_first h
  exact probe_eq_some_of next taken (by omega) hfree hbefore

/-- If some round below `n` has a free key, the loop returns within `n` rounds. -/
theorem probe_of_free {m n : ℕ} {s : σ} (hmn : n ≤ m)
    (h : ∃ i, i < n ∧ taken (keyAt next s i) = false) :
    ∃ i, i < n ∧ taken (keyAt next s i) = false ∧
      probe next taken m s = some (next (counterAt next s i)) := by
  classical
  obtain ⟨hlt, hfree⟩ := Nat.find_spec h
  refine ⟨Nat.find h, hlt, hfree, probe_eq_some_of next taken (by omega) hfree ?_⟩
  intro j hj
  have hmin := Nat.find_min h hj
  by_contra hj'
  exact hmin ⟨by omega, by simpa using hj'⟩

end Loop

/-- Among `n` distinct keys one is outside any list of fewer than `n` keys. -/
theorem exists_key_notMem {key : ℕ → κ} {n : ℕ} {L : List κ}
    (hinj : ∀ i j, i < n → j < n → key i = key j → i = j) (hlen : L.length < n) :
    ∃ i, i < n ∧ key i ∉ L := by
  by_contra hall
  have hmem : ∀ i, i < n → key i ∈ L := fun i hi => by
    by_contra hi'
    exact hall ⟨i, hi, hi'⟩
  have hnodup : ((List.range n).map key).Nodup := by
    apply List.nodup_range.map_on
    intro i hi j hj hij
    exact hinj i j (List.mem_range.1 hi) (List.mem_range.1 hj) hij
  have hsub : (List.range n).map key ⊆ L := by
    intro k hk
    obtain ⟨i, hi, rfl⟩ := List.mem_map.1 hk
    exact hmem i (List.mem_range.1 hi)
  have hle := (hnodup.subperm hsub).length_le
  simp only [List.length_map, List.length_range] at hle
  omega

/-- The loop over a table returns within `n` rounds when the first `n` keys are distinct and the
table has fewer than `n` entries. -/
theorem probe_total [DecidableEq κ] {P : Type*} {next : σ → κ × σ} {t : Table κ P} {m n : ℕ} {s : σ}
    (hmn : n ≤ m)
    (hinj : ∀ i j, i < n → j < n → keyAt next s i = keyAt next s j → i = j)
    (hsize : t.size < n) :
    ∃ i, i < n ∧ keyAt next s i ∉ t ∧
      probe next (fun k => decide (k ∈ t)) m s = some (next (counterAt next s i)) := by
  obtain ⟨i, hi, hfree⟩ := exists_key_notMem hinj hsize
  have hfree' : decide (keyAt next s i ∈ t) = false := by
    simpa [AList.mem_keys] using hfree
  obtain ⟨j, hj, hj', hp⟩ := probe_of_free next (fun k => decide (k ∈ t)) hmn ⟨i, hi, hfree'⟩
  exact ⟨j, hj, by simpa using hj', hp⟩

/-! ## The wrapping counter that steps over the key after zero -/

/-- The key of round `i` of a counter at `v` that adds one modulo `N` and, having reached zero,
adds one more without using the key it lands on. -/
def wrapKey (N v i : ℕ) : ℕ :=
  if v + 1 + i < N then v + 1 + i else if v + 1 + i = N then 0 else v + 2 + i - N

/-- The counter of that sequence after round `i`. -/
def wrapCounter (N v i : ℕ) : ℕ :=
  if v + 1 + i < N then v + 1 + i else v + 2 + i - N

theorem wrapKey_inj {N v i j : ℕ} (hi : i < N - 1) (hj : j < N - 1) (hv : v < N)
    (h : wrapKey N v i = wrapKey N v j) : i = j := by
  unfold wrapKey at h
  split at h <;> split at h <;> try split at h
  all_goals try split at h
  all_goals omega

end Probe
