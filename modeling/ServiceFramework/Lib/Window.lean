import ServiceFramework.Lib.Table

/-!
# Tables whose keys are recycled

Entries are numbered from zero in the order they are added, and entry `n` is stored under `key n`.
The keys repeat, so an entry under a repeated key would be lost. As long as every entry is removed
before `span` further ones are added, and keys are distinct over any `span` numbers in a row
(`Spaced`), none is lost: the table holds exactly the live entries, each under its own key
(`Holds`).
-/

namespace Window

variable {κ P : Type*} [DecidableEq κ]

/-- Numbers less than `span` apart have different keys. -/
def Spaced (key : ℕ → κ) (span : ℕ) : Prop := ∀ m n, m < n → n < m + span → key m ≠ key n

/-- The table after `count` additions, with the numbers and values of the live entries. -/
structure Holds (key : ℕ → κ) (span : ℕ) (t : Table κ P) (count : ℕ) (live : List (ℕ × P)) :
    Prop where
  find_iff : ∀ k p, t.find k = some p ↔ ∃ n, (n, p) ∈ live ∧ key n = k
  lt_count : ∀ x ∈ live, x.1 < count
  count_le : ∀ x ∈ live, count ≤ x.1 + span

variable {key : ℕ → κ} {span : ℕ} {t : Table κ P} {count : ℕ} {live : List (ℕ × P)}

theorem holds_empty (count : ℕ) : Holds key span (∅ : Table κ P) count [] where
  find_iff k p := by simp [Table.find_empty]
  lt_count x hx := absurd hx List.not_mem_nil
  count_le x hx := absurd hx List.not_mem_nil

/-- Live entries with one key have one number. -/
theorem Holds.number_inj (h : Holds key span t count live) (hkey : Spaced key span)
    {x y : ℕ × P} (hx : x ∈ live) (hy : y ∈ live) (he : key x.1 = key y.1) : x.1 = y.1 := by
  have hxc := h.lt_count x hx
  have hyc := h.lt_count y hy
  have hxs := h.count_le x hx
  have hys := h.count_le y hy
  rcases Nat.lt_trichotomy x.1 y.1 with hlt | heq | hgt
  · exact absurd he (hkey _ _ hlt (by omega))
  · exact heq
  · exact absurd he.symm (hkey _ _ hgt (by omega))

/-- The key of the next entry is free when no live entry is `span` additions old. -/
theorem Holds.next_free (h : Holds key span t count live) (hkey : Spaced key span)
    (hage : ∀ x ∈ live, count < x.1 + span) : key count ∉ t := by
  intro hmem
  obtain ⟨p, hp⟩ := Table.mem_iff.1 hmem
  obtain ⟨n, hn, he⟩ := (h.find_iff _ p).1 hp
  exact hkey n count (h.lt_count _ hn) (hage _ hn) he

theorem Holds.insert (h : Holds key span t count live) (hkey : Spaced key span)
    (hspan : 0 < span) (hage : ∀ x ∈ live, count < x.1 + span) (p : P) :
    Holds key span (t.insert (key count) p) (count + 1) ((count, p) :: live) where
  find_iff k q := by
    rw [Table.find_insert]
    split
    · next hk =>
      constructor
      · intro hq
        cases hq
        exact ⟨count, List.mem_cons_self, hk.symm⟩
      · rintro ⟨n, hn, he⟩
        rcases List.mem_cons.1 hn with hn | hn
        · rw [(Prod.mk.inj hn).2]
        · have hfree := h.next_free hkey hage
          exact absurd (Table.mem_iff.2 ⟨q, (h.find_iff _ q).2 ⟨n, hn, he.trans hk⟩⟩) hfree
    · next hk =>
      rw [h.find_iff]
      constructor
      · rintro ⟨n, hn, he⟩
        exact ⟨n, List.mem_cons_of_mem _ hn, he⟩
      · rintro ⟨n, hn, he⟩
        rcases List.mem_cons.1 hn with hn | hn
        · rw [(Prod.mk.inj hn).1] at he
          exact absurd he.symm hk
        · exact ⟨n, hn, he⟩
  lt_count x hx := by
    rcases List.mem_cons.1 hx with rfl | hx
    · exact Nat.lt_succ_self _
    · exact Nat.lt_succ_of_lt (h.lt_count x hx)
  count_le x hx := by
    rcases List.mem_cons.1 hx with rfl | hx
    · exact Nat.add_le_add_left hspan _
    · exact hage x hx

/-- Erasing a key removes the live entry stored under it, if there is one, and no other. -/
theorem Holds.erase (h : Holds key span t count live) (k : κ) :
    Holds key span (t.erase k) count (live.filter fun x => key x.1 ≠ k) where
  find_iff k' p := by
    rw [Table.find_erase]
    split
    · next hk =>
      subst hk
      simp
    · next hk =>
      rw [h.find_iff]
      constructor
      · rintro ⟨n, hn, he⟩
        exact ⟨n, List.mem_filter.2 ⟨hn, by simpa [he] using hk⟩, he⟩
      · rintro ⟨n, hn, he⟩
        exact ⟨n, (List.mem_filter.1 hn).1, he⟩
  lt_count x hx := h.lt_count x (List.mem_filter.1 hx).1
  count_le x hx := h.count_le x (List.mem_filter.1 hx).1

/-! ## A ring of keys -/

/-- The keys `1, 2, …, span, 1, 2, …`. -/
def ringKey (span n : ℕ) : ℕ := n % span + 1

theorem ringKey_le {span : ℕ} (hspan : 0 < span) (n : ℕ) : ringKey span n ≤ span :=
  Nat.mod_lt n hspan

/-- The next key is one more, or 1 after `span`. -/
theorem ringKey_succ {span : ℕ} (hspan : 0 < span) (n : ℕ) :
    ringKey span (n + 1) = if ringKey span n = span then 1 else ringKey span n + 1 := by
  have hlt := Nat.mod_lt n hspan
  unfold ringKey
  split
  · next h =>
    have hmul : n + 1 = span * (n / span + 1) := by
      have hn := Nat.mod_add_div n span
      rw [Nat.mul_add, Nat.mul_one]
      omega
    rw [hmul, Nat.mul_mod_right]
  · next h =>
    rw [Nat.add_mod, Nat.mod_eq_of_lt (by omega : 1 < span), Nat.mod_eq_of_lt (by omega)]

theorem spaced_ringKey (span : ℕ) : Spaced (ringKey span) span := by
  intro m n hmn hn he
  have hmod : m % span = n % span := Nat.succ.inj he
  have hdvd := Nat.dvd_of_mod_eq_zero (Nat.sub_mod_eq_zero_of_mod_eq hmod.symm)
  have hle := Nat.le_of_dvd (by omega) hdvd
  omega

end Window
