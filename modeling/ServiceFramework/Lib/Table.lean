import Mathlib.Data.List.AList
import Mathlib.Tactic.Common

/-!
# Finite tables

A finite map from keys to values of one type, Mathlib's `AList` read through `find`. The two
rewriting rules `find_insert` and `find_erase` and the size rules are all that proofs about
tables use.
-/

/-- A finite map from `κ` to `P`. -/
abbrev Table (κ P : Type*) := AList fun _ : κ => P

namespace Table

variable {κ P : Type*} [DecidableEq κ]

/-- The value under a key. -/
def find (t : Table κ P) (k : κ) : Option P := t.lookup k

/-- The number of entries. -/
def size (t : Table κ P) : ℕ := t.keys.length

/-- Insertion that leaves a key that is there as it is. -/
def insertNew (t : Table κ P) (k : κ) (p : P) : Table κ P := if k ∈ t then t else t.insert k p

theorem find_empty (k : κ) : (∅ : Table κ P).find k = none := AList.lookup_empty k

theorem find_insert (t : Table κ P) (k : κ) (p : P) (k' : κ) :
    find (t.insert k p) k' = if k' = k then some p else t.find k' := by
  by_cases h : k' = k
  · subst h
    rw [if_pos rfl]
    exact AList.lookup_insert t
  · rw [if_neg h]
    exact AList.lookup_insert_ne h

theorem find_erase (t : Table κ P) (k k' : κ) :
    find (t.erase k) k' = if k' = k then none else t.find k' := by
  by_cases h : k' = k
  · subst h
    rw [if_pos rfl]
    exact AList.lookup_erase k' t
  · rw [if_neg h]
    exact AList.lookup_erase_ne h

theorem mem_iff {t : Table κ P} {k : κ} : k ∈ t ↔ ∃ p, t.find k = some p := by
  rw [← AList.lookup_isSome, Option.isSome_iff_exists]
  rfl

theorem find_eq_none {t : Table κ P} {k : κ} : t.find k = none ↔ k ∉ t := AList.lookup_eq_none

/-- Erasing a key that is not there changes nothing. -/
theorem erase_of_notMem {t : Table κ P} {k : κ} (h : k ∉ t) : t.erase k = t :=
  AList.ext (List.kerase_of_notMem_keys h)

theorem insertNew_of_notMem {t : Table κ P} {k : κ} (h : k ∉ t) (p : P) :
    t.insertNew k p = t.insert k p :=
  if_neg h

theorem size_insert_of_notMem {t : Table κ P} {k : κ} (h : k ∉ t) (p : P) :
    size (t.insert k p) = t.size + 1 := by
  have hk : k ∉ t.keys := h
  simp [size, List.erase_of_not_mem hk]

theorem size_insert_of_mem {t : Table κ P} {k : κ} (h : k ∈ t) (p : P) :
    size (t.insert k p) = t.size := by
  have hk : k ∈ t.keys := h
  have hpos : 0 < t.keys.length := List.length_pos_of_mem hk
  simp only [size, AList.keys_insert, List.length_cons, List.length_erase_of_mem hk]
  omega

theorem size_insertNew_le (t : Table κ P) (k : κ) (p : P) : (t.insertNew k p).size ≤ t.size + 1 := by
  by_cases h : k ∈ t
  · rw [insertNew, if_pos h]
    exact Nat.le_succ _
  · rw [insertNew_of_notMem h, size_insert_of_notMem h]

theorem size_erase_of_mem {t : Table κ P} {k : κ} (h : k ∈ t) :
    size (t.erase k) + 1 = t.size := by
  have hk : k ∈ t.keys := h
  have hpos : 0 < t.keys.length := List.length_pos_of_mem hk
  simp only [size, AList.keys_erase, List.length_erase_of_mem hk]
  omega

theorem size_erase_le (t : Table κ P) (k : κ) : size (t.erase k) ≤ t.size := by
  simp only [size, AList.keys_erase]
  exact List.length_erase_le

end Table
