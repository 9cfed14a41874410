import ServiceFramework.Lib.Table
import Mathlib.Data.Finset.Basic

/-!
# Tables of sets

A table whose values are finite sets, read as a relation between keys and elements: `members` is
the set under a key, empty for a key that is not there. `add` makes the set of a new key, `remove`
leaves an empty set behind; through `members` both are what they should be (`mem_members_add`,
`mem_members_remove`).
-/

namespace Table

variable {κ α : Type*} [DecidableEq κ]

/-- The elements under a key. -/
def members (t : Table κ (Finset α)) (k : κ) : Finset α :=
  match t.find k with
  | none => ∅
  | some s => s

theorem members_empty (k : κ) : (∅ : Table κ (Finset α)).members k = ∅ := by
  unfold members
  rw [find_empty]

theorem members_insert (t : Table κ (Finset α)) (k : κ) (s : Finset α) (k' : κ) :
    members (t.insert k s) k' = if k' = k then s else t.members k' := by
  unfold members
  rw [find_insert]
  by_cases h : k' = k
  · rw [if_pos h, if_pos h]
  · rw [if_neg h, if_neg h]

variable [DecidableEq α]

/-- Put an element under a key. -/
def add (t : Table κ (Finset α)) (k : κ) (a : α) : Table κ (Finset α) :=
  match t.find k with
  | none => t.insert k {a}
  | some s => t.insert k (insert a s)

/-- Take an element from under a key. -/
def remove (t : Table κ (Finset α)) (k : κ) (a : α) : Table κ (Finset α) :=
  match t.find k with
  | none => t
  | some s => t.insert k (s.erase a)

theorem members_add (t : Table κ (Finset α)) (k : κ) (a : α) (k' : κ) :
    (t.add k a).members k' = if k' = k then insert a (t.members k) else t.members k' := by
  unfold add
  split
  · next h =>
    have hk : t.members k = ∅ := by
      unfold members
      rw [h]
    rw [members_insert, hk]
    rfl
  · next s h =>
    have hk : t.members k = s := by
      unfold members
      rw [h]
    rw [members_insert, hk]

theorem members_remove (t : Table κ (Finset α)) (k : κ) (a : α) (k' : κ) :
    (t.remove k a).members k' = if k' = k then (t.members k).erase a else t.members k' := by
  unfold remove
  split
  · next h =>
    have hk : t.members k = ∅ := by
      unfold members
      rw [h]
    by_cases he : k' = k
    · rw [if_pos he, he, hk, Finset.erase_empty]
    · rw [if_neg he]
  · next s h =>
    have hk : t.members k = s := by
      unfold members
      rw [h]
    rw [members_insert, hk]

theorem mem_members_add {t : Table κ (Finset α)} {k k' : κ} {a a' : α} :
    a' ∈ (t.add k a).members k' ↔ k' = k ∧ a' = a ∨ a' ∈ t.members k' := by
  rw [members_add]
  by_cases h : k' = k
  · subst h
    simp
  · simp [h]

theorem mem_members_remove {t : Table κ (Finset α)} {k k' : κ} {a a' : α} :
    a' ∈ (t.remove k a).members k' ↔ a' ∈ t.members k' ∧ ¬(k' = k ∧ a' = a) := by
  rw [members_remove]
  by_cases h : k' = k
  · subst h
    simp [and_comm]
  · simp [h]

end Table
