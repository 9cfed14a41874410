import ServiceFramework.Lib.Table
import Mathlib.Data.List.Sort

/-!
# The entries of a table in the order of their keys

A loop over an ordered map visits its entries in ascending order of their keys: `ascending` is the
list of what it visits. It has each entry once (`mem_ascending`, `nodup_ascending_keys`), so the
part of it under one key is what `find` answers (`filter_ascending`).
-/

namespace Table

variable {κ P : Type*} [DecidableEq κ] [LE κ] [DecidableLE κ]

/-- The entries in ascending order of their keys. -/
def ascending (t : Table κ P) : List (κ × P) :=
  (t.keys.insertionSort (· ≤ ·)).filterMap fun k => (t.find k).map fun p => (k, p)

theorem mem_ascending {t : Table κ P} {k : κ} {p : P} : (k, p) ∈ t.ascending ↔ t.find k = some p := by
  simp only [ascending, List.mem_filterMap, List.mem_insertionSort, Option.map_eq_some_iff,
    Prod.mk.injEq]
  constructor
  · rintro ⟨k', -, p', h, rfl, rfl⟩
    exact h
  · intro h
    exact ⟨k, mem_iff.2 ⟨p, h⟩, p, h, rfl, rfl⟩

/-- Every key is visited. -/
theorem ascending_keys (t : Table κ P) :
    t.ascending.map Prod.fst = t.keys.insertionSort (· ≤ ·) := by
  have hall : ∀ l : List κ, (∀ k ∈ l, k ∈ t) →
      (l.filterMap fun k => (t.find k).map fun p => (k, p)).map Prod.fst = l := by
    intro l
    induction l with
    | nil => exact fun _ => rfl
    | cons k l ih =>
      intro hl
      obtain ⟨p, hp⟩ := mem_iff.1 (hl k List.mem_cons_self)
      simp [hp, ih fun k' hk' => hl k' (List.mem_cons_of_mem k hk')]
  exact hall _ fun k hk => (List.mem_insertionSort _).1 hk

theorem nodup_ascending_keys (t : Table κ P) : (t.ascending.map Prod.fst).Nodup := by
  rw [ascending_keys]
  exact (List.perm_insertionSort _ _).nodup_iff.2 t.keys_nodup

/-- What is visited under one key is what the table has there. -/
theorem filter_ascending (t : Table κ P) (k : κ) :
    (t.ascending.filter fun x => x.1 = k) = (t.find k).toList.map fun p => (k, p) := by
  have hnodup : (t.ascending.filter fun x => x.1 = k).Nodup :=
    (List.Nodup.of_map _ t.nodup_ascending_keys).filter _
  have hmem : ∀ x, x ∈ (t.ascending.filter fun x => x.1 = k) ↔
      x ∈ (t.find k).toList.map fun p => (k, p) := by
    rintro ⟨k', p⟩
    simp only [List.mem_filter, decide_eq_true_eq, List.mem_map, Option.mem_toList, Prod.mk.injEq,
      mem_ascending]
    constructor
    · rintro ⟨h, rfl⟩
      exact ⟨p, h, rfl, rfl⟩
    · rintro ⟨p', h, rfl, rfl⟩
      exact ⟨h, rfl⟩
  cases hfind : t.find k with
  | none =>
    refine List.eq_nil_iff_forall_not_mem.2 fun x hx => ?_
    have hx := (hmem x).1 hx
    simp [hfind] at hx
  | some p =>
    refine List.perm_singleton.1 ((List.perm_ext_iff_of_nodup hnodup (List.nodup_singleton _)).2 ?_)
    intro x
    rw [hmem, hfind]
    rfl

end Table
