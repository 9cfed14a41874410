import Mathlib.Data.Nat.Notation
import Mathlib.Tactic.Common

/-!
# Shared ownership

The control block of a shared pointer: the number of owners, and how many times the object was
destroyed. `Counts` is what holds while every owner gives up its share once: the object is alive as
long as there is an owner, and is destroyed once, by the last of them.
-/

/-- The owners of an object, and how many times it was destroyed. -/
structure SharedCount where
  owners : ℕ := 0
  destroyed : ℕ := 0
  deriving DecidableEq

namespace SharedCount

/-- The first owner of a new object. -/
def make : SharedCount where
  owners := 1

/-- One more owner. -/
def retain (c : SharedCount) : SharedCount := { c with owners := c.owners + 1 }

/-- An owner gives up its share. -/
def release (c : SharedCount) : SharedCount :=
  if c.owners = 1 then
    { owners := 0, destroyed := c.destroyed + 1 }
  else
    { c with owners := c.owners - 1 }

/-- A weak pointer becomes an owner, as long as there is one. -/
def lock (c : SharedCount) : Option SharedCount := if c.owners = 0 then none else some c.retain

/-- The object has `n` owners now. -/
structure Counts (c : SharedCount) (n : ℕ) : Prop where
  owners : c.owners = n
  destroyed : c.destroyed = if n = 0 then 1 else 0

variable {c : SharedCount} {n : ℕ}

theorem counts_make : make.Counts 1 := ⟨rfl, rfl⟩

theorem Counts.retain (hc : c.Counts n) (hn : n ≠ 0) : c.retain.Counts (n + 1) := by
  refine ⟨congrArg (· + 1) hc.owners, ?_⟩
  rw [if_neg (Nat.succ_ne_zero n)]
  exact hc.destroyed.trans (if_neg hn)

theorem Counts.release (hc : c.Counts (n + 1)) : c.release.Counts n := by
  have hdestroyed : c.destroyed = 0 := hc.destroyed.trans (if_neg (Nat.succ_ne_zero n))
  unfold SharedCount.release
  rw [hc.owners]
  split
  · next h =>
    obtain rfl : n = 0 := by omega
    exact ⟨rfl, congrArg (· + 1) hdestroyed⟩
  · next h =>
    have hn : n ≠ 0 := by omega
    exact ⟨rfl, hdestroyed.trans (if_neg hn).symm⟩

theorem Counts.lock_eq (hc : c.Counts n) : c.lock = if n = 0 then none else some c.retain := by
  rw [lock, hc.owners]

/-- The object is destroyed, once, when it has no owner left. -/
theorem Counts.destroyed_iff (hc : c.Counts n) : c.destroyed = 1 ↔ n = 0 := by
  rw [hc.destroyed]
  split <;> simp [*]

end SharedCount
