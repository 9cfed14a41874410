import Mathlib.Data.List.Basic
import Mathlib.Tactic.Common

/-!
# Registers of one's own

A history of reads and writes by several owners. It is consistent if every read gives what its owner
last wrote, as though each owner had a register of its own (`Consistent`). Two rules build such a
history: a write keeps it consistent, and so does a read of what its owner last wrote.
-/

namespace Register

variable {F V : Type*}

/-- An access of a register. -/
inductive Access (V : Type*) where
  | write (value : V)
  | read (value : V)
  deriving DecidableEq

variable {history : List (F × Access V)}

/-- A read in a history with one more access is the last access or was in it before. -/
theorem eq_concat_cases {access : F × Access V} {before : List (F × Access V)} {owner : F} {v : V}
    {after : List (F × Access V)} (h : history ++ [access] = before ++ (owner, .read v) :: after) :
    history = before ∧ access = (owner, .read v) ∨
      ∃ after', history = before ++ (owner, .read v) :: after' := by
  rcases List.eq_nil_or_concat after with rfl | ⟨after', last, rfl⟩
  · exact .inl (by simpa using List.append_inj' h rfl)
  · refine .inr ⟨after', ?_⟩
    rw [List.concat_eq_append, ← List.cons_append, ← List.append_assoc] at h
    exact (List.append_inj' h rfl).1

section LastWrite

variable [DecidableEq F]

/-- What the owner last wrote in the history, whose latest access is its last. -/
def lastWrite (history : List (F × Access V)) (owner : F) : Option V :=
  history.foldl (fun value access =>
    match access with
    | (other, .write v) => if owner = other then some v else value
    | (_, .read _) => value) none

theorem lastWrite_write (history : List (F × Access V)) (owner other : F) (v : V) :
    lastWrite (history ++ [(other, .write v)]) owner =
      if owner = other then some v else lastWrite history owner := by
  rw [lastWrite, List.foldl_append]
  rfl

theorem lastWrite_read (history : List (F × Access V)) (owner other : F) (v : V) :
    lastWrite (history ++ [(other, .read v)]) owner = lastWrite history owner := by
  rw [lastWrite, List.foldl_append]
  rfl

/-- Every read gives what its owner last wrote. -/
def Consistent (history : List (F × Access V)) : Prop :=
  ∀ before owner v after, history = before ++ (owner, .read v) :: after →
    lastWrite before owner = some v

theorem consistent_nil : Consistent ([] : List (F × Access V)) := by
  intro before owner v after h
  cases before <;> cases h

theorem Consistent.write (h : Consistent history) (owner : F) (v : V) :
    Consistent (history ++ [(owner, .write v)]) := by
  intro before other u after heq
  rcases eq_concat_cases heq with ⟨-, hlast⟩ | ⟨after', hbefore⟩
  · cases hlast
  · exact h before other u after' hbefore

theorem Consistent.read (h : Consistent history) {owner : F} {v : V}
    (hv : lastWrite history owner = some v) : Consistent (history ++ [(owner, .read v)]) := by
  intro before other u after heq
  rcases eq_concat_cases heq with ⟨rfl, hlast⟩ | ⟨after', hbefore⟩
  · cases hlast
    exact hv
  · exact h before other u after' hbefore

end LastWrite

end Register
