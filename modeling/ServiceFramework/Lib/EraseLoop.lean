import Mathlib.Data.List.Basic
import Mathlib.Tactic.Common

/-!
# Erasing by restarting the search

The loop that looks for the first element with a property, erases it and starts again from the
beginning until a search finds nothing. It needs one round for each such element and one more
(`eraseLoop_eq_filter`), and it leaves the other elements in their order.
-/

namespace EraseLoop

variable {α : Type*} (p : α → Bool)

/-- Erase the first element with `p` until there is none; `none` when the fuel ends first. -/
def eraseLoop : ℕ → List α → Option (List α)
  | 0, _ => none
  | n + 1, l => if l.any p then eraseLoop n (l.eraseP p) else some l

/-- A round that finds an element leaves one fewer of them. -/
theorem countP_eraseP_of_any {l : List α} (h : l.any p = true) :
    (l.eraseP p).countP p + 1 = l.countP p := by
  induction l with
  | nil => cases h
  | cons a l ih =>
    cases ha : p a with
    | true => simp [ha]
    | false =>
      have hl : l.any p = true := by simpa [ha] using h
      simpa [List.eraseP_cons, ha] using ih hl

theorem filter_eraseP (l : List α) :
    (l.eraseP p).filter (fun a => !p a) = l.filter fun a => !p a := by
  induction l with
  | nil => rfl
  | cons a l ih =>
    cases ha : p a with
    | true => simp [ha]
    | false => simp [ha, ih]

theorem filter_of_any_eq_false {l : List α} (h : l.any p = false) :
    l.filter (fun a => !p a) = l := by
  rw [List.filter_eq_self]
  intro a ha
  rw [List.any_eq_false] at h
  simpa using h a ha

/-- The loop ends within one round more than there are elements with `p`, and leaves exactly the
others, in their order. -/
theorem eraseLoop_eq_filter {n : ℕ} {l : List α} (h : l.countP p < n) :
    eraseLoop p n l = some (l.filter fun a => !p a) := by
  induction n generalizing l with
  | zero => omega
  | succ n ih =>
    unfold eraseLoop
    cases hany : l.any p with
    | true =>
      have hcount := countP_eraseP_of_any p hany
      rw [if_pos rfl, ih (by omega), filter_eraseP]
    | false =>
      rw [filter_of_any_eq_false p hany]
      rfl

end EraseLoop
