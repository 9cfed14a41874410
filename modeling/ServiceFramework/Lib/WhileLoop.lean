import Mathlib.Data.Option.Basic
import Mathlib.Tactic.Common

/-!
# While loops whose body may fail

A loop is a condition on its state and a body that answers `none` where it cannot go on. `loop n`
runs it for at most `n` rounds. The loop has ended within them if a measure bounds them
(`loop_ends`); what the body keeps holds at the end (`loop_invariant`).
-/

namespace WhileLoop

variable {σ : Type*} (cond : σ → Bool) (body : σ → Option σ)

/-- At most `n` rounds of the loop, `none` if the body fails in one of them. -/
def loop : ℕ → σ → Option σ
  | 0, s => some s
  | n + 1, s => if cond s then (body s).bind (loop n) else some s

variable {cond body}

theorem loop_of_not {s : σ} (h : cond s = false) (n : ℕ) : loop cond body n s = some s := by
  cases n with
  | zero => rfl
  | succ n => rw [loop, if_neg (by simp [h])]

theorem loop_round {s s' : σ} (h : cond s = true) (hs : body s = some s') (n : ℕ) :
    loop cond body (n + 1) s = loop cond body n s' := by
  rw [loop, if_pos h, hs, Option.bind_some]

theorem loop_fails {s : σ} (h : cond s = true) (hs : body s = none) (n : ℕ) :
    loop cond body (n + 1) s = none := by
  rw [loop, if_pos h, hs, Option.bind_none]

/-- What the body keeps while the condition holds, the loop keeps. -/
theorem loop_invariant {I : σ → Prop}
    (hbody : ∀ s s', cond s = true → I s → body s = some s' → I s') {n : ℕ} {s t : σ} (hs : I s)
    (h : loop cond body n s = some t) : I t := by
  induction n generalizing s with
  | zero =>
    cases h
    exact hs
  | succ n ih =>
    cases hc : cond s with
    | false =>
      rw [loop_of_not hc] at h
      cases h
      exact hs
    | true =>
      rw [loop, if_pos hc] at h
      obtain ⟨s', hs', h⟩ := Option.bind_eq_some_iff.1 h
      exact ih (hbody s s' hc hs hs') h

/-- The condition is false after as many rounds as a measure that each round makes smaller. -/
theorem loop_ends {m : σ → ℕ} (hpos : ∀ s, cond s = true → 0 < m s)
    (hbody : ∀ s s', cond s = true → body s = some s' → m s' < m s) {n : ℕ} {s t : σ}
    (hn : m s ≤ n) (h : loop cond body n s = some t) : cond t = false := by
  induction n generalizing s with
  | zero =>
    cases h
    by_contra hc
    have hlt := hpos _ (by simpa using hc)
    omega
  | succ n ih =>
    cases hc : cond s with
    | false =>
      rw [loop_of_not hc] at h
      cases h
      exact hc
    | true =>
      rw [loop, if_pos hc] at h
      obtain ⟨s', hs', h⟩ := Option.bind_eq_some_iff.1 h
      have hlt := hbody s s' hc hs'
      exact ih (by omega) h

end WhileLoop
