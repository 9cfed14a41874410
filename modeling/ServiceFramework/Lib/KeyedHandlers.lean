import Mathlib.Data.List.Basic
import Mathlib.Tactic.Common

/-!
# Handlers of the keys of a document

A document answers under some keys with values. A list of handlers is gone through in order
(`handle`): the handler of a key that is there sets the state from the value, or fails and ends the
round with the state it left; the handler of a key that is missing has a default to set.

Where a handler accepts the same values in every state (`Decided`), a round sets what the handlers
set one after the other, up to the first value that is not accepted (`handle_cases`), and what it
answers does not depend on the state either (`handle_decided`): such a round may stand for the value
of one handler of a list again.
-/

/-- A key, what is done with its value, and what is done where it is missing. -/
structure Handler (κ V ε σ : Type*) where
  key : κ
  set : V → σ → Except ε Unit × σ
  absent : σ → σ := id

namespace Handler

variable {κ V ε σ α : Type*}

/-- One round over some handlers, up to the first that fails. -/
def handle (find : κ → Option V) : List (Handler κ V ε σ) → σ → Except ε Unit × σ
  | [], s => (.ok (), s)
  | h :: hs, s =>
    match find h.key with
    | none => handle find hs (h.absent s)
    | some v =>
      match h.set v s with
      | (.ok (), s) => handle find hs s
      | (.error e, s) => (.error e, s)

/-- What a handler leaves of a state. -/
def step (find : κ → Option V) (h : Handler κ V ε σ) (s : σ) : σ :=
  match find h.key with
  | none => h.absent s
  | some v => (h.set v s).2

/-- The value of a handler, if it is there, is accepted in every state. -/
def Fits (find : κ → Option V) (h : Handler κ V ε σ) : Prop :=
  ∀ v, find h.key = some v → ∀ s, (h.set v s).1 = .ok ()

/-- What a handler answers does not depend on the state. -/
def Decided (h : Handler κ V ε σ) : Prop := ∀ v s s', (h.set v s).1 = (h.set v s').1

variable {find : κ → Option V} {h : Handler κ V ε σ} {hs : List (Handler κ V ε σ)}

theorem handle_cons_of_fits (hfits : h.Fits find) (s : σ) :
    handle find (h :: hs) s = handle find hs (h.step find s) := by
  rw [handle, step]
  cases hv : find h.key with
  | none => rfl
  | some v =>
    have hok := hfits v hv s
    dsimp only
    generalize h.set v s = r at hok ⊢
    obtain ⟨r, s'⟩ := r
    cases hok
    rfl

/-- A round in which every value is accepted sets one after the other. -/
theorem handle_of_fits (hfits : ∀ h ∈ hs, h.Fits find) (s : σ) :
    handle find hs s = (.ok (), hs.foldl (fun s h => h.step find s) s) := by
  induction hs generalizing s with
  | nil => rfl
  | cons h hs ih =>
    rw [handle_cons_of_fits (hfits h List.mem_cons_self), List.foldl_cons]
    exact ih (fun h' hh' => hfits h' (List.mem_cons_of_mem h hh')) _

/-- A value that is not accepted ends the round. -/
theorem handle_cons_of_error {v : V} (hv : find h.key = some v) {s : σ} {e : ε}
    (herror : (h.set v s).1 = .error e) :
    handle find (h :: hs) s = (.error e, (h.set v s).2) := by
  rw [handle, hv]
  dsimp only
  generalize h.set v s = r at herror ⊢
  obtain ⟨r, s'⟩ := r
  cases herror
  rfl

/-- A decided handler accepts the value that is there, or fails with it in every state. -/
theorem Decided.fits_or (hd : h.Decided) (find : κ → Option V) :
    h.Fits find ∨ ∃ v e, find h.key = some v ∧ ∀ s, (h.set v s).1 = .error e := by
  by_cases hfits : h.Fits find
  · exact .inl hfits
  · unfold Fits at hfits
    push Not at hfits
    obtain ⟨v, hv, s, hs⟩ := hfits
    cases hr : (h.set v s).1 with
    | ok u => exact absurd hr hs
    | error e => exact .inr ⟨v, e, hv, fun s' => (hd v s' s).trans hr⟩

/-- A round succeeds, or ends at the first value that is not accepted. -/
theorem handle_cases (hd : ∀ h ∈ hs, h.Decided) (find : κ → Option V) (s : σ) :
    (∀ h ∈ hs, h.Fits find) ∨
    ∃ pre h post v e, hs = pre ++ h :: post ∧ (∀ h ∈ pre, h.Fits find) ∧ find h.key = some v ∧
      (∀ s, (h.set v s).1 = .error e) ∧
      handle find hs s = (.error e, (h.set v (pre.foldl (fun s h => h.step find s) s)).2) := by
  induction hs generalizing s with
  | nil => exact .inl nofun
  | cons h hs ih =>
    have hrest := fun h' hh' => hd h' (List.mem_cons_of_mem h hh')
    rcases (hd h List.mem_cons_self).fits_or find with hfits | ⟨v, e, hv, herror⟩
    · rcases ih hrest (h.step find s) with hall | ⟨pre, h', post, v, e, rfl, hpre, hv, herror, hr⟩
      · exact .inl (List.forall_mem_cons.2 ⟨hfits, hall⟩)
      · refine .inr ⟨h :: pre, h', post, v, e, rfl, List.forall_mem_cons.2 ⟨hfits, hpre⟩, hv, herror,
          ?_⟩
        rw [handle_cons_of_fits hfits, hr, List.foldl_cons]
    · exact .inr ⟨[], h, hs, v, e, rfl, nofun, hv, herror, handle_cons_of_error hv (herror s)⟩

/-- What a round answers does not depend on the state. -/
theorem handle_decided (hd : ∀ h ∈ hs, h.Decided) (find : κ → Option V) (s s' : σ) :
    (handle find hs s).1 = (handle find hs s').1 := by
  induction hs generalizing s s' with
  | nil => rfl
  | cons h hs ih =>
    have hrest := fun h' hh' => hd h' (List.mem_cons_of_mem h hh')
    rcases (hd h List.mem_cons_self).fits_or find with hfits | ⟨v, e, hv, herror⟩
    · rw [handle_cons_of_fits hfits, handle_cons_of_fits hfits]
      exact ih hrest _ _
    · rw [handle_cons_of_error hv (herror s), handle_cons_of_error hv (herror s')]

/-! ## Handlers of typed values -/

/-- A handler that reads its value as one of the type `α` and puts that into the state. -/
def ofRead (key : κ) (read : V → Except ε α) (put : α → σ → σ) (absent : σ → σ := id) :
    Handler κ V ε σ where
  key
  set v s :=
    match read v with
    | .ok a => (.ok (), put a s)
    | .error e => (.error e, s)
  absent

theorem ofRead_decided (key : κ) (read : V → Except ε α) (put : α → σ → σ) (absent : σ → σ) :
    (ofRead key read put absent).Decided := by
  intro v s s'
  simp only [ofRead]
  cases read v <;> rfl

/-- A typed handler fits exactly if its value, where it is there, has the type. -/
theorem ofRead_fits [Nonempty σ] {key : κ} {read : V → Except ε α} {put : α → σ → σ}
    {absent : σ → σ} :
    (ofRead key read put absent).Fits find ↔ ∀ v, find key = some v → ∃ a, read v = .ok a := by
  refine forall₂_congr fun v _ => ?_
  simp only [ofRead]
  cases read v with
  | ok a => exact iff_of_true (fun _ => rfl) ⟨a, rfl⟩
  | error e =>
    obtain ⟨s⟩ := ‹Nonempty σ›
    exact iff_of_false (fun h => nomatch h s) nofun

/-- What a typed handler leaves. -/
theorem step_ofRead (find : κ → Option V) (key : κ) (read : V → Except ε α) (put : α → σ → σ)
    (absent : σ → σ) (s : σ) :
    (ofRead key read put absent).step find s =
      match find key with
      | none => absent s
      | some v =>
        match read v with
        | .ok a => put a s
        | .error _ => s := by
  simp only [step, ofRead]
  cases find key with
  | none => rfl
  | some v =>
    dsimp only
    cases read v <;> rfl

end Handler
