import Mathlib.Data.List.Basic

/-!
# Runs of a partial transition function

A component is a state type `σ`, an event type `ε` and a function `step : σ → ε → Option σ` that
answers `none` for an event the component cannot take. A run is a list of events taken one after
the other (`run`). Two rules carry every proof about runs: an invariant kept by each step holds
after every run (`run_invariant`), and an invariant kept by each step that satisfies a side
condition holds after every run whose steps all satisfy it (`Along.invariant`).
-/

namespace Transition

variable {σ ε : Type*}

section Run

variable (step : σ → ε → Option σ)

/-- The state after the events, `none` once an event cannot be taken. -/
def run : σ → List ε → Option σ
  | s, [] => some s
  | s, e :: es => (step s e).bind fun s' => run s' es

@[simp] theorem run_nil (s : σ) : run step s [] = some s := rfl

theorem run_cons (s : σ) (e : ε) (es : List ε) :
    run step s (e :: es) = (step s e).bind fun s' => run step s' es := rfl

theorem run_append (s : σ) (es fs : List ε) :
    run step s (es ++ fs) = (run step s es).bind fun s' => run step s' fs := by
  induction es generalizing s with
  | nil => rfl
  | cons e es ih =>
    simp only [List.cons_append, run_cons]
    cases step s e with
    | none => rfl
    | some s' => exact ih s'

theorem run_concat (s : σ) (es : List ε) (e : ε) :
    run step s (es ++ [e]) = (run step s es).bind fun s' => step s' e := by
  rw [run_append]
  congr 1
  funext s'
  simp [run_cons]

variable {step}

theorem run_cons_eq_some {s t : σ} {e : ε} {es : List ε} :
    run step s (e :: es) = some t ↔ ∃ s', step s e = some s' ∧ run step s' es = some t := by
  rw [run_cons, Option.bind_eq_some_iff]

theorem run_append_of_eq_some {s s' t : σ} {es fs : List ε} (h : run step s es = some s')
    (hs : run step s' fs = some t) : run step s (es ++ fs) = some t := by
  rw [run_append, h]
  exact hs

theorem run_concat_of_eq_some {s s' t : σ} {es : List ε} {e : ε}
    (h : run step s es = some s') (hs : step s' e = some t) :
    run step s (es ++ [e]) = some t := by
  rw [run_concat, h]
  exact hs

/-- An invariant kept by every step holds after every run. -/
theorem run_invariant {P : σ → Prop} (hstep : ∀ s e s', P s → step s e = some s' → P s')
    {s t : σ} {es : List ε} (hs : P s) (h : run step s es = some t) : P t := by
  induction es generalizing s with
  | nil =>
    cases h
    exact hs
  | cons e es ih =>
    obtain ⟨s', h1, h2⟩ := run_cons_eq_some.1 h
    exact ih (hstep s e s' hs h1) h2

/-- Where each step makes `P` true exactly if its event is one of `Q`, a run makes it true exactly
if it has such an event. -/
theorem run_iff_exists {I P : σ → Prop} {Q : ε → Prop}
    (hstep : ∀ s e s', I s → step s e = some s' → I s' ∧ (P s' ↔ P s ∨ Q e))
    {s t : σ} {es : List ε} (hs : I s) (h : run step s es = some t) :
    P t ↔ P s ∨ ∃ e ∈ es, Q e := by
  induction es generalizing s with
  | nil =>
    cases h
    simp
  | cons e es ih =>
    obtain ⟨s', h1, h2⟩ := run_cons_eq_some.1 h
    obtain ⟨hs', hiff⟩ := hstep s e s' hs h1
    rw [ih hs' h2, hiff, List.exists_mem_cons_iff, or_assoc]

/-- Items that are each allowed, and of which no two exclude each other. -/
def AllFit (K : ε → Prop) (R : ε → ε → Prop) (es : List ε) : Prop := (∀ e ∈ es, K e) ∧ es.Pairwise R

theorem allFit_nil (K : ε → Prop) (R : ε → ε → Prop) : AllFit K R [] :=
  ⟨List.forall_mem_nil K, List.Pairwise.nil⟩

theorem allFit_concat {K : ε → Prop} {R : ε → ε → Prop} {es : List ε} (h : AllFit K R es) {e : ε} :
    AllFit K R (es ++ [e]) ↔ K e ∧ ∀ x ∈ es, R x e := by
  unfold AllFit
  rw [List.forall_mem_append, List.pairwise_append, List.forall_mem_singleton]
  simp only [List.forall_mem_singleton, List.pairwise_singleton, true_and]
  exact and_congr (and_iff_right h.1) (and_iff_right h.2)

theorem AllFit.of_append {K : ε → Prop} {R : ε → ε → Prop} {es fs : List ε}
    (h : AllFit K R (es ++ fs)) : AllFit K R es :=
  ⟨fun e he => h.1 e (List.mem_append_left fs he), (List.pairwise_append.1 h.2).1⟩

/-- Where each event is passed over, or is added to the items of the state and fits them, or does not
fit and cannot be taken, a run fails exactly if the items do not all fit. -/
theorem run_allFit {I : σ → Prop} (items : σ → List ε) (made : ε → Bool) {K : ε → Prop}
    {R : ε → ε → Prop}
    (hstep : ∀ s, I s → ∀ e, made e = false ∧ step s e = some s ∨ made e = true ∧
      ((∃ s', step s e = some s' ∧ I s' ∧ items s' = items s ++ [e] ∧ K e ∧ ∀ x ∈ items s, R x e) ∨
        step s e = none ∧ ¬ (K e ∧ ∀ x ∈ items s, R x e)))
    {s : σ} (hs : I s) (hfit : AllFit K R (items s)) (es : List ε) :
    (run step s es = none ↔ ¬ AllFit K R (items s ++ es.filter made)) ∧
      ∀ t, run step s es = some t → I t ∧ items t = items s ++ es.filter made := by
  induction es generalizing s with
  | nil =>
    rw [List.filter_nil, List.append_nil]
    refine ⟨iff_of_false nofun (not_not.2 hfit), ?_⟩
    rintro t ⟨⟩
    exact ⟨hs, rfl⟩
  | cons e es ih =>
    rw [run_cons]
    rcases hstep s hs e with ⟨hmade, h⟩ | ⟨hmade, ⟨s', h, hs', hitems, hfits⟩ | ⟨h, hnot⟩⟩
    · rw [h, List.filter_cons_of_neg (by simp [hmade])]
      exact ih hs hfit
    · have hih := ih hs' (by rw [hitems]; exact (allFit_concat hfit).2 hfits)
      rw [hitems, List.append_assoc, List.singleton_append] at hih
      rw [h, List.filter_cons_of_pos hmade]
      exact hih
    · rw [h, List.filter_cons_of_pos hmade]
      refine ⟨iff_of_true rfl fun hall => ?_, nofun⟩
      rw [← List.singleton_append, ← List.append_assoc] at hall
      exact hnot ((allFit_concat hfit).1 hall.of_append)

end Run

section Along

variable (step : σ → ε → Option σ) (Q : σ → ε → σ → Prop)

/-- Every step of the run satisfies `Q`, a condition on the state before it, its event and the
state after it. -/
def Along : σ → List ε → Prop
  | _, [] => True
  | s, e :: es => ∀ s', step s e = some s' → Q s e s' ∧ Along s' es

@[simp] theorem Along.nil (s : σ) : Along step Q s [] := trivial

theorem along_cons (s : σ) (e : ε) (es : List ε) :
    Along step Q s (e :: es) ↔ ∀ s', step s e = some s' → Q s e s' ∧ Along step Q s' es :=
  Iff.rfl

instance Along.decidable [∀ s e s', Decidable (Q s e s')] :
    ∀ s es, Decidable (Along step Q s es)
  | _, [] => isTrue trivial
  | s, e :: es =>
    match hs : step s e with
    | none => isTrue fun s' h => absurd (hs.symm.trans h) nofun
    | some s' =>
      have := Along.decidable s' es
      decidable_of_iff (Q s e s' ∧ Along step Q s' es) (by simp [along_cons, hs])

variable {step Q}

theorem along_cons_of_eq_some {s s' : σ} {e : ε} {es : List ε} (h : step s e = some s') :
    Along step Q s (e :: es) ↔ Q s e s' ∧ Along step Q s' es := by
  constructor
  · intro ha
    exact ha s' h
  · intro ha s'' h'
    rw [h] at h'
    cases h'
    exact ha

theorem Along.append {s t : σ} {es fs : List ε} (h : Along step Q s es)
    (hr : run step s es = some t) (hfs : Along step Q t fs) : Along step Q s (es ++ fs) := by
  induction es generalizing s with
  | nil =>
    cases hr
    exact hfs
  | cons e es ih =>
    obtain ⟨s', h1, h2⟩ := run_cons_eq_some.1 hr
    intro s'' hs''
    rw [h1] at hs''
    cases hs''
    exact ⟨(h s' h1).1, ih (h s' h1).2 h2⟩

/-- The steps after the first events of a run. -/
theorem Along.of_append {s t : σ} {es fs : List ε} (h : Along step Q s (es ++ fs))
    (hr : run step s es = some t) : Along step Q t fs := by
  induction es generalizing s with
  | nil =>
    cases hr
    exact h
  | cons e es ih =>
    obtain ⟨s', h1, h2⟩ := run_cons_eq_some.1 hr
    exact ih (h s' h1).2 h2

/-- Events for which `Q` holds whatever the states are. -/
theorem Along.of_forall {s : σ} {es : List ε} (h : ∀ e ∈ es, ∀ s s', Q s e s') :
    Along step Q s es := by
  induction es generalizing s with
  | nil => trivial
  | cons e es ih =>
    intro s' _
    exact ⟨h e List.mem_cons_self s s', ih fun e' he' => h e' (List.mem_cons_of_mem e he')⟩

/-- An invariant kept by every step that satisfies `Q` holds after every run whose steps all
satisfy `Q`. -/
theorem Along.invariant {P : σ → Prop}
    (hstep : ∀ s e s', Q s e s' → P s → step s e = some s' → P s')
    {s t : σ} {es : List ε} (ha : Along step Q s es) (hs : P s)
    (h : run step s es = some t) : P t := by
  induction es generalizing s with
  | nil =>
    cases h
    exact hs
  | cons e es ih =>
    obtain ⟨s', h1, h2⟩ := run_cons_eq_some.1 h
    obtain ⟨hq, hrest⟩ := ha s' h1
    exact ih hrest (hstep s e s' hq hs h1) h2

/-- What follows from the invariant and `Q` at each step holds of every step of the run. -/
theorem Along.imp {P : σ → Prop} {R : σ → ε → σ → Prop}
    (hstep : ∀ s e s', Q s e s' → P s → step s e = some s' → P s' ∧ R s e s')
    {s : σ} {es : List ε} (ha : Along step Q s es) (hs : P s) : Along step R s es := by
  induction es generalizing s with
  | nil => trivial
  | cons e es ih =>
    intro s' h1
    obtain ⟨hq, hrest⟩ := ha s' h1
    obtain ⟨hs', hr⟩ := hstep s e s' hq hs h1
    exact ⟨hr, ih hrest hs'⟩

/-- Two conditions on steps that agree while the invariant `I` holds. -/
theorem Along.congr {I : σ → Prop} {R : σ → ε → σ → Prop}
    (hstep : ∀ s e s', I s → step s e = some s' → I s' ∧ (Q s e s' ↔ R s e s'))
    {s : σ} {es : List ε} (hs : I s) : Along step Q s es ↔ Along step R s es := by
  induction es generalizing s with
  | nil => exact Iff.rfl
  | cons e es ih =>
    rw [along_cons, along_cons]
    refine forall₂_congr ?_
    intro s' h1
    obtain ⟨hs', hiff⟩ := hstep s e s' hs h1
    rw [hiff, ih hs']

/-- Where each step keeps `P` exactly if it satisfies `Q`, a run keeps `P` exactly if all its
steps satisfy `Q`. The invariant `I` holds whether or not they do. -/
theorem run_iff_along {I P : σ → Prop}
    (hstep : ∀ s e s', I s → step s e = some s' → I s' ∧ (P s' ↔ P s ∧ Q s e s'))
    {s t : σ} {es : List ε} (hs : I s) (h : run step s es = some t) :
    P t ↔ P s ∧ Along step Q s es := by
  induction es generalizing s with
  | nil =>
    cases h
    exact (and_iff_left trivial).symm
  | cons e es ih =>
    obtain ⟨s', h1, h2⟩ := run_cons_eq_some.1 h
    obtain ⟨hs', hiff⟩ := hstep s e s' hs h1
    rw [ih hs' h2, hiff, along_cons_of_eq_some h1, and_assoc]

end Along

end Transition
