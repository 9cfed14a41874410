import ServiceFramework.Net.FiberDataManager

/-!
# The bound of the fiber queue

A `FiberDataManager` (`net/fiber_data_manager.cc`) is constructed with the largest size of its
queue. It keeps the number, but `AllocFiberData` compares the size with `FIBER_MAX_QUEUE_SIZE`, the
default of the constructor. A manager with another bound grows past it, or refuses a slot below it
(`queue_bound_respected_iff`), unless it is never asked for a slot while the size is below one of
the two numbers only.
-/

namespace ServiceFramework.Net

open Transition

namespace FiberDataManager

variable {P : Type}

/-- `GetFiberQueueSize`. -/
def getFiberQueueSize (m : FiberDataManager P) : ℕ := m.datas.size

/-- A manager constructed with a bound, after `Initialize`. -/
def initialized (maxQueueSize : ℕ) (threadId : UInt32) : FiberDataManager P :=
  (initializeWith { maxQueueSize } threadId).2

/-- The calls that change the queue. -/
inductive QueueCall (P : Type) where
  | allocFiberData (data : P)
  | deleteFiberData (fiberId : UInt64)

/-- The manager after a call. -/
def queueStep (m : FiberDataManager P) : QueueCall P → Option (FiberDataManager P)
  | .allocFiberData data => (m.allocFiberData data).map Prod.snd
  | .deleteFiberData fiberId => some (m.deleteFiberData fiberId).2

/-- The call leaves the queue within the bound, and gives a slot if the queue was below it. -/
structure RespectsBound (maxQueueSize : ℕ) (m : FiberDataManager P) (call : QueueCall P)
    (m' : FiberDataManager P) : Prop where
  size_le : m'.getFiberQueueSize ≤ maxQueueSize
  alloc : ∀ data, call = .allocFiberData data → m.getFiberQueueSize < maxQueueSize →
    ∃ fiberId, m.allocFiberData data = some (some fiberId, m')

/-- A slot is asked for only while the size is below both the bound and `FIBER_MAX_QUEUE_SIZE`, or
below neither. -/
def SameSide (maxQueueSize : ℕ) (m : FiberDataManager P) (call : QueueCall P)
    (_ : FiberDataManager P) : Prop :=
  ∀ data, call = .allocFiberData data →
    (m.getFiberQueueSize < maxQueueSize ↔ m.getFiberQueueSize < fiberMaxQueueSize)

variable {m m' : FiberDataManager P}

/-! ## Runs that respect the bound -/

/-- An initialised manager with its queue within the bound. -/
structure Bounded (maxQueueSize : ℕ) (m : FiberDataManager P) : Prop where
  inited : m.inited = true
  size_le : m.getFiberQueueSize ≤ maxQueueSize

theorem bounded_initialized (maxQueueSize : ℕ) (threadId : UInt32) :
    Bounded maxQueueSize (initialized maxQueueSize threadId : FiberDataManager P) :=
  ⟨rfl, Nat.zero_le _⟩

/-- A call for which the two numbers make no difference. -/
theorem Bounded.step {maxQueueSize : ℕ} {call : QueueCall P} (hm : Bounded maxQueueSize m)
    (hsame : SameSide maxQueueSize m call m') (h : queueStep m call = some m') :
    Bounded maxQueueSize m' ∧ RespectsBound maxQueueSize m call m' := by
  cases call with
  | allocFiberData data =>
    have hiff := hsame data rfl
    by_cases hroom : m.getFiberQueueSize < fiberMaxQueueSize
    · obtain ⟨fiberId, m₁, ha, hinited, hgrows⟩ := allocFiberData_of_room hm.inited hroom data
      have hle := Nat.le_trans hgrows (hiff.2 hroom)
      rw [queueStep, ha] at h
      cases h
      refine ⟨⟨hinited, hle⟩, hle, ?_⟩
      rintro _ ⟨⟩ -
      exact ⟨fiberId, ha⟩
    · have ha := allocFiberData_of_full hm.inited hroom data
      rw [queueStep, ha] at h
      cases h
      refine ⟨hm, hm.size_le, ?_⟩
      intro _ _ hlt
      exact absurd (hiff.1 hlt) hroom
  | deleteFiberData fiberId =>
    cases h
    rw [deleteFiberData_eq]
    have hle := Nat.le_trans (Table.size_erase_le m.datas (fiberId &&& 0xffffffff)) hm.size_le
    exact ⟨⟨hm.inited, hle⟩, hle, nofun⟩

theorem respectsBound_of_sameSide {maxQueueSize : ℕ} {threadId : UInt32} {es : List (QueueCall P)}
    (h : Along queueStep (SameSide maxQueueSize) (initialized maxQueueSize threadId) es) :
    Along queueStep (RespectsBound maxQueueSize) (initialized maxQueueSize threadId) es :=
  h.imp (fun _ _ _ hsame hm hs => hm.step hsame hs) (bounded_initialized maxQueueSize threadId)

/-! ## Runs that do not -/

theorem tracks_initialized (maxQueueSize : ℕ) (threadId : UInt32) :
    (initialized maxQueueSize threadId : FiberDataManager P).Tracks threadId 0 [] where
  threadId _ := rfl
  counter := rfl
  holds := (tracks_new threadId).holds
  size_le := Nat.zero_le _

/-- No key has come round after as many allocations. -/
theorem lt_add_keySpan {n k : ℕ} (hn : n ≤ fiberMaxQueueSize) : n < k + keySpan := by
  unfold fiberMaxQueueSize at hn
  unfold keySpan
  omega

/-- Up to `FIBER_MAX_QUEUE_SIZE` slots can be allocated one after the other. -/
theorem exists_allocs (maxQueueSize : ℕ) (threadId : UInt32) (data : P) {n : ℕ}
    (hn : n ≤ fiberMaxQueueSize) :
    ∃ (m : FiberDataManager P) (live : List (ℕ × P)),
      run queueStep (initialized maxQueueSize threadId)
        (List.replicate n (.allocFiberData data)) = some m ∧
        m.Tracks threadId n live ∧ m.inited = true ∧ m.getFiberQueueSize = n := by
  induction n with
  | zero => exact ⟨_, [], rfl, tracks_initialized maxQueueSize threadId, rfl, rfl⟩
  | succ n ih =>
    obtain ⟨m, live, hrun, hm, hinited, hsize⟩ := ih (Nat.le_of_succ_le hn)
    obtain ⟨fiberId, m', ha, -, -⟩ := allocFiberData_of_room hinited (hsize.trans_lt hn) data
    have hage : ∀ x ∈ live, n < x.1 + keySpan := fun _ _ => lt_add_keySpan (Nat.le_of_succ_le hn)
    obtain ⟨-, hm', hinited', hsize'⟩ := hm.alloc (fun _ => hage) ha
    refine ⟨m', _, ?_, hm', hinited'.trans hinited, hsize'.trans (congrArg (· + 1) hsize)⟩
    rw [List.replicate_succ']
    refine run_concat_of_eq_some hrun ?_
    rw [queueStep, ha]
    rfl

/-- With as many slots as the smaller of the two numbers, the next call for a slot breaks the
bound. -/
theorem not_along_of_ne {maxQueueSize : ℕ} (hne : maxQueueSize ≠ fiberMaxQueueSize)
    (threadId : UInt32) (data : P) :
    ¬ Along queueStep (RespectsBound maxQueueSize) (initialized maxQueueSize threadId)
      (List.replicate (min maxQueueSize fiberMaxQueueSize) (.allocFiberData data) ++
        [.allocFiberData data]) := by
  intro h
  obtain ⟨m, live, hrun, hm, hinited, hsize⟩ :=
    exists_allocs maxQueueSize threadId data (Nat.min_le_right maxQueueSize fiberMaxQueueSize)
  have hlast := h.of_append hrun
  rcases Nat.lt_or_gt_of_ne hne with hlt | hgt
  · rw [Nat.min_eq_left (Nat.le_of_lt hlt)] at hm hsize
    obtain ⟨fiberId, m', ha, -, -⟩ := allocFiberData_of_room hinited (hsize.trans_lt hlt) data
    have hage : ∀ x ∈ live, maxQueueSize < x.1 + keySpan :=
      fun _ _ => lt_add_keySpan (Nat.le_of_lt hlt)
    obtain ⟨-, -, -, hsize'⟩ := hm.alloc (fun _ => hage) ha
    have hle := (hlast m' (congrArg (Option.map Prod.snd) ha)).1.size_le
    unfold getFiberQueueSize at hle hsize
    omega
  · rw [Nat.min_eq_right (Nat.le_of_lt hgt)] at hsize
    have ha := allocFiberData_of_full hinited (Nat.not_lt.2 hsize.ge) data
    obtain ⟨fiberId, ha'⟩ :=
      (hlast m (congrArg (Option.map Prod.snd) ha)).1.alloc data rfl (hsize ▸ hgt)
    rw [ha] at ha'
    cases ha'

/-- **The bound of the queue.** A run respects the bound its manager was constructed with if no slot
is asked for while the size is below one of the bound and `FIBER_MAX_QUEUE_SIZE` only; all runs do
exactly if the bound is `FIBER_MAX_QUEUE_SIZE`. -/
theorem queue_bound_respected_iff [Inhabited P] (maxQueueSize : ℕ) (threadId : UInt32) :
    (∀ es : List (QueueCall P),
      Along queueStep (SameSide maxQueueSize) (initialized maxQueueSize threadId) es →
        Along queueStep (RespectsBound maxQueueSize) (initialized maxQueueSize threadId) es) ∧
      ((∀ es : List (QueueCall P),
        Along queueStep (RespectsBound maxQueueSize) (initialized maxQueueSize threadId) es) ↔
          maxQueueSize = fiberMaxQueueSize) := by
  refine ⟨fun _ => respectsBound_of_sameSide, ?_, ?_⟩
  · intro h
    by_contra hne
    exact not_along_of_ne hne threadId default (h _)
  · rintro rfl es
    refine respectsBound_of_sameSide (Along.of_forall ?_)
    intro _ _ _ _ _ _
    exact Iff.rfl

/-- With the bound 1, two slots are given. -/
theorem queue_exceeds_bound :
    ¬ ∀ es : List (QueueCall Unit),
      Along queueStep (RespectsBound 1) (initialized 1 0) es := by
  intro h
  obtain ⟨-, hsecond⟩ := h [.allocFiberData (), .allocFiberData ()] _ rfl
  exact absurd (hsecond _ rfl).1.size_le (by decide)

end FiberDataManager

end ServiceFramework.Net
