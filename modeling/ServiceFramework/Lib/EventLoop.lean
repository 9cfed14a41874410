import Mathlib.Data.List.Basic
import Mathlib.Data.List.Nodup
import Mathlib.Logic.Function.Basic
import Mathlib.Tactic.Common

/-!
# Event loops

An event base has queues, each first in first out: a function that is passed to it is put at the end
of one of them (`post`), and its loop runs the function at the front of one of them (`take`). Which
of its queues a loop turns to is left open, so functions of different queues run in any order. The
functions that ran stay on record, and `posted` is all that was passed to a queue, in order. A step of
one loop changes nothing of the others, and what ran from a queue is always the beginning of what was
posted to it (`ranFrom_prefix`).
-/

/-- The functions in the queues `K` of each event base, and those that ran there, each with the queue
it came from. -/
structure EventLoops (E K T : Type*) where
  queues : E → K → List T := fun _ _ => []
  ran : E → List (K × T) := fun _ => []

namespace EventLoops

variable {E K T : Type*} [DecidableEq K]

/-- The functions of a queue that ran, in order. -/
def ranFrom (l : EventLoops E K T) (evb : E) (k : K) : List T :=
  ((l.ran evb).filter fun x => x.1 = k).map Prod.snd

/-- Those among the first `n` functions that ran on the event base. -/
def ranBefore (l : EventLoops E K T) (evb : E) (n : ℕ) (k : K) : List T :=
  (((l.ran evb).take n).filter fun x => x.1 = k).map Prod.snd

/-- Those that ran after the first `n`. -/
def ranSince (l : EventLoops E K T) (evb : E) (n : ℕ) (k : K) : List T :=
  (((l.ran evb).drop n).filter fun x => x.1 = k).map Prod.snd

/-- All that was passed to a queue of an event base. -/
def posted (l : EventLoops E K T) (evb : E) (k : K) : List T := l.ranFrom evb k ++ l.queues evb k

theorem ranFrom_prefix (l : EventLoops E K T) (evb : E) (k : K) :
    l.ranFrom evb k <+: l.posted evb k :=
  List.prefix_append _ _

theorem ranBefore_append_ranSince (l : EventLoops E K T) (evb : E) (n : ℕ) (k : K) :
    l.ranBefore evb n k ++ l.ranSince evb n k = l.ranFrom evb k := by
  rw [ranBefore, ranSince, ← List.map_append, ← List.filter_append, List.take_append_drop]
  rfl

theorem ranSince_length (l : EventLoops E K T) (evb : E) (k : K) :
    l.ranSince evb (l.ran evb).length k = [] := by
  rw [ranSince, List.drop_length]
  rfl

theorem mem_ranFrom {l : EventLoops E K T} {evb : E} {k : K} {t : T} :
    t ∈ l.ranFrom evb k ↔ (k, t) ∈ l.ran evb := by
  simp [ranFrom]

theorem mem_ranFrom_of_mem_ranBefore {l : EventLoops E K T} {evb : E} {n : ℕ} {k : K} {t : T}
    (h : t ∈ l.ranBefore evb n k) : t ∈ l.ranFrom evb k := by
  rw [← l.ranBefore_append_ranSince evb n]
  exact List.mem_append_left _ h

theorem mem_posted_of_ran {l : EventLoops E K T} {evb : E} {x : K × T} (h : x ∈ l.ran evb) :
    x.2 ∈ l.posted evb x.1 :=
  (l.ranFrom_prefix evb x.1).subset (mem_ranFrom.2 h)

theorem mem_posted_of_queue {l : EventLoops E K T} {evb : E} {k : K} {t : T}
    (h : t ∈ l.queues evb k) : t ∈ l.posted evb k :=
  List.mem_append_right _ h

/-- Two functions of one queue ran in the order in which they were passed. -/
theorem pair_sublist_posted {l : EventLoops E K T} {evb : E} {x y : K × T}
    (h : [x, y].Sublist (l.ran evb)) (hk : x.1 = y.1) : [x.2, y.2].Sublist (l.posted evb x.1) := by
  have hfilter := (h.filter fun z => decide (z.1 = x.1)).map Prod.snd
  simp only [hk, List.filter_cons, decide_true, if_true, List.filter_nil, List.map_cons,
    List.map_nil] at hfilter
  rw [hk]
  exact hfilter.trans (l.ranFrom_prefix evb y.1).sublist

/-- Functions that were passed once, to one queue, ran once. -/
theorem nodup_ran {β : Type*} (f : T → β) {l : EventLoops E K T} {evb : E}
    (honce : ∀ k, ((l.posted evb k).map f).Nodup)
    (hqueue : ∀ k k', ∀ t ∈ l.posted evb k, ∀ t' ∈ l.posted evb k', f t = f t' → k = k') :
    ((l.ran evb).map fun x => f x.2).Nodup := by
  rw [List.Nodup, List.pairwise_map, List.pairwise_iff_forall_sublist]
  intro x y hxy hf
  have hx : x ∈ l.ran evb := hxy.subset (by simp)
  have hy : y ∈ l.ran evb := hxy.subset (by simp)
  have hk := hqueue x.1 y.1 x.2 (mem_posted_of_ran hx) y.2 (mem_posted_of_ran hy) hf
  have hnodup := ((pair_sublist_posted hxy hk).map f).nodup (honce x.1)
  simp [hf] at hnodup

variable [DecidableEq E]

/-- Pass a function to a queue of an event base. -/
def post (l : EventLoops E K T) (evb : E) (k : K) (t : T) : EventLoops E K T :=
  { l with
    queues := Function.update l.queues evb
      (Function.update (l.queues evb) k (l.queues evb k ++ [t])) }

/-- Run the first function of a queue of an event base. -/
def take (l : EventLoops E K T) (evb : E) (k : K) : Option (T × EventLoops E K T) :=
  match l.queues evb k with
  | [] => none
  | t :: ts =>
    some (t,
      { queues := Function.update l.queues evb (Function.update (l.queues evb) k ts)
        ran := Function.update l.ran evb (l.ran evb ++ [(k, t)]) })

@[simp] theorem ran_post (l : EventLoops E K T) (evb : E) (k : K) (t : T) :
    (l.post evb k t).ran = l.ran := rfl

theorem queues_post (l : EventLoops E K T) (evb : E) (k : K) (t : T) (evb' : E) (k' : K) :
    (l.post evb k t).queues evb' k' =
      if evb' = evb ∧ k' = k then l.queues evb k ++ [t] else l.queues evb' k' := by
  by_cases he : evb' = evb
  · subst he
    by_cases hk : k' = k
    · subst hk
      simp [post]
    · simp [post, hk]
  · simp [post, he]

theorem posted_post (l : EventLoops E K T) (evb : E) (k : K) (t : T) (evb' : E) (k' : K) :
    (l.post evb k t).posted evb' k' =
      if evb' = evb ∧ k' = k then l.posted evb k ++ [t] else l.posted evb' k' := by
  unfold posted
  rw [queues_post]
  split
  · next h =>
    obtain ⟨rfl, rfl⟩ := h
    exact (List.append_assoc _ _ _).symm
  · rfl

/-- What a queue was passed is as before, but for the function at the end of its queue. -/
theorem mem_posted_post {l : EventLoops E K T} {evb evb' : E} {k k' : K} {t t' : T}
    (h : t' ∈ (l.post evb k t).posted evb' k') :
    t' ∈ l.posted evb' k' ∨ evb' = evb ∧ k' = k ∧ t' = t := by
  rw [posted_post] at h
  split at h
  · next he =>
    obtain ⟨rfl, rfl⟩ := he
    simpa using h
  · exact .inl h

section Take

variable {l l' : EventLoops E K T} {evb : E} {k : K} {t : T}

/-- All that running a function does. -/
theorem take_cases (h : l.take evb k = some (t, l')) :
    ∃ ts, l.queues evb k = t :: ts ∧
      l' = { queues := Function.update l.queues evb (Function.update (l.queues evb) k ts)
             ran := Function.update l.ran evb (l.ran evb ++ [(k, t)]) } := by
  unfold take at h
  cases hq : l.queues evb k with
  | nil =>
    rw [hq] at h
    cases h
  | cons t' ts =>
    rw [hq] at h
    cases h
    exact ⟨ts, rfl, rfl⟩

theorem ran_take (h : l.take evb k = some (t, l')) (evb' : E) :
    l'.ran evb' = if evb' = evb then l.ran evb ++ [(k, t)] else l.ran evb' := by
  obtain ⟨ts, -, rfl⟩ := take_cases h
  by_cases he : evb' = evb
  · subst he
    simp
  · simp [he]

theorem ranFrom_take (h : l.take evb k = some (t, l')) (evb' : E) (k' : K) :
    l'.ranFrom evb' k' =
      if evb' = evb ∧ k' = k then l.ranFrom evb k ++ [t] else l.ranFrom evb' k' := by
  unfold ranFrom
  rw [ran_take h]
  by_cases he : evb' = evb
  · subst he
    by_cases hk : k' = k
    · subst hk
      simp
    · simp [hk, Ne.symm hk]
  · simp [he]

/-- What ran before a moment stays. -/
theorem ranBefore_take (h : l.take evb k = some (t, l')) {evb' : E} {n : ℕ}
    (hn : n ≤ (l.ran evb').length) (k' : K) : l'.ranBefore evb' n k' = l.ranBefore evb' n k' := by
  unfold ranBefore
  rw [ran_take h]
  split
  · next he =>
    subst he
    rw [List.take_append_of_le_length hn]
  · rfl

theorem ranSince_take (h : l.take evb k = some (t, l')) {evb' : E} {n : ℕ}
    (hn : n ≤ (l.ran evb').length) (k' : K) :
    l'.ranSince evb' n k' = l.ranSince evb' n k' ++ if evb' = evb ∧ k' = k then [t] else [] := by
  unfold ranSince
  rw [ran_take h]
  by_cases he : evb' = evb
  · subst he
    rw [if_pos rfl, List.drop_append_of_le_length hn, List.filter_append, List.map_append]
    by_cases hk : k' = k
    · subst hk
      simp
    · simp [hk, Ne.symm hk]
  · simp [he]

/-- Running a function takes nothing out of what was posted. -/
theorem posted_take (h : l.take evb k = some (t, l')) : l'.posted = l.posted := by
  obtain ⟨ts, hq, rfl⟩ := take_cases h
  funext evb' k'
  unfold posted ranFrom
  by_cases he : evb' = evb
  · subst he
    by_cases hk : k' = k
    · subst hk
      simp [hq]
    · simp [hk, Ne.symm hk]
  · simp [he]

theorem mem_posted_of_take (h : l.take evb k = some (t, l')) : t ∈ l.posted evb k := by
  obtain ⟨ts, hq, -⟩ := take_cases h
  refine mem_posted_of_queue ?_
  rw [hq]
  exact List.mem_cons_self

end Take

/-- A queue that is not empty can be run from. -/
theorem exists_take {l : EventLoops E K T} {evb : E} {k : K} (h : l.queues evb k ≠ []) :
    ∃ t l', l.take evb k = some (t, l') := by
  unfold take
  cases hq : l.queues evb k with
  | nil => exact absurd hq h
  | cons t ts => exact ⟨_, _, rfl⟩

end EventLoops
