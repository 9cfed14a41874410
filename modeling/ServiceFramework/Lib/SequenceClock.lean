import Mathlib.Data.List.Chain
import Mathlib.Data.List.Count
import Mathlib.Data.List.Nodup
import Mathlib.Data.List.Perm.Subperm
import Mathlib.Data.List.Sort
import Mathlib.Tactic.Common

/-!
# Tickets from a clock and a sequence number

A generator of pairs `(time, sequence)` that looks at a clock one reading at a time. A reading
that differs from the last one is issued with sequence 0, the same reading again with the next
sequence number. When the `N` sequence numbers of a reading are used up the generator waits for a
reading above `floor` and issues it with sequence 0.

The interesting parameter is `floor`. For a fixed `floor` the wait can end on the very reading
that is used up, and then pairs repeat. On sorted readings this happens exactly when a reading
above `floor` occurs more than `N + 1` times (`emits_nodup_iff`): `N` tickets, and one reading
that is spent to find the sequence exhausted. When no reading comes `N` times the generator never
waits, and every reading issues one ticket (`Ready.emits_cons`). Then pairs repeat, whatever the
order of the readings, exactly when one comes back after another (`Ready.emits_nodup_iff_noReturn`).
-/

namespace SequenceClock

/-- The last reading issued, its sequence number, and whether the generator waits for a reading
above `floor`. -/
structure Gen where
  last : ℕ
  seq : ℕ
  waiting : Bool := false

section Machine

variable (N floor : ℕ)

/-- One reading: the generator after it and the ticket it issues, if any. -/
def feed (g : Gen) (t : ℕ) : Gen × Option (ℕ × ℕ) :=
  if g.waiting then
    if t ≤ floor then (g, none) else (⟨t, 0, false⟩, some (t, 0))
  else if g.last = t then
    if g.seq + 1 = N then (⟨t, 0, true⟩, none) else (⟨t, g.seq + 1, false⟩, some (t, g.seq + 1))
  else
    (⟨t, 0, false⟩, some (t, 0))

/-- The tickets issued over a list of readings. -/
def emits (g : Gen) : List ℕ → List (ℕ × ℕ)
  | [] => []
  | t :: ts => (feed N floor g t).2.toList ++ emits (feed N floor g t).1 ts

/-- The generator after a list of readings. -/
def after (g : Gen) (ts : List ℕ) : Gen := ts.foldl (fun g t => (feed N floor g t).1) g

theorem emits_append (g : Gen) (ts us : List ℕ) :
    emits N floor g (ts ++ us) = emits N floor g ts ++ emits N floor (after N floor g ts) us := by
  induction ts generalizing g with
  | nil => rfl
  | cons t ts ih => simp only [List.cons_append, emits, ih, after, List.foldl_cons, List.append_assoc]

theorem after_append (g : Gen) (ts us : List ℕ) :
    after N floor g (ts ++ us) = after N floor (after N floor g ts) us :=
  List.foldl_append

/-- All that a reading can do: be passed over, use up the sequence, or be issued. -/
theorem feed_cases (g : Gen) (t : ℕ) :
    (g.waiting = true ∧ feed N floor g t = (g, none)) ∨ feed N floor g t = (⟨t, 0, true⟩, none) ∨
      ∃ s, feed N floor g t = (⟨t, s, false⟩, some (t, s)) ∧ (s = 0 ∨ s = g.seq + 1 ∧ s ≠ N) := by
  unfold feed
  split
  · next hw =>
    split
    · exact Or.inl ⟨hw, rfl⟩
    · exact Or.inr (Or.inr ⟨0, rfl, Or.inl rfl⟩)
  · split
    · split
      · exact Or.inr (Or.inl rfl)
      · next h => exact Or.inr (Or.inr ⟨g.seq + 1, rfl, Or.inr ⟨rfl, h⟩⟩)
    · exact Or.inr (Or.inr ⟨0, rfl, Or.inl rfl⟩)

/-- Every ticket carries a reading and, while sequence numbers start below `N`, one below `N`. -/
theorem emits_mem (hN : 0 < N) {g : Gen} (hg : g.seq < N) {ts : List ℕ} {x : ℕ × ℕ}
    (h : x ∈ emits N floor g ts) : x.1 ∈ ts ∧ x.2 < N := by
  induction ts generalizing g with
  | nil => cases h
  | cons t ts ih =>
    rw [emits, List.mem_append] at h
    rcases feed_cases N floor g t with ⟨-, hf⟩ | hf | ⟨s, hf, hs⟩ <;> rw [hf] at h
    · obtain ⟨hmem, hlt⟩ := ih hg (h.resolve_left (by simp))
      exact ⟨List.mem_cons_of_mem t hmem, hlt⟩
    · obtain ⟨hmem, hlt⟩ := ih hN (h.resolve_left (by simp))
      exact ⟨List.mem_cons_of_mem t hmem, hlt⟩
    · have hsN : s < N := by
        rcases hs with rfl | ⟨rfl, hne⟩ <;> omega
      rcases h with h | h
      · obtain rfl : x = (t, s) := by simpa using h
        exact ⟨List.mem_cons_self, hsN⟩
      · obtain ⟨hmem, hlt⟩ := ih (g := ⟨t, s, false⟩) hsN h
        exact ⟨List.mem_cons_of_mem t hmem, hlt⟩

end Machine

/-! ## Readings of one value -/

section Block

variable (N floor T : ℕ)

/-- While sequence numbers are left, each repeated reading takes the next one. -/
theorem repeat_lt {s m : ℕ} (h : s + m < N) :
    emits N floor ⟨T, s, false⟩ (List.replicate m T) =
        (List.range' (s + 1) m).map (fun q => (T, q)) ∧
      after N floor ⟨T, s, false⟩ (List.replicate m T) = ⟨T, s + m, false⟩ := by
  induction m generalizing s with
  | zero => exact ⟨rfl, rfl⟩
  | succ m ih =>
    have hfeed : feed N floor ⟨T, s, false⟩ T = (⟨T, s + 1, false⟩, some (T, s + 1)) := by
      have hne : ¬ s + 1 = N := by omega
      simp [feed, hne]
    have hlt : s + 1 + m < N := by omega
    obtain ⟨he, ha⟩ := ih hlt
    constructor
    · rw [List.replicate_succ, emits, hfeed, he, List.range'_succ]
      rfl
    · rw [List.replicate_succ, after, List.foldl_cons, hfeed]
      change after N floor ⟨T, s + 1, false⟩ (List.replicate m T) = _
      rw [ha]
      congr 1
      omega

theorem feed_exhausted {s : ℕ} (h : s + 1 = N) :
    feed N floor ⟨T, s, false⟩ T = (⟨T, 0, true⟩, none) := by
  simp [feed, h]

/-- The reading after the last sequence number issues nothing. -/
theorem repeat_eq {s m : ℕ} (h : s + m + 1 = N) :
    emits N floor ⟨T, s, false⟩ (List.replicate (m + 1) T) =
        (List.range' (s + 1) m).map (fun q => (T, q)) ∧
      after N floor ⟨T, s, false⟩ (List.replicate (m + 1) T) = ⟨T, 0, true⟩ := by
  have hlt : s + m < N := by omega
  obtain ⟨he, ha⟩ := repeat_lt N floor T hlt
  rw [List.replicate_succ', emits_append, after_append, he, ha]
  constructor
  · simp [emits, feed_exhausted N floor T h]
  · simp [after, feed_exhausted N floor T h]

/-- A waiting generator passes over readings up to `floor`. -/
theorem waiting_le {g : Gen} (hg : g.waiting = true) (hT : T ≤ floor) (m : ℕ) :
    emits N floor g (List.replicate m T) = [] ∧ after N floor g (List.replicate m T) = g := by
  have hfeed : feed N floor g T = (g, none) := by simp [feed, hg, hT]
  induction m with
  | zero => exact ⟨rfl, rfl⟩
  | succ m ih =>
    constructor
    · rw [List.replicate_succ, emits, hfeed, ih.1]
      rfl
    · rw [List.replicate_succ, after, List.foldl_cons, hfeed]
      exact ih.2

/-- A reading that is new, or above `floor` when the generator waits, is issued with sequence 0. -/
theorem feed_new {g : Gen} {t : ℕ} (h : if g.waiting then floor < t else g.last ≠ t) :
    feed N floor g t = (⟨t, 0, false⟩, some (t, 0)) := by
  unfold feed
  split at h
  · next hw => rw [if_pos hw, if_neg (by omega)]
  · next hw => rw [if_neg hw, if_neg h]

/-- The tickets of `m` more readings of a value issued with sequence 0, as long as the generator
does not come out of a wait. -/
theorem repeat_short {m : ℕ} (hN : 0 < N) (h : m ≤ N ∨ T ≤ floor) :
    emits N floor ⟨T, 0, false⟩ (List.replicate m T) =
      (List.range' 1 (min m (N - 1))).map (fun q => (T, q)) := by
  rcases Nat.lt_or_ge m N with hm | hm
  · have hlt : 0 + m < N := by omega
    rw [(repeat_lt N floor T hlt).1, Nat.min_eq_left (by omega)]
  · have hlast : 0 + (N - 1) + 1 = N := by omega
    obtain ⟨he, ha⟩ := repeat_eq N floor T hlast
    have hsplit : List.replicate m T = List.replicate (N - 1 + 1) T ++ List.replicate (m - N) T := by
      rw [List.replicate_append_replicate]
      congr 1
      omega
    rw [hsplit, emits_append, he, ha, Nat.min_eq_right (by omega)]
    rcases h with h | h
    · rw [show m - N = 0 by omega]
      simp [emits]
    · rw [(waiting_le N floor T rfl h (m - N)).1, List.append_nil]

/-- One reading after the exhausted one ends the wait on the very value that is used up. -/
theorem repeat_long {k : ℕ} (hN : 0 < N) (h : floor < T) :
    emits N floor ⟨T, 0, false⟩ (List.replicate (N + 1 + k) T) =
      (List.range' 1 (N - 1)).map (fun q => (T, q)) ++
        (T, 0) :: emits N floor ⟨T, 0, false⟩ (List.replicate k T) := by
  have hlast : 0 + (N - 1) + 1 = N := by omega
  obtain ⟨he, ha⟩ := repeat_eq N floor T hlast
  have hsplit : List.replicate (N + 1 + k) T =
      List.replicate (N - 1 + 1) T ++ T :: List.replicate k T := by
    rw [← List.replicate_succ, List.replicate_append_replicate]
    congr 1
    omega
  have hfeed : feed N floor ⟨T, 0, true⟩ T = (⟨T, 0, false⟩, some (T, 0)) := feed_new N floor h
  rw [hsplit, emits_append, he, ha, emits, hfeed]
  rfl

theorem nodup_range'_pairs (a m : ℕ) : ((List.range' a m).map fun q => (T, q)).Nodup :=
  (List.nodup_range').map fun _ _ h => (Prod.mk.inj h).2

/-- A generator fit to meet readings of `T`: if it stands at `T` it has issued sequence 0 only. -/
def Fit (g : Gen) : Prop := g.seq < N ∧ (g.waiting = false → g.last = T → g.seq = 0)

/-- Readings of one value repeat a pair exactly when the value is above `floor` and comes more than
`N + 1` times. -/
theorem block_nodup_iff (hN : 2 ≤ N) {g : Gen} (hg : Fit N T g) (m : ℕ) :
    (emits N floor g (List.replicate m T)).Nodup ↔ (floor < T → m ≤ N + 1) := by
  -- a block that starts with a fresh ticket `(T, 0)`
  have hnew : (if g.waiting then floor < T else g.last ≠ T) →
      ((emits N floor g (List.replicate m T)).Nodup ↔ (floor < T → m ≤ N + 1)) := by
    intro hn
    cases m with
    | zero => simp [emits]
    | succ m =>
      rw [List.replicate_succ, emits, feed_new N floor hn]
      simp only [Option.toList_some, List.singleton_append, List.nodup_cons]
      by_cases hshort : m ≤ N ∨ T ≤ floor
      · rw [repeat_short N floor T (by omega) hshort]
        refine iff_of_true ⟨?_, nodup_range'_pairs T _ _⟩ (by omega)
        simp
      · obtain ⟨k, rfl⟩ : ∃ k, m = N + 1 + k := ⟨m - (N + 1), by omega⟩
        rw [repeat_long N floor T (by omega) (by omega)]
        refine iff_of_false (fun h => h.1 ?_) (by omega)
        simp
  cases hw : g.waiting with
  | true =>
    by_cases hT : T ≤ floor
    · rw [(waiting_le N floor T hw hT m).1]
      exact iff_of_true List.nodup_nil (by omega)
    · exact hnew (by rw [if_pos hw]; omega)
  | false =>
    by_cases hlast : g.last = T
    · obtain ⟨last, seq, waiting⟩ := g
      obtain rfl : waiting = false := hw
      obtain rfl : last = T := hlast
      obtain rfl : seq = 0 := hg.2 rfl rfl
      by_cases hshort : m ≤ N ∨ last ≤ floor
      · rw [repeat_short N floor last (by omega) hshort]
        exact iff_of_true (nodup_range'_pairs last _ _) (by omega)
      · obtain ⟨k, rfl⟩ : ∃ k, m = N + 1 + k := ⟨m - (N + 1), by omega⟩
        rw [repeat_long N floor last (by omega) (by omega)]
        cases k with
        | zero =>
          refine iff_of_true ?_ (by omega)
          rw [List.nodup_append]
          refine ⟨nodup_range'_pairs last _ _, by simp [emits], ?_⟩
          simp only [List.mem_map, List.mem_range'_1, emits, List.replicate_zero, List.mem_singleton]
          rintro _ ⟨q, hq, rfl⟩ _ rfl he
          have hzero : q = 0 := (Prod.mk.inj he).2
          omega
        | succ k =>
          -- the next reading after `(T, 0)` issues `(T, 1)` again
          have hfeed : feed N floor ⟨last, 0, false⟩ last = (⟨last, 1, false⟩, some (last, 1)) := by
            have hne : ¬ 0 + 1 = N := by omega
            simp [feed, hne]
          rw [List.replicate_succ, emits, hfeed]
          refine iff_of_false ?_ (by omega)
          intro h
          have hdisj := (List.nodup_append.1 h).2.2 (last, 1) (by simp; omega) (last, 1) (by simp)
          exact hdisj rfl
    · exact hnew (by rw [if_neg (by simp [hw])]; exact hlast)

theorem fit_after {g : Gen} (hN : 0 < N) (hg : g.seq < N) {m : ℕ} {T' : ℕ} (hT : T < T') :
    Fit N T' (after N floor g (List.replicate (m + 1) T)) := by
  -- after a reading of `T` the generator waits or stands at `T`
  have hstep : ∀ g : Gen, g.seq < N → ∀ t, (feed N floor g t).1.seq < N ∧
      ((feed N floor g t).1.waiting = true ∨ (feed N floor g t).1.last = t) := by
    intro g hg t
    rcases feed_cases N floor g t with ⟨hw, hf⟩ | hf | ⟨s, hf, hs⟩ <;> rw [hf]
    · exact ⟨hg, Or.inl hw⟩
    · exact ⟨hN, Or.inl rfl⟩
    · refine ⟨?_, Or.inr rfl⟩
      rcases hs with rfl | ⟨rfl, hne⟩
      · exact hN
      · change g.seq + 1 < N
        omega
  have hrun : ∀ m : ℕ, (after N floor g (List.replicate m T)).seq < N := by
    intro m
    induction m with
    | zero => exact hg
    | succ m ih =>
      rw [List.replicate_succ', after_append]
      exact (hstep _ ih T).1
  rw [List.replicate_succ', after_append]
  obtain ⟨hseq, hor⟩ := hstep _ (hrun m) T
  refine ⟨hseq, ?_⟩
  intro hw hlast
  rcases hor with hor | hor
  · change (feed N floor (after N floor g (List.replicate m T)) T).1.waiting = false at hw
    rw [hor] at hw
    cases hw
  · change (feed N floor (after N floor g (List.replicate m T)) T).1.last = T' at hlast
    omega

end Block

/-! ## Sorted readings -/

/-- A sorted list starts with all its copies of its first element. -/
theorem sorted_eq_block {t : ℕ} {ts : List ℕ} (h : (t :: ts).Pairwise (· ≤ ·)) :
    ∃ us, t :: ts = List.replicate (ts.count t + 1) t ++ us ∧ us.Pairwise (· ≤ ·) ∧ (∀ u ∈ us, t < u) ∧
      us.length ≤ ts.length := by
  induction ts with
  | nil => exact ⟨[], rfl, List.Pairwise.nil, by simp, Nat.le_refl _⟩
  | cons u ts ih =>
    obtain ⟨htu, hts⟩ := List.pairwise_cons.1 h
    by_cases hu : u = t
    · subst hu
      obtain ⟨us, he, hs, hlt, hlen⟩ := ih hts
      refine ⟨us, ?_, hs, hlt, by simp only [List.length_cons]; omega⟩
      have hcount : (u :: ts).count u = ts.count u + 1 := List.count_cons_self
      rw [hcount, List.replicate_succ, List.cons_append, ← he]
    · have hlt : t < u := Nat.lt_of_le_of_ne (htu u List.mem_cons_self) (Ne.symm hu)
      have hall : ∀ x ∈ u :: ts, t < x := by
        intro x hx
        rcases List.mem_cons.1 hx with rfl | hx
        · exact hlt
        · exact Nat.lt_of_lt_of_le hlt ((List.pairwise_cons.1 hts).1 x hx)
      have hcount : (u :: ts).count t = 0 :=
        List.count_eq_zero.2 fun hmem => Nat.lt_irrefl t (hall t hmem)
      exact ⟨u :: ts, by rw [hcount]; rfl, hts, hall, Nat.le_refl _⟩

/-- **Repeated pairs.** On sorted readings no pair is issued twice exactly when no reading above
`floor` comes more than `N + 1` times. -/
theorem emits_nodup_iff {N floor : ℕ} (hN : 2 ≤ N) {g : Gen} {ts : List ℕ}
    (hs : ts.Pairwise (· ≤ ·)) (hg : g.seq < N)
    (hfit : ∀ t ∈ ts, Fit N t g) :
    (emits N floor g ts).Nodup ↔ ∀ T, floor < T → ts.count T ≤ N + 1 := by
  induction hlen : ts.length using Nat.strongRecOn generalizing ts g with
  | _ n ih =>
    cases ts with
    | nil => simp [emits]
    | cons t ts =>
      obtain ⟨us, he, hus, hlt, hle⟩ := sorted_eq_block hs
      have hrest := ih us.length (by rw [← hlen, List.length_cons]; omega) hus
        (fit_after N floor t (by omega) hg (Nat.lt_succ_self t)).1
        (fun u hu => fit_after N floor t (m := ts.count t) (by omega) hg (hlt u hu)) rfl
      have hblock := block_nodup_iff N floor t hN (hfit t List.mem_cons_self) (ts.count t + 1)
      have htu : us.count t = 0 := List.count_eq_zero.2 fun hmem => Nat.lt_irrefl t (hlt t hmem)
      have hdisj : ∀ x ∈ emits N floor g (List.replicate (ts.count t + 1) t),
          ∀ y ∈ emits N floor (after N floor g (List.replicate (ts.count t + 1) t)) us, x ≠ y := by
        intro x hx y hy hxy
        have hxt := List.eq_of_mem_replicate (emits_mem N floor (by omega) hg hx).1
        have hyu := (emits_mem N floor (by omega)
          (fit_after N floor t (by omega) hg (Nat.lt_succ_self t)).1 hy).1
        have := hlt _ hyu
        rw [← hxy, hxt] at this
        exact Nat.lt_irrefl t this
      rw [he, emits_append, List.nodup_append, hblock, hrest]
      constructor
      · rintro ⟨hb, hr, -⟩ T hT
        rw [List.count_append, List.count_replicate]
        by_cases hTt : T = t
        · subst hTt
          simp only [beq_self_eq_true, if_true, htu]
          exact hb hT
        · have hne : (t == T) = false := by simpa using fun h : t = T => hTt h.symm
          simp only [hne, Bool.false_eq_true, if_false, Nat.zero_add]
          exact hr T hT
      · intro h
        refine ⟨?_, ?_, hdisj⟩
        · intro hT
          have := h t hT
          rw [List.count_append, List.count_replicate_self, htu] at this
          exact this
        · intro T hT
          have := h T hT
          rw [List.count_append] at this
          omega

/-! ## Readings that never use the sequence up -/

/-- No reading comes often enough to use up the sequence numbers. -/
def Ready (N : ℕ) (g : Gen) (ts : List ℕ) : Prop :=
  g.waiting = false ∧ g.seq + ts.count g.last < N ∧ ∀ T, T ≠ g.last → ts.count T < N

/-- The sequence number the next reading gets. -/
def nextSeq (g : Gen) (t : ℕ) : ℕ := if g.last = t then g.seq + 1 else 0

/-- Each reading issues one ticket. -/
theorem Ready.emits_cons {N : ℕ} (floor : ℕ) {g : Gen} {t : ℕ} {ts : List ℕ}
    (h : Ready N g (t :: ts)) :
    emits N floor g (t :: ts) =
        (t, nextSeq g t) :: emits N floor ⟨t, nextSeq g t, false⟩ ts ∧
      Ready N ⟨t, nextSeq g t, false⟩ ts ∧ nextSeq g t < N := by
  obtain ⟨hw, hlast, hother⟩ := h
  unfold nextSeq
  by_cases ht : g.last = t
  · subst ht
    rw [List.count_cons_self] at hlast
    have hfeed : feed N floor g g.last = (⟨g.last, g.seq + 1, false⟩, some (g.last, g.seq + 1)) := by
      have hne : ¬ g.seq + 1 = N := by omega
      simp [feed, hw, hne]
    simp only [if_true]
    refine ⟨by rw [emits, hfeed]; rfl, ⟨rfl, ?_, ?_⟩, by omega⟩
    · change g.seq + 1 + ts.count g.last < N
      omega
    · intro T hT
      have := hother T hT
      rwa [List.count_cons_of_ne (Ne.symm hT)] at this
  · have hfeed : feed N floor g t = (⟨t, 0, false⟩, some (t, 0)) :=
      feed_new N floor (by rw [if_neg (by simp [hw])]; exact ht)
    have hcount := hother t (Ne.symm ht)
    rw [List.count_cons_self] at hcount
    simp only [ht, if_false]
    refine ⟨by rw [emits, hfeed]; rfl, ⟨rfl, ?_, ?_⟩, by omega⟩
    · change 0 + ts.count t < N
      omega
    · intro T hT
      by_cases hTl : T = g.last
      · subst hTl
        rw [List.count_cons_of_ne (Ne.symm hT)] at hlast
        omega
      · have := hother T hTl
        rwa [List.count_cons_of_ne (Ne.symm hT)] at this

/-- A relation between successive tickets is a relation between successive readings. -/
theorem Ready.isChain_cons_iff {N floor : ℕ} {R : ℕ × ℕ → ℕ × ℕ → Prop} {S : ℕ → ℕ → Prop}
    (hRS : ∀ t s u, s < N → nextSeq ⟨t, s, false⟩ u < N →
      (R (t, s) (u, nextSeq ⟨t, s, false⟩ u) ↔ S t u))
    {t s : ℕ} {ts : List ℕ} (h : Ready N ⟨t, s, false⟩ ts) (hs : s < N) :
    ((t, s) :: emits N floor ⟨t, s, false⟩ ts).IsChain R ↔ (t :: ts).IsChain S := by
  induction ts generalizing t s with
  | nil => simp [emits]
  | cons u ts ih =>
    obtain ⟨he, hready, hlt⟩ := h.emits_cons floor
    rw [he, List.isChain_cons_cons, List.isChain_cons_cons, hRS t s u hs hlt, ih hready hlt]

theorem Ready.isChain_iff {N floor : ℕ} {R : ℕ × ℕ → ℕ × ℕ → Prop} {S : ℕ → ℕ → Prop}
    (hRS : ∀ t s u, s < N → nextSeq ⟨t, s, false⟩ u < N →
      (R (t, s) (u, nextSeq ⟨t, s, false⟩ u) ↔ S t u))
    {g : Gen} {ts : List ℕ} (h : Ready N g ts) :
    (emits N floor g ts).IsChain R ↔ ts.IsChain S := by
  cases ts with
  | nil => simp [emits]
  | cons t ts =>
    obtain ⟨he, hready, hlt⟩ := h.emits_cons floor
    rw [he]
    exact hready.isChain_cons_iff hRS hlt

/-! ## Readings in any order -/

section Starts

variable {α β : Type*} [DecidableEq α] [DecidableEq β]

/-- The readings that differ from the one before them, where `last` comes before the first. -/
def starts (last : α) : List α → List α
  | [] => []
  | t :: ts => if last = t then starts t ts else t :: starts t ts

/-- No reading comes back after a different one. What the generator stands at, where it is read
first, may come back for a single reading. -/
def NoReturn (last : α) (ts : List α) : Prop :=
  (starts last ts).Nodup ∧ (ts.head? = some last → (ts.dropWhile (· = last)).count last ≤ 1)

instance (last : α) (ts : List α) : Decidable (NoReturn last ts) :=
  inferInstanceAs (Decidable (_ ∧ _))

theorem mem_starts_of_mem (last : α) {t : α} {ts : List α} (h : t ∈ ts) :
    t = last ∨ t ∈ starts last ts := by
  induction ts generalizing last with
  | nil => cases h
  | cons u ts ih =>
    unfold starts
    rcases List.mem_cons.1 h with rfl | h
    · by_cases hlast : last = t
      · exact .inl hlast.symm
      · simp [hlast]
    · rcases ih u h with rfl | h
      · by_cases hlast : last = t
        · exact .inl hlast.symm
        · simp [hlast]
      · split
        · exact .inr h
        · exact .inr (List.mem_cons_of_mem u h)

theorem starts_map {f : α → β} (hf : Function.Injective f) (last : α) (ts : List α) :
    starts (f last) (ts.map f) = (starts last ts).map f := by
  induction ts generalizing last with
  | nil => rfl
  | cons t ts ih =>
    simp only [List.map_cons, starts, hf.eq_iff, ih]
    split <;> rfl

theorem noReturn_map_iff {f : α → β} (hf : Function.Injective f) (last : α) (ts : List α) :
    NoReturn (f last) (ts.map f) ↔ NoReturn last ts := by
  have hcount : ((ts.map f).dropWhile (· = f last)).count (f last) =
      (ts.dropWhile (· = last)).count last := by
    have hdrop : (ts.map f).dropWhile (· = f last) = (ts.dropWhile (· = last)).map f := by
      rw [List.dropWhile_map]
      congr 2
      funext t
      simp [hf.eq_iff]
    rw [hdrop, List.count_map_of_injective _ _ hf]
  have hhead : (ts.map f).head? = some (f last) ↔ ts.head? = some last := by
    rw [List.head?_map]
    exact (Option.map_injective hf).eq_iff (b := some last)
  rw [NoReturn, NoReturn, starts_map hf, List.nodup_map_iff hf, hcount, hhead]

end Starts

section Returns

variable {N : ℕ} (floor : ℕ) {g : Gen} {ts : List ℕ}

theorem Ready.map_fst (h : Ready N g ts) : (emits N floor g ts).map Prod.fst = ts := by
  induction ts generalizing g with
  | nil => rfl
  | cons t ts ih =>
    obtain ⟨he, hready, -⟩ := h.emits_cons floor
    rw [he, List.map_cons, ih hready]

/-- A reading that differs from the one before it is issued with sequence 0. -/
theorem Ready.mem_of_mem_starts (h : Ready N g ts) {t : ℕ} (ht : t ∈ starts g.last ts) :
    (t, 0) ∈ emits N floor g ts := by
  induction ts generalizing g with
  | nil => cases ht
  | cons u ts ih =>
    obtain ⟨he, hready, -⟩ := h.emits_cons floor
    rw [he]
    by_cases hlast : g.last = u
    · rw [starts, if_pos hlast] at ht
      exact List.mem_cons_of_mem _ (ih hready ht)
    · rw [starts, if_neg hlast] at ht
      rcases List.mem_cons.1 ht with rfl | ht
      · rw [nextSeq, if_neg hlast]
        exact List.mem_cons_self
      · exact List.mem_cons_of_mem _ (ih hready ht)

/-- A sequence number is issued after the one below it, unless the generator stands there. -/
theorem Ready.mem_of_mem_succ (h : Ready N g ts) {t q : ℕ} (hq : (t, q + 1) ∈ emits N floor g ts) :
    (t, q) ∈ emits N floor g ts ∨ t = g.last ∧ q = g.seq := by
  induction ts generalizing g with
  | nil => cases hq
  | cons u ts ih =>
    obtain ⟨he, hready, -⟩ := h.emits_cons floor
    rw [he] at hq ⊢
    rcases List.mem_cons.1 hq with hq | hq
    · by_cases hlast : g.last = u
      · rw [nextSeq, if_pos hlast] at hq
        cases hq
        exact .inr ⟨hlast.symm, rfl⟩
      · rw [nextSeq, if_neg hlast] at hq
        cases hq
    · rcases ih hready hq with hq | ⟨rfl, rfl⟩
      · exact .inl (List.mem_cons_of_mem _ hq)
      · exact .inl List.mem_cons_self

/-- The sequence numbers of a reading other than the one the generator stands at start at 0. -/
theorem Ready.mem_of_le (h : Ready N g ts) {t q r : ℕ} (ht : t ≠ g.last) (hrq : r ≤ q)
    (hq : (t, q) ∈ emits N floor g ts) : (t, r) ∈ emits N floor g ts := by
  induction q with
  | zero =>
    obtain rfl : r = 0 := by omega
    exact hq
  | succ q ih =>
    rcases Nat.lt_or_eq_of_le hrq with hlt | rfl
    · exact ih (by omega) ((h.mem_of_mem_succ floor hq).resolve_right fun hlast => ht hlast.1)
    · exact hq

theorem nodup_range_pairs (t m : ℕ) : ((List.range m).map fun q => (t, q)).Nodup := by
  rw [List.range_eq_range']
  exact nodup_range'_pairs t 0 m

/-- After the tickets `(t, 0)` to `(t, s)` no pair is issued again exactly if no reading comes
back, `t` among them. -/
theorem Ready.nodup_after_iff {t s : ℕ} (h : Ready N ⟨t, s, false⟩ ts) :
    ((List.range (s + 1)).map (fun q => (t, q)) ++ emits N floor ⟨t, s, false⟩ ts).Nodup ↔
      (t :: starts t ts).Nodup := by
  induction ts generalizing t s with
  | nil => simp [emits, starts, nodup_range_pairs]
  | cons u ts ih =>
    obtain ⟨he, hready, -⟩ := h.emits_cons floor
    by_cases htu : t = u
    · subst htu
      rw [nextSeq, if_pos rfl] at he hready
      rw [he, List.append_cons, starts, if_pos rfl, ← ih hready, List.range_succ (n := s + 1),
        List.map_append]
      rfl
    · rw [nextSeq, if_neg htu] at he hready
      have hih := ih hready
      rw [show (List.range (0 + 1)).map (fun q => (u, q)) = [(u, 0)] from rfl,
        List.singleton_append] at hih
      rw [he, List.nodup_append, hih, starts, if_neg htu, List.nodup_cons (a := t)]
      constructor
      · rintro ⟨-, hstarts, hdisj⟩
        refine ⟨?_, hstarts⟩
        intro ht
        have ht' := (List.mem_cons.1 ht).resolve_left htu
        exact hdisj (t, 0) (by simp) (t, 0)
          (List.mem_cons_of_mem _ (hready.mem_of_mem_starts floor ht')) rfl
      · rintro ⟨ht, hstarts⟩
        refine ⟨nodup_range_pairs t (s + 1), hstarts, ?_⟩
        intro x hx y hy hxy
        obtain ⟨q, -, rfl⟩ := List.mem_map.1 hx
        subst hxy
        rcases List.mem_cons.1 hy with hy | hy
        · exact htu (Prod.mk.inj hy).1
        · have hread : t ∈ ts := by
            rw [← hready.map_fst floor]
            exact List.mem_map_of_mem hy
          exact ht (List.mem_cons.2 (mem_starts_of_mem u hread))

/-- Pairs that are distinct, and all the same where the first component is `t`. -/
theorem count_map_fst_le_one {E : List (ℕ × ℕ)} {t : ℕ} (hE : E.Nodup)
    (h : ∀ q, (t, q) ∈ E → q = 0) : (E.map Prod.fst).count t ≤ 1 := by
  induction E with
  | nil => exact Nat.zero_le 1
  | cons x E ih =>
    obtain ⟨hx, hE⟩ := List.nodup_cons.1 hE
    have hih := ih hE fun q hq => h q (List.mem_cons_of_mem x hq)
    obtain ⟨u, r⟩ := x
    by_cases hu : u = t
    · subst hu
      obtain rfl := h r List.mem_cons_self
      have hnone : u ∉ E.map Prod.fst := by
        intro hmem
        obtain ⟨⟨v, q⟩, hv, rfl⟩ := List.mem_map.1 hmem
        obtain rfl := h q (List.mem_cons_of_mem _ hv)
        exact hx hv
      rw [List.map_cons, List.count_cons_self, List.count_eq_zero.2 hnone]
    · rw [List.map_cons, List.count_cons_of_ne hu]
      exact hih

/-- Two pairs with one first component. -/
theorem two_le_count_map_fst {E : List (ℕ × ℕ)} {t q r : ℕ} (hq : (t, q) ∈ E) (hr : (t, r) ∈ E)
    (hne : q ≠ r) : 2 ≤ (E.map Prod.fst).count t := by
  have hnodup : [(t, q), (t, r)].Nodup := by simp [hne]
  have hsub : [(t, q), (t, r)] ⊆ E := by
    intro x hx
    simp only [List.mem_cons, List.not_mem_nil, or_false] at hx
    rcases hx with rfl | rfl
    · exact hq
    · exact hr
  obtain ⟨l, hperm, hl⟩ := hnodup.subperm hsub
  have hcount := (hl.map Prod.fst).count_le t
  rw [(hperm.map Prod.fst).count_eq] at hcount
  simpa using hcount

/-- After the tickets `(t, 1)` to `(t, s)`, with `(t, 0)` left out. -/
theorem Ready.nodup_from_one_iff {t s : ℕ} (h : Ready N ⟨t, s, false⟩ ts) :
    ((List.range' 1 s).map (fun q => (t, q)) ++ emits N floor ⟨t, s, false⟩ ts).Nodup ↔
      (starts t ts).Nodup ∧
        (0 < s ∨ ts.head? = some t → (ts.dropWhile (· = t)).count t ≤ 1) := by
  induction ts generalizing s with
  | nil => simp [emits, starts, nodup_range'_pairs]
  | cons u ts ih =>
    obtain ⟨he, hready, -⟩ := h.emits_cons floor
    by_cases htu : t = u
    · subst htu
      rw [nextSeq, if_pos rfl] at he hready
      have hsplit : (List.range' 1 s).map (fun q => (t, q)) ++
          (t, s + 1) :: emits N floor ⟨t, s + 1, false⟩ ts =
          (List.range' 1 (s + 1)).map (fun q => (t, q)) ++ emits N floor ⟨t, s + 1, false⟩ ts := by
        rw [List.range'_concat, List.map_append, List.append_assoc]
        simp [Nat.add_comm]
      rw [he, hsplit, ih hready]
      simp [starts]
    · rw [nextSeq, if_neg htu] at he hready
      have hback := hready.nodup_after_iff floor
      rw [show (List.range (0 + 1)).map (fun q => (u, q)) = [(u, 0)] from rfl,
        List.singleton_append] at hback
      have hdrop : (u :: ts).dropWhile (· = t) = u :: ts := by simp [Ne.symm htu]
      rw [he, List.nodup_append, hback, starts, if_neg htu, hdrop,
        and_iff_right (nodup_range'_pairs t 1 s)]
      refine and_congr_right ?_
      intro hstarts
      have hfst : ((u, 0) :: emits N floor ⟨u, 0, false⟩ ts).map Prod.fst = u :: ts := by
        rw [List.map_cons, hready.map_fst floor]
      have hmem : ∀ q, (t, q) ∈ (u, 0) :: emits N floor ⟨u, 0, false⟩ ts →
          (t, q) ∈ emits N floor ⟨u, 0, false⟩ ts := by
        intro q hq
        exact (List.mem_cons.1 hq).resolve_left fun hq => htu (Prod.mk.inj hq).1
      rw [← hfst]
      constructor
      · intro hdisj hs
        have hpos : 0 < s := hs.resolve_right fun hu => htu (Option.some.inj hu).symm
        refine count_map_fst_le_one (hback.2 hstarts) ?_
        intro q hq
        by_contra hzero
        have hone := hready.mem_of_le floor htu (r := 1) (by omega) (hmem q hq)
        exact hdisj (t, 1) (by simp; omega) (t, 1) (List.mem_cons_of_mem _ hone) rfl
      · intro hcount x hx y hy hxy
        obtain ⟨q, hq, rfl⟩ := List.mem_map.1 hx
        subst hxy
        rw [List.mem_range'_1] at hq
        have hzero := hready.mem_of_le floor htu (Nat.zero_le q) (hmem q hy)
        have htwo := two_le_count_map_fst hy (List.mem_cons_of_mem _ hzero) (by omega)
        have hle := hcount (.inl (by omega))
        omega

/-- **Pairs in any order.** Where each reading issues one ticket and the generator starts at
sequence 0, no pair is issued twice exactly if no reading comes back. -/
theorem Ready.emits_nodup_iff_noReturn (hseq : g.seq = 0) (h : Ready N g ts) :
    (emits N floor g ts).Nodup ↔ NoReturn g.last ts := by
  obtain ⟨last, seq, waiting⟩ := g
  obtain rfl : seq = 0 := hseq
  obtain rfl : waiting = false := h.1
  have hone := h.nodup_from_one_iff floor
  simpa [NoReturn] using hone

end Returns

end SequenceClock
