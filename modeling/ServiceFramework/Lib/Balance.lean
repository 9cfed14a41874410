import Mathlib.Data.List.Induction
import Mathlib.Tactic.Common

/-!
# Balanced sequences

Some elements of a sequence open and some close. The sequence is balanced if no prefix of it closes
more often than it opens. Elements that do neither do not matter, so a sequence and what its
elements are expanded to are balanced together (`balanced_flatMap_iff`). With at most one opening
there is at most one closing, after it (`balanced_iff_of_countP_le_one`).
-/

namespace Balance

variable {α β : Type*}

/-- No prefix has more closings than openings. -/
def Balanced (opens closes : α → Bool) (l : List α) : Prop :=
  ∀ p, p <+: l → p.countP closes ≤ p.countP opens

variable {opens closes : α → Bool}

theorem balanced_nil : Balanced opens closes [] := by
  intro p hp
  rw [List.prefix_nil.1 hp]
  exact Nat.le_refl 0

/-- Elements of which none opens or none closes need to be counted at their end only. -/
theorem balanced_append_iff (l : List α) {m : List α}
    (hm : m.countP opens = 0 ∨ m.countP closes = 0) :
    Balanced opens closes (l ++ m) ↔
      Balanced opens closes l ∧ (l ++ m).countP closes ≤ (l ++ m).countP opens := by
  constructor
  · intro h
    exact ⟨fun p hp => h p (hp.trans (List.prefix_append l m)), h _ List.prefix_rfl⟩
  · rintro ⟨hl, hend⟩ p hp
    rcases List.prefix_or_prefix_of_prefix hp (List.prefix_append l m) with hp | ⟨q, rfl⟩
    · exact hl p hp
    · have hq := ((List.prefix_append_right_inj l).1 hp).sublist
      have hopens := hq.countP_le (p := opens)
      have hcloses := hq.countP_le (p := closes)
      have hle := hl l List.prefix_rfl
      simp only [List.countP_append] at hend ⊢
      omega

/-- What each element is expanded to opens and closes as often as the element does. -/
theorem balanced_flatMap_iff {f : β → List α} {opens' closes' : β → Bool}
    (hopens : ∀ b, (f b).countP opens = [b].countP opens')
    (hcloses : ∀ b, (f b).countP closes = [b].countP closes')
    (hone : ∀ b, opens' b = false ∨ closes' b = false) (l : List β) :
    Balanced opens closes (l.flatMap f) ↔ Balanced opens' closes' l := by
  -- an element counts as what it is expanded to
  have hcount {p : α → Bool} {p' : β → Bool} (h : ∀ b, (f b).countP p = [b].countP p')
      (l : List β) : (l.flatMap f).countP p = l.countP p' := by
    induction l with
    | nil => rfl
    | cons b l ih => rw [List.flatMap_cons, List.countP_append, h, ih, ← List.countP_append]; rfl
  induction l using List.reverseRecOn with
  | nil => exact iff_of_true balanced_nil balanced_nil
  | append_singleton l b ih =>
    have hb : [b].countP opens' = 0 ∨ [b].countP closes' = 0 := by
      simpa using hone b
    have hfb : (f b).countP opens = 0 ∨ (f b).countP closes = 0 := by
      rwa [hopens, hcloses]
    rw [List.flatMap_append, List.flatMap_singleton]
    refine (balanced_append_iff _ hfb).trans
      ((and_congr ih ?_).trans (balanced_append_iff l hb).symm)
    simp only [List.countP_append, hcount hopens, hcount hcloses, hopens, hcloses]

/-- With one opening at most: one closing at most, and an opening in front of it. -/
theorem balanced_iff_of_countP_le_one (hone : ∀ a, opens a = false ∨ closes a = false)
    {l : List α} (hl : l.countP opens ≤ 1) :
    Balanced opens closes l ↔ l.countP closes ≤ 1 ∧
      ∀ p a q, l = p ++ a :: q → closes a = true → ∃ b ∈ p, opens b = true := by
  constructor
  · intro h
    refine ⟨Nat.le_trans (h l List.prefix_rfl) hl, ?_⟩
    rintro p a q rfl ha
    have hle := h (p ++ [a]) ⟨q, by rw [List.append_assoc]; rfl⟩
    have ha' : opens a = false := by simpa [ha] using hone a
    rw [List.countP_append, List.countP_append, List.countP_singleton, List.countP_singleton,
      if_pos ha, if_neg (by simp [ha'])] at hle
    exact List.countP_pos_iff.1 (by omega)
  · rintro ⟨hle, hafter⟩ p ⟨r, rfl⟩
    have hsub := (List.sublist_append_left p r).countP_le (p := closes)
    rcases Nat.eq_zero_or_pos (p.countP closes) with hzero | hpos
    · omega
    · obtain ⟨a, ha, hcloses⟩ := List.countP_pos_iff.1 hpos
      obtain ⟨p₁, p₂, rfl⟩ := List.append_of_mem ha
      obtain ⟨b, hb, hopens⟩ := hafter p₁ a (p₂ ++ r) (by rw [List.append_assoc]; rfl) hcloses
      have hopen : 0 < (p₁ ++ a :: p₂).countP opens :=
        List.countP_pos_iff.2 ⟨b, List.mem_append_left _ hb, hopens⟩
      omega

end Balance
