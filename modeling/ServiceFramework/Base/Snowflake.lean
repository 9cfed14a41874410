import ServiceFramework.Lib.BitField
import ServiceFramework.Lib.SequenceClock
import Mathlib.Data.List.Count

/-!
# Snowflake ids

`IdWorker` (`base/snowflake_id_util.cc`) packs a millisecond clock, two 5-bit ids and a 12-bit
sequence number into a 64-bit id. The clock is the list of the readings `gettimeofday` is going
to give; a call that finds no reading left has not returned yet.

A call is one ticket of the sequence clock with `N = 4096` and `floor = 0` (`nextIDs_toNat`): the
wait loop is given the sequence number, which is zero there, where `last_timestamp_` belongs. The
packing keeps 25 bits of the clock, where the layout comment of the header promises 41.

Inside a block of `2^25` ms ids repeat under load (`ids_unique_iff`) and when the clock goes back
(`ids_unique_iff_noReturn`). The fields never overlap, so generators with different ids never meet
(`ids_eq_iff_fields`).
-/

namespace ServiceFramework.Base

open SequenceClock

/-! ## The generator -/

/-- The members of `IdWorker`. -/
structure IdWorker where
  workerId : UInt16
  dataCenterId : UInt16
  lastTimestamp : UInt64
  sequenceNumber : UInt32 := 0

namespace IdWorker

/-- `nowInMsec`: the next reading and the readings after it. -/
def nowInMsec : List UInt64 → Option (UInt64 × List UInt64)
  | [] => none
  | timestamp :: clock => some (timestamp, clock)

/-- `tilNextMillis`: read the clock until it is above `lastTimestamp`. -/
def tilNextMillis (lastTimestamp : UInt64) : List UInt64 → Option (UInt64 × List UInt64)
  | [] => none
  | timestamp :: clock =>
    if timestamp ≤ lastTimestamp then tilNextMillis lastTimestamp clock
    else some (timestamp, clock)

/-- The return expression of `GetNextID`. -/
def pack (w : IdWorker) (timestamp : UInt64) : UInt64 :=
  (timestamp &&& 0x1FFFFFF) <<< 22 |||
    (w.dataCenterId &&& 0x1F).toUInt64 <<< 17 |||
    (w.workerId &&& 0x1F).toUInt64 <<< 12 |||
    (w.sequenceNumber &&& 0xFFF).toUInt64

/-- `GetNextID`: the id, the generator after the call and the readings left. -/
def getNextID (w : IdWorker) (clock : List UInt64) :
    Option (UInt64 × IdWorker × List UInt64) := do
  let (timestamp, clock) ← nowInMsec clock
  if w.lastTimestamp = timestamp then
    let sequenceNumber := (w.sequenceNumber + 1) &&& 0xFFF
    if sequenceNumber = 0 then
      let (timestamp, clock) ← tilNextMillis sequenceNumber.toUInt64 clock
      let w := { w with lastTimestamp := timestamp, sequenceNumber }
      return (w.pack timestamp, w, clock)
    else
      let w := { w with lastTimestamp := timestamp, sequenceNumber }
      return (w.pack timestamp, w, clock)
  else
    let w := { w with lastTimestamp := timestamp, sequenceNumber := 0 }
    return (w.pack timestamp, w, clock)

/-- The ids of at most `n` successive calls, as far as the readings let them return. -/
def nextIDs : ℕ → IdWorker → List UInt64 → List UInt64
  | 0, _, _ => []
  | n + 1, w, clock =>
    match w.getNextID clock with
    | none => []
    | some (id, w, clock) => id :: nextIDs n w clock

/-! ## The layout of an id -/

/-- The number an id stands for, from its four fields. -/
def layout (timestamp dataCenterId workerId sequenceNumber : ℕ) : ℕ :=
  timestamp % 2 ^ 25 * 2 ^ 22 + dataCenterId % 32 * 2 ^ 17 + workerId % 32 * 2 ^ 12 +
    sequenceNumber % 4096

theorem pack_toNat (w : IdWorker) (timestamp : UInt64) :
    (w.pack timestamp).toNat =
      layout timestamp.toNat w.dataCenterId.toNat w.workerId.toNat w.sequenceNumber.toNat := by
  have hts : timestamp.toNat &&& 0x1FFFFFF = timestamp.toNat % 2 ^ 25 :=
    Nat.and_two_pow_sub_one_eq_mod _ 25
  have hdc : w.dataCenterId.toNat &&& 0x1F = w.dataCenterId.toNat % 32 :=
    Nat.and_two_pow_sub_one_eq_mod _ 5
  have hwk : w.workerId.toNat &&& 0x1F = w.workerId.toNat % 32 :=
    Nat.and_two_pow_sub_one_eq_mod _ 5
  have hseq : w.sequenceNumber.toNat &&& 0xFFF = w.sequenceNumber.toNat % 4096 :=
    Nat.and_two_pow_sub_one_eq_mod _ 12
  have h12 : (w.workerId.toNat % 32) <<< 12 ||| w.sequenceNumber.toNat % 4096 =
      w.workerId.toNat % 32 * 2 ^ 12 + w.sequenceNumber.toNat % 4096 :=
    BitField.shiftLeft_or_eq_add (by omega)
  have h17 : (w.dataCenterId.toNat % 32) <<< 17 |||
      (w.workerId.toNat % 32 * 2 ^ 12 + w.sequenceNumber.toNat % 4096) =
      w.dataCenterId.toNat % 32 * 2 ^ 17 +
        (w.workerId.toNat % 32 * 2 ^ 12 + w.sequenceNumber.toNat % 4096) :=
    BitField.shiftLeft_or_eq_add (by omega)
  have h22 : (timestamp.toNat % 2 ^ 25) <<< 22 ||| (w.dataCenterId.toNat % 32 * 2 ^ 17 +
      (w.workerId.toNat % 32 * 2 ^ 12 + w.sequenceNumber.toNat % 4096)) =
      timestamp.toNat % 2 ^ 25 * 2 ^ 22 + (w.dataCenterId.toNat % 32 * 2 ^ 17 +
        (w.workerId.toNat % 32 * 2 ^ 12 + w.sequenceNumber.toNat % 4096)) :=
    BitField.shiftLeft_or_eq_add (by omega)
  -- no field is shifted out of the word
  have fts : (timestamp.toNat % 2 ^ 25) <<< 22 % 2 ^ 64 = (timestamp.toNat % 2 ^ 25) <<< 22 := by
    simp only [Nat.shiftLeft_eq]
    omega
  have fdc : (w.dataCenterId.toNat % 32) <<< 17 % 2 ^ 64 = (w.dataCenterId.toNat % 32) <<< 17 := by
    simp only [Nat.shiftLeft_eq]
    omega
  have fwk : (w.workerId.toNat % 32) <<< 12 % 2 ^ 64 = (w.workerId.toNat % 32) <<< 12 := by
    simp only [Nat.shiftLeft_eq]
    omega
  have hword : (w.pack timestamp).toNat =
      (timestamp.toNat &&& 0x1FFFFFF) <<< 22 % 2 ^ 64 |||
        (w.dataCenterId.toNat &&& 0x1F) <<< 17 % 2 ^ 64 |||
        (w.workerId.toNat &&& 0x1F) <<< 12 % 2 ^ 64 ||| (w.sequenceNumber.toNat &&& 0xFFF) := by
    simp only [pack, UInt64.toNat_or, UInt64.toNat_shiftLeft, UInt64.toNat_and,
      UInt16.toNat_toUInt64, UInt32.toNat_toUInt64, UInt16.toNat_and, UInt32.toNat_and]
    rfl
  rw [hword, hts, hdc, hwk, hseq, fts, fdc, fwk, Nat.or_assoc, Nat.or_assoc, h12, h17, h22, layout]
  omega

theorem layout_inj {d w d' w' t s t' s' : ℕ} :
    layout t d w s = layout t' d' w' s' ↔
      t % 2 ^ 25 = t' % 2 ^ 25 ∧ d % 32 = d' % 32 ∧ w % 32 = w' % 32 ∧ s % 4096 = s' % 4096 := by
  unfold layout
  omega

theorem layout_lt_iff {d w t s t' s' : ℕ} :
    layout t d w s < layout t' d w s' ↔
      t % 2 ^ 25 < t' % 2 ^ 25 ∨ t % 2 ^ 25 = t' % 2 ^ 25 ∧ s % 4096 < s' % 4096 := by
  unfold layout
  omega

/-! ## Calls as tickets of a sequence clock -/

/-- The generator as a sequence clock. -/
def toGen (w : IdWorker) : Gen := ⟨w.lastTimestamp.toNat, w.sequenceNumber.toNat, false⟩

/-- The id a ticket becomes. -/
def issue (w : IdWorker) (ticket : ℕ × ℕ) : ℕ :=
  layout ticket.1 w.dataCenterId.toNat w.workerId.toNat ticket.2

/-- The wait loop as it is called, with the zero sequence number for its bound. -/
theorem tilNextMillis_cases {g : Gen} (hg : g.waiting = true) (clock : List UInt64) :
    (tilNextMillis 0 clock = none ∧ emits 4096 0 g (clock.map UInt64.toNat) = []) ∨
      ∃ timestamp rest, tilNextMillis 0 clock = some (timestamp, rest) ∧
        emits 4096 0 g (clock.map UInt64.toNat) =
          (timestamp.toNat, 0) :: emits 4096 0 ⟨timestamp.toNat, 0, false⟩ (rest.map UInt64.toNat) := by
  induction clock with
  | nil => exact Or.inl ⟨rfl, rfl⟩
  | cons timestamp clock ih =>
    by_cases hle : timestamp ≤ 0
    · have hzero : timestamp.toNat ≤ 0 := UInt64.le_iff_toNat_le.1 hle
      have hfeed : feed 4096 0 g timestamp.toNat = (g, none) := by simp [feed, hg, hzero]
      simpa [tilNextMillis, hle, emits, hfeed] using ih
    · have hpos : ¬ timestamp.toNat ≤ 0 := fun h => hle (UInt64.le_iff_toNat_le.2 h)
      have hfeed := feed_new 4096 0 (g := g) (t := timestamp.toNat)
        (by rw [if_pos hg]; omega)
      exact Or.inr ⟨timestamp, clock, by simp [tilNextMillis, hle],
        by rw [List.map_cons, emits, hfeed]; rfl⟩

theorem sequenceNumber_succ_toNat {s : UInt32} (h : s.toNat < 4096) :
    ((s + 1) &&& 0xFFF).toNat = (s.toNat + 1) % 4096 := by
  rw [UInt32.toNat_and, UInt32.toNat_add]
  change ((s.toNat + 1) % 2 ^ 32) &&& 0xFFF = _
  rw [Nat.mod_eq_of_lt (by omega)]
  exact Nat.and_two_pow_sub_one_eq_mod _ 12

/-- A call that returns has issued the next ticket, and a call that does not return was given no
reading that issues one. -/
theorem getNextID_cases {w : IdWorker} (hw : w.sequenceNumber.toNat < 4096)
    (clock : List UInt64) :
    (w.getNextID clock = none ∧ emits 4096 0 w.toGen (clock.map UInt64.toNat) = []) ∨
      ∃ w' rest, w.getNextID clock = some (w'.pack w'.lastTimestamp, w', rest) ∧
        w'.workerId = w.workerId ∧ w'.dataCenterId = w.dataCenterId ∧
        w'.sequenceNumber.toNat < 4096 ∧
        emits 4096 0 w.toGen (clock.map UInt64.toNat) =
          (w'.lastTimestamp.toNat, w'.sequenceNumber.toNat) ::
            emits 4096 0 w'.toGen (rest.map UInt64.toNat) := by
  cases clock with
  | nil => exact Or.inl ⟨rfl, rfl⟩
  | cons timestamp clock =>
    have hseq := sequenceNumber_succ_toNat hw
    by_cases hlast : w.lastTimestamp = timestamp
    · by_cases hzero : (w.sequenceNumber + 1) &&& 0xFFF = 0
      · have hfull : w.sequenceNumber.toNat + 1 = 4096 := by
          rw [hzero] at hseq
          change 0 = _ at hseq
          omega
        have hfeed : feed 4096 0 w.toGen timestamp.toNat = (⟨timestamp.toNat, 0, true⟩, none) := by
          simp [feed, toGen, hlast, hfull]
        rcases tilNextMillis_cases (g := ⟨timestamp.toNat, 0, true⟩) rfl clock with
          ⟨hn, he⟩ | ⟨t, rest, hs, he⟩
        · left
          refine ⟨?_, ?_⟩
          · simp [getNextID, nowInMsec, hlast, hzero, hn]
          · rw [List.map_cons, emits, hfeed]
            exact he
        · right
          refine ⟨{ w with lastTimestamp := t, sequenceNumber := 0 }, rest, ?_, rfl, rfl,
            (by decide : (0 : UInt32).toNat < 4096), ?_⟩
          · simp [getNextID, nowInMsec, hlast, hzero, hs]
          · rw [List.map_cons, emits, hfeed]
            exact he
      · have hnext : w.sequenceNumber.toNat + 1 ≠ 4096 := by
          intro hfull
          apply hzero
          apply UInt32.toNat_inj.1
          rw [hseq, hfull]
          rfl
        have hfeed : feed 4096 0 w.toGen timestamp.toNat =
            (⟨timestamp.toNat, w.sequenceNumber.toNat + 1, false⟩,
              some (timestamp.toNat, w.sequenceNumber.toNat + 1)) := by
          simp [feed, toGen, hlast, hnext]
        rw [Nat.mod_eq_of_lt (by omega)] at hseq
        right
        refine ⟨{ w with
          lastTimestamp := timestamp
          sequenceNumber := (w.sequenceNumber + 1) &&& 0xFFF }, clock, ?_, rfl, rfl, ?_, ?_⟩
        · simp [getNextID, nowInMsec, hlast, hzero]
        · rw [hseq]
          omega
        · rw [List.map_cons, emits, hfeed]
          simp [toGen, hseq]
    · have hne : w.lastTimestamp.toNat ≠ timestamp.toNat := fun h => hlast (UInt64.toNat_inj.1 h)
      have hfeed : feed 4096 0 w.toGen timestamp.toNat =
          (⟨timestamp.toNat, 0, false⟩, some (timestamp.toNat, 0)) := by
        simp [feed, toGen, hne]
      right
      refine ⟨{ w with lastTimestamp := timestamp, sequenceNumber := 0 }, clock, ?_, rfl, rfl,
        (by decide : (0 : UInt32).toNat < 4096), ?_⟩
      · simp [getNextID, nowInMsec, hlast]
      · rw [List.map_cons, emits, hfeed]
        rfl

/-- A call keeps the ids of its generator and packs them. -/
theorem getNextID_packs {w w' : IdWorker} {clock rest : List UInt64} {id : UInt64}
    (h : w.getNextID clock = some (id, w', rest)) :
    w'.workerId = w.workerId ∧ w'.dataCenterId = w.dataCenterId ∧ ∃ t, id = w'.pack t := by
  cases clock with
  | nil => cases h
  | cons timestamp clock =>
    simp only [getNextID, nowInMsec, Option.bind_eq_bind, Option.bind_some] at h
    split at h
    · split at h
      · obtain ⟨⟨t, rest⟩, -, hr⟩ := Option.bind_eq_some_iff.1 h
        cases hr
        exact ⟨rfl, rfl, t, rfl⟩
      · cases h
        exact ⟨rfl, rfl, timestamp, rfl⟩
    · cases h
      exact ⟨rfl, rfl, timestamp, rfl⟩

/-- The ids of successive calls are the tickets of the sequence clock, in order. -/
theorem nextIDs_toNat {w : IdWorker} (hw : w.sequenceNumber.toNat < 4096) (n : ℕ)
    (clock : List UInt64) :
    (nextIDs n w clock).map UInt64.toNat =
      ((emits 4096 0 w.toGen (clock.map UInt64.toNat)).take n).map w.issue := by
  induction n generalizing w clock with
  | zero => simp [nextIDs]
  | succ n ih =>
    rcases getNextID_cases hw clock with ⟨hn, he⟩ | ⟨w', rest, hs, hwk, hdc, hw', he⟩
    · simp [nextIDs, hn, he]
    · have hissue : w'.issue = w.issue := by
        funext ticket
        simp only [issue, hwk, hdc]
      rw [nextIDs, hs, he, List.take_succ_cons, List.map_cons, List.map_cons, ih hw', hissue,
        pack_toNat, hwk, hdc]
      rfl

/-! ## Uniqueness under load -/

/-- The first `m` readings of a clock. -/
def readings (clock : ℕ → UInt64) (m : ℕ) : List UInt64 := (List.range m).map clock

theorem sorted_readings (clock : ℕ → UInt64) (hmono : ∀ i j, i ≤ j → clock i ≤ clock j) (m : ℕ) :
    ((readings clock m).map UInt64.toNat).Pairwise (· ≤ ·) := by
  rw [readings, List.map_map, List.pairwise_map]
  apply List.pairwise_lt_range.imp
  intro i j hij
  exact UInt64.le_iff_toNat_le.1 (hmono i j (Nat.le_of_lt hij))

theorem count_map_toNat (clock : List UInt64) (T : UInt64) :
    (clock.map UInt64.toNat).count T.toNat = clock.count T :=
  List.count_map_of_injective clock UInt64.toNat (fun _ _ => UInt64.toNat_inj.1) T

/-- Inside a block of the packed clock, tickets become distinct ids. -/
theorem issue_injOn (w : IdWorker) {block : ℕ} {x y : ℕ × ℕ} (hx : x.1 / 2 ^ 25 = block)
    (hy : y.1 / 2 ^ 25 = block) (hxs : x.2 < 4096) (hys : y.2 < 4096)
    (h : w.issue x = w.issue y) : x = y := by
  obtain ⟨ht, -, -, hs⟩ := layout_inj.1 h
  ext <;> omega

/-- What holds of the results of any first calls holds of all of them. -/
theorem pairwise_map_take_iff {α β : Type*} {R : β → β → Prop} (f : α → β) (l : List α) :
    (∀ n, ((l.take n).map f).Pairwise R) ↔ (l.map f).Pairwise R := by
  constructor
  · intro h
    have hall := h l.length
    rwa [List.take_length] at hall
  · intro h n
    rw [List.map_take]
    exact h.sublist (List.take_sublist n _)

/-- Every ticket of the sequence clock is the id of some call. -/
theorem nodup_nextIDs_iff {w : IdWorker} (hw : w.sequenceNumber.toNat < 4096)
    (clock : List UInt64) :
    (∀ n, (nextIDs n w clock).Nodup) ↔
      ((emits 4096 0 w.toGen (clock.map UInt64.toNat)).map w.issue).Nodup := by
  have htoNat : ∀ n, (nextIDs n w clock).Nodup ↔
      (((emits 4096 0 w.toGen (clock.map UInt64.toNat)).take n).map w.issue).Nodup := by
    intro n
    rw [← nextIDs_toNat hw, List.nodup_map_iff fun _ _ => UInt64.toNat_inj.1]
  exact (forall_congr' htoNat).trans (pairwise_map_take_iff w.issue _)

/-- Inside a block of the packed clock ids repeat where tickets do. -/
theorem nodup_map_issue_iff {w : IdWorker} (hw : w.sequenceNumber.toNat < 4096)
    {clock : List UInt64} {block : ℕ} (hblock : ∀ T ∈ clock, T.toNat / 2 ^ 25 = block) :
    ((emits 4096 0 w.toGen (clock.map UInt64.toNat)).map w.issue).Nodup ↔
      (emits 4096 0 w.toGen (clock.map UInt64.toNat)).Nodup := by
  have hmem : ∀ x ∈ emits 4096 0 w.toGen (clock.map UInt64.toNat),
      x.1 / 2 ^ 25 = block ∧ x.2 < 4096 := by
    intro x hx
    obtain ⟨hread, hxs⟩ := emits_mem 4096 0 (by omega) hw hx
    obtain ⟨T, hT, hTx⟩ := List.mem_map.1 hread
    exact ⟨by rw [← hTx]; exact hblock T hT, hxs⟩
  refine ⟨List.Nodup.of_map _, fun h => h.map_on ?_⟩
  intro x hx y hy hxy
  exact w.issue_injOn (hmem x hx).1 (hmem y hy).1 (hmem x hx).2 (hmem y hy).2 hxy

/-- The calls of a new generator that return within a sorted list of readings of one block. -/
theorem nodup_nextIDs_iff_count {w : IdWorker} (hw : w.sequenceNumber = 0) {clock : List UInt64}
    {block : ℕ} (hsorted : (clock.map UInt64.toNat).Pairwise (· ≤ ·))
    (hblock : ∀ T ∈ clock, T.toNat / 2 ^ 25 = block) :
    (∀ n, (nextIDs n w clock).Nodup) ↔ ∀ T, 0 < T → clock.count T ≤ 4097 := by
  have hseq : w.sequenceNumber.toNat = 0 := by
    rw [hw]
    rfl
  have hlt : w.sequenceNumber.toNat < 4096 := by omega
  have hfit : ∀ t ∈ clock.map UInt64.toNat, Fit 4096 t w.toGen :=
    fun t _ => ⟨hlt, fun _ _ => hseq⟩
  calc (∀ n, (nextIDs n w clock).Nodup)
      ↔ ((emits 4096 0 w.toGen (clock.map UInt64.toNat)).map w.issue).Nodup :=
        nodup_nextIDs_iff hlt clock
    _ ↔ (emits 4096 0 w.toGen (clock.map UInt64.toNat)).Nodup := nodup_map_issue_iff hlt hblock
    _ ↔ ∀ T, 0 < T → (clock.map UInt64.toNat).count T ≤ 4096 + 1 :=
        emits_nodup_iff (by omega) hsorted hlt hfit
    _ ↔ ∀ T, 0 < T → clock.count T ≤ 4097 := by
        constructor
        · intro h T hT
          rw [← count_map_toNat]
          exact h T.toNat (UInt64.lt_iff_toNat_lt.1 hT)
        · intro h T hT
          by_cases hin : T ∈ clock.map UInt64.toNat
          · obtain ⟨T, -, rfl⟩ := List.mem_map.1 hin
            rw [count_map_toNat]
            exact h T (UInt64.lt_iff_toNat_lt.2 hT)
          · rw [List.count_eq_zero.2 hin]
            omega

/-- **Uniqueness under load.** On a clock that never goes back and stays in one block of `2^25` ms,
the calls that return within the first `m` readings return distinct ids exactly when no positive
reading comes more than 4097 times among them: 4096 ids and the reading that finds the sequence
exhausted. The wait for the next millisecond is no wait for it. -/
theorem ids_unique_iff (workerId dataCenterId : UInt16) (lastTimestamp : UInt64)
    (clock : ℕ → UInt64) (hmono : ∀ i j, i ≤ j → clock i ≤ clock j)
    (hblock : ∀ i, (clock i).toNat / 2 ^ 25 = (clock 0).toNat / 2 ^ 25) (m : ℕ) :
    (∀ n, (nextIDs n { workerId, dataCenterId, lastTimestamp } (readings clock m)).Nodup) ↔
      ∀ T, 0 < T → (readings clock m).count T ≤ 4097 := by
  have hread : ∀ T ∈ readings clock m, T.toNat / 2 ^ 25 = (clock 0).toNat / 2 ^ 25 := by
    intro T hT
    obtain ⟨i, -, rfl⟩ := List.mem_map.1 hT
    exact hblock i
  exact nodup_nextIDs_iff_count rfl (sorted_readings clock hmono m) hread

theorem ids_unique_iff_constant :
    (∀ n, (nextIDs n { workerId := 1, dataCenterId := 1, lastTimestamp := 0 }
      (readings (fun _ => 5) 4097)).Nodup) ↔
      ∀ T, 0 < T → (readings (fun _ => 5) 4097).count T ≤ 4097 :=
  ids_unique_iff 1 1 0 (fun _ => 5) (fun _ _ _ => UInt64.le_refl _) (fun _ => rfl) 4097

/-- 4098 readings of one millisecond make 4097 calls return, and two of them return one id. -/
theorem ids_repeat_in_one_millisecond :
    ¬ ∀ clock : ℕ → UInt64, (∀ i j, i ≤ j → clock i ≤ clock j) →
      (∀ i, (clock i).toNat / 2 ^ 25 = (clock 0).toNat / 2 ^ 25) →
      ∀ m n, (nextIDs n { workerId := 1, dataCenterId := 1, lastTimestamp := 0 }
        (readings clock m)).Nodup := by
  intro h
  have hmono : ∀ i j : ℕ, i ≤ j → (1700000000000 : UInt64) ≤ 1700000000000 :=
    fun _ _ _ => UInt64.le_refl _
  have hconst : readings (fun _ => 1700000000000) 4098 = List.replicate 4098 1700000000000 := by
    rw [readings, List.map_const', List.length_range]
  have hblock : ∀ T ∈ List.replicate 4098 (1700000000000 : UInt64),
      T.toNat / 2 ^ 25 = 1700000000000 / 2 ^ 25 := by
    intro T hT
    rw [List.eq_of_mem_replicate hT]
    rfl
  have hids := h (fun _ => 1700000000000) hmono (fun _ => rfl) 4098
  have hsorted := sorted_readings (fun _ => 1700000000000) hmono 4098
  rw [hconst] at hids hsorted
  have hcount := (nodup_nextIDs_iff_count rfl hsorted hblock).1 hids 1700000000000 (by decide)
  rw [List.count_replicate_self] at hcount
  omega

/-! ## A clock that goes back -/

/-- No reading uses up the sequence of a new generator. -/
theorem ready_of_count_le {w : IdWorker} (hw : w.sequenceNumber = 0) {clock : List UInt64}
    (hcount : ∀ T, clock.count T ≤ 4095) : Ready 4096 w.toGen (clock.map UInt64.toNat) := by
  have hle : ∀ t, (clock.map UInt64.toNat).count t ≤ 4095 := by
    intro t
    by_cases hin : t ∈ clock.map UInt64.toNat
    · obtain ⟨T, -, rfl⟩ := List.mem_map.1 hin
      rw [count_map_toNat]
      exact hcount T
    · rw [List.count_eq_zero.2 hin]
      omega
  refine ⟨rfl, ?_, fun t _ => Nat.lt_succ_of_le (hle t)⟩
  have hseq : w.toGen.seq = 0 := by
    rw [toGen, hw]
    rfl
  have hlast := hle w.toGen.last
  omega

/-- **A clock set back and forth.** On a clock that stays in one block of `2^25` ms and reads no
millisecond more than 4095 times, no two calls return one id exactly when no reading comes back
after a different one. Only the reading that the uninitialised `last_timestamp_` happens to hold may:
its first ids start at sequence 1, which leaves 0 for a single call. -/
theorem ids_unique_iff_noReturn (workerId dataCenterId : UInt16) (lastTimestamp : UInt64)
    (clock : List UInt64) (block : ℕ) (hblock : ∀ T ∈ clock, T.toNat / 2 ^ 25 = block)
    (hcount : ∀ T, clock.count T ≤ 4095) :
    (∀ n, (nextIDs n { workerId, dataCenterId, lastTimestamp } clock).Nodup) ↔
      NoReturn lastTimestamp clock := by
  have hlt : (0 : UInt32).toNat < 4096 := by decide
  have hready : Ready 4096 (toGen { workerId, dataCenterId, lastTimestamp })
      (clock.map UInt64.toNat) := ready_of_count_le rfl hcount
  rw [nodup_nextIDs_iff hlt, nodup_map_issue_iff hlt hblock,
    hready.emits_nodup_iff_noReturn 0 rfl]
  exact noReturn_map_iff (fun _ _ => UInt64.toNat_inj.1) lastTimestamp clock

theorem ids_unique_iff_noReturn_forward :
    (∀ n, (nextIDs n { workerId := 1, dataCenterId := 1, lastTimestamp := 0 } [9, 9, 7]).Nodup) ↔
      NoReturn 0 [(9 : UInt64), 9, 7] :=
  ids_unique_iff_noReturn 1 1 0 [9, 9, 7] 0 (by simp)
    fun _ => Nat.le_trans List.count_le_length (by simp)

/-- The clock is set back by a millisecond: the third call returns the id of the first. -/
theorem ids_repeat_when_clock_goes_back :
    ¬ ∀ clock : List UInt64, (∃ block, ∀ T ∈ clock, T.toNat / 2 ^ 25 = block) →
      (∀ T, clock.count T ≤ 4095) →
      ∀ n, (nextIDs n { workerId := 1, dataCenterId := 1, lastTimestamp := 0 } clock).Nodup := by
  intro h
  have hids := h [1700000000000, 1700000000001, 1700000000000] ⟨50663, by simp⟩
    (fun T => Nat.le_trans List.count_le_length (by simp)) 3
  revert hids
  decide

/-! ## Order -/

/-- Successive ids ascend exactly when the packed part of the clock does, or the reading stays. -/
theorem issue_lt_iff (w : IdWorker) (t s u : ℕ) (hs : s < 4096)
    (hnext : nextSeq ⟨t, s, false⟩ u < 4096) :
    w.issue (t, s) < w.issue (u, nextSeq ⟨t, s, false⟩ u) ↔
      t = u ∨ t % 2 ^ 25 < u % 2 ^ 25 := by
  simp only [issue, layout_lt_iff]
  by_cases htu : t = u
  · have hs' : nextSeq ⟨t, s, false⟩ u = s + 1 := if_pos htu
    omega
  · have hs' : nextSeq ⟨t, s, false⟩ u = 0 := if_neg htu
    omega

/-- The ids of a new generator ascend as the packed part of the clock does. -/
theorem ascending_iff {w : IdWorker} (hw : w.sequenceNumber = 0) {clock : List UInt64}
    (hcount : ∀ T, clock.count T ≤ 4095) :
    (∀ n, (nextIDs n w clock).Pairwise (· < ·)) ↔
      clock.IsChain fun a b => a = b ∨ a.toNat % 2 ^ 25 < b.toNat % 2 ^ 25 := by
  have hseq : w.sequenceNumber.toNat < 4096 := by
    rw [hw]
    decide
  have hready : Ready 4096 w.toGen (clock.map UInt64.toNat) :=
    ready_of_count_le hw hcount
  have htoNat : ∀ n, (nextIDs n w clock).Pairwise (· < ·) ↔
      (((emits 4096 0 w.toGen (clock.map UInt64.toNat)).take n).map w.issue).Pairwise (· < ·) := by
    intro n
    rw [← nextIDs_toNat hseq, List.pairwise_map]
    exact Iff.of_eq (congrArg₂ _ (by funext a b; rw [UInt64.lt_iff_toNat_lt]) rfl)
  calc (∀ n, (nextIDs n w clock).Pairwise (· < ·))
      ↔ ((emits 4096 0 w.toGen (clock.map UInt64.toNat)).map w.issue).Pairwise (· < ·) := by
        exact (forall_congr' htoNat).trans (pairwise_map_take_iff w.issue _)
    _ ↔ (emits 4096 0 w.toGen (clock.map UInt64.toNat)).IsChain
          (fun x y => w.issue x < w.issue y) := by
        rw [← List.isChain_iff_pairwise, List.isChain_map]
    _ ↔ (clock.map UInt64.toNat).IsChain (fun a b => a = b ∨ a % 2 ^ 25 < b % 2 ^ 25) :=
        hready.isChain_iff fun t s u => w.issue_lt_iff t s u
    _ ↔ clock.IsChain fun a b => a = b ∨ a.toNat % 2 ^ 25 < b.toNat % 2 ^ 25 := by
        rw [List.isChain_map]
        simp only [UInt64.toNat_inj]

/-- **Order.** On a clock that reads no millisecond more than 4095 times, the ids of successive
calls ascend exactly when each reading that differs from the one before it is above it modulo
`2^25`. A clock that never goes back breaks this when it crosses a multiple of `2^25` ms. -/
theorem ids_ascend_iff (workerId dataCenterId : UInt16) (lastTimestamp : UInt64)
    (clock : List UInt64) (hcount : ∀ T, clock.count T ≤ 4095) :
    (∀ n, (nextIDs n { workerId, dataCenterId, lastTimestamp } clock).Pairwise (· < ·)) ↔
      clock.IsChain fun a b => a = b ∨ a.toNat % 2 ^ 25 < b.toNat % 2 ^ 25 :=
  ascending_iff rfl hcount

theorem ids_ascend_iff_two_readings :
    (∀ n, (nextIDs n { workerId := 1, dataCenterId := 1, lastTimestamp := 0 } [7, 9]).Pairwise
      (· < ·)) ↔
      [7, 9].IsChain fun a b : UInt64 => a = b ∨ a.toNat % 2 ^ 25 < b.toNat % 2 ^ 25 :=
  ids_ascend_iff 1 1 0 [7, 9] fun T => Nat.le_trans List.count_le_length (by decide)

/-- Two readings around `50664 * 2^25` ms, in November 2023. -/
theorem ids_descend_at_a_block_boundary :
    ¬ ∀ clock : List UInt64, clock.Pairwise (· ≤ ·) → (∀ T ∈ clock, T.toNat < 2 ^ 41) →
      (∀ T, clock.count T ≤ 4095) →
      ∀ n, (nextIDs n { workerId := 1, dataCenterId := 1, lastTimestamp := 0 } clock).Pairwise
        (· < ·) := by
  intro h
  have hids := h [1700001742847, 1700001742848] (by decide) (by simp)
    (fun T => Nat.le_trans List.count_le_length (by decide)) 2
  revert hids
  decide

/-! ## The fields of an id -/

/-- The states of a generator with the given ids after any number of calls. Its `last_timestamp_` is
not initialised. -/
inductive Reachable (workerId dataCenterId : UInt16) : IdWorker → Prop where
  | new (lastTimestamp : UInt64) :
    Reachable workerId dataCenterId { workerId, dataCenterId, lastTimestamp }
  | call {w w' : IdWorker} {clock rest : List UInt64} {id : UInt64} :
    Reachable workerId dataCenterId w → w.getNextID clock = some (id, w', rest) →
    Reachable workerId dataCenterId w'

/-- Shifts and masks give back the fields that `w` has after a call that returned `id`. -/
structure HasFields (id : UInt64) (w : IdWorker) : Prop where
  sequenceNumber : id.toNat % 2 ^ 12 = w.sequenceNumber.toNat
  workerId : (id >>> 12).toNat % 32 = w.workerId.toNat % 32
  dataCenterId : (id >>> 17).toNat % 32 = w.dataCenterId.toNat % 32
  timestamp : (id >>> 22).toNat = w.lastTimestamp.toNat % 2 ^ 25
  lt : id.toNat < 2 ^ 47

theorem shiftRight_toNat (id k : UInt64) : (id >>> k).toNat = id.toNat / 2 ^ (k.toNat % 64) := by
  rw [UInt64.toNat_shiftRight, Nat.shiftRight_eq_div_pow]

theorem hasFields_pack {w : IdWorker} (hw : w.sequenceNumber.toNat < 4096) :
    HasFields (w.pack w.lastTimestamp) w := by
  have hid := w.pack_toNat w.lastTimestamp
  rw [layout] at hid
  constructor
  · omega
  · rw [shiftRight_toNat]
    change _ / 2 ^ 12 % 32 = _
    omega
  · rw [shiftRight_toNat]
    change _ / 2 ^ 17 % 32 = _
    omega
  · rw [shiftRight_toNat]
    change _ / 2 ^ 22 = _
    omega
  · omega

theorem HasFields.toNat_eq {id : UInt64} {w : IdWorker} (h : HasFields id w) :
    id.toNat = layout w.lastTimestamp.toNat w.dataCenterId.toNat w.workerId.toNat
      w.sequenceNumber.toNat := by
  obtain ⟨hseq, hwk, hdc, hts, -⟩ := h
  rw [shiftRight_toNat] at hwk hdc hts
  change _ / 2 ^ 12 % 32 = _ at hwk
  change _ / 2 ^ 17 % 32 = _ at hdc
  change _ / 2 ^ 22 = _ at hts
  rw [layout]
  omega

variable {workerId dataCenterId : UInt16} {w w' : IdWorker} {clock rest : List UInt64}
  {id : UInt64}

/-- A call of a generator with a sequence number in range. -/
theorem getNextID_fields (hw : w.sequenceNumber.toNat < 4096)
    (h : w.getNextID clock = some (id, w', rest)) :
    w'.workerId = w.workerId ∧ w'.dataCenterId = w.dataCenterId ∧
      w'.sequenceNumber.toNat < 4096 ∧ id = w'.pack w'.lastTimestamp := by
  rcases getNextID_cases hw clock with ⟨hn, -⟩ | ⟨w₁, rest₁, hs, hwk, hdc, hseq, -⟩
  · rw [hn] at h
    cases h
  · rw [hs] at h
    cases h
    exact ⟨hwk, hdc, hseq, rfl⟩

theorem Reachable.ids (hw : Reachable workerId dataCenterId w) :
    w.workerId = workerId ∧ w.dataCenterId = dataCenterId ∧ w.sequenceNumber.toNat < 4096 := by
  induction hw with
  | new lastTimestamp => exact ⟨rfl, rfl, (by decide : (0 : UInt32).toNat < 4096)⟩
  | call hw h ih =>
    obtain ⟨hwk, hdc, hseq⟩ := ih
    obtain ⟨hwk', hdc', hseq', -⟩ := getNextID_fields hseq h
    exact ⟨hwk'.trans hwk, hdc'.trans hdc, hseq'⟩

theorem Reachable.hasFields (hw : Reachable workerId dataCenterId w)
    (h : w.getNextID clock = some (id, w', rest)) :
    w'.workerId = workerId ∧ w'.dataCenterId = dataCenterId ∧ HasFields id w' := by
  obtain ⟨hwk, hdc, hseq⟩ := hw.ids
  obtain ⟨hwk', hdc', hseq', rfl⟩ := getNextID_fields hseq h
  exact ⟨hwk'.trans hwk, hdc'.trans hdc, hasFields_pack hseq'⟩

/-- Ids are told apart by their fields. -/
theorem HasFields.eq_iff {id' : UInt64} (h : HasFields id w) (h' : HasFields id' w') :
    id = id' ↔ w.lastTimestamp.toNat % 2 ^ 25 = w'.lastTimestamp.toNat % 2 ^ 25 ∧
      w.dataCenterId.toNat % 32 = w'.dataCenterId.toNat % 32 ∧
      w.workerId.toNat % 32 = w'.workerId.toNat % 32 ∧ w.sequenceNumber = w'.sequenceNumber := by
  have hseq : w.sequenceNumber.toNat < 4096 := by
    rw [← h.sequenceNumber]
    exact Nat.mod_lt _ (by omega)
  have hseq' : w'.sequenceNumber.toNat < 4096 := by
    rw [← h'.sequenceNumber]
    exact Nat.mod_lt _ (by omega)
  rw [← UInt64.toNat_inj, h.toNat_eq, h'.toNat_eq, layout_inj, Nat.mod_eq_of_lt hseq,
    Nat.mod_eq_of_lt hseq', UInt32.toNat_inj]

theorem tilNextMillis_reads {lastTimestamp timestamp : UInt64}
    (h : tilNextMillis lastTimestamp clock = some (timestamp, rest)) :
    ∃ read, clock = read ++ timestamp :: rest := by
  induction clock with
  | nil => cases h
  | cons reading clock ih =>
    rw [tilNextMillis] at h
    split at h
    · obtain ⟨read, rfl⟩ := ih h
      exact ⟨reading :: read, rfl⟩
    · cases h
      exact ⟨[], rfl⟩

/-- The timestamp of a call is the last reading that it takes. -/
theorem getNextID_reads (h : w.getNextID clock = some (id, w', rest)) :
    ∃ read, clock = read ++ w'.lastTimestamp :: rest := by
  cases clock with
  | nil => cases h
  | cons reading clock =>
    rw [getNextID, nowInMsec, Option.bind_eq_bind, Option.bind_some] at h
    dsimp only at h
    split at h
    · split at h
      · obtain ⟨⟨timestamp, rest'⟩, htil, h⟩ := Option.bind_eq_some_iff.1 h
        cases h
        obtain ⟨read, rfl⟩ := tilNextMillis_reads htil
        exact ⟨reading :: read, rfl⟩
      · cases h
        exact ⟨[], rfl⟩
    · cases h
      exact ⟨[], rfl⟩

/-- **The fields of an id.** Two calls, each of a generator in any reachable state, return one id
exactly when the four fields agree, the timestamps being the last readings they took, and shifts and
masks give the fields back. So generators whose worker or data center ids differ modulo 32 never return
one id. -/
theorem ids_eq_iff_fields {workerId' dataCenterId' : UInt16} {v v' : IdWorker}
    {clock' rest' : List UInt64} {id' : UInt64} (hw : Reachable workerId dataCenterId w)
    (h : w.getNextID clock = some (id, w', rest)) (hv : Reachable workerId' dataCenterId' v)
    (h' : v.getNextID clock' = some (id', v', rest')) :
    HasFields id w' ∧ HasFields id' v' ∧
      (id = id' ↔ w'.lastTimestamp.toNat % 2 ^ 25 = v'.lastTimestamp.toNat % 2 ^ 25 ∧
        dataCenterId.toNat % 32 = dataCenterId'.toNat % 32 ∧
        workerId.toNat % 32 = workerId'.toNat % 32 ∧ w'.sequenceNumber = v'.sequenceNumber) ∧
      (workerId.toNat % 32 ≠ workerId'.toNat % 32 ∨
        dataCenterId.toNat % 32 ≠ dataCenterId'.toNat % 32 → id ≠ id') ∧
      (∃ read, clock = read ++ w'.lastTimestamp :: rest) ∧
      ∃ read, clock' = read ++ v'.lastTimestamp :: rest' := by
  obtain ⟨hwk, hdc, hfields⟩ := hw.hasFields h
  obtain ⟨hwk', hdc', hfields'⟩ := hv.hasFields h'
  have hiff := hfields.eq_iff hfields'
  rw [hwk, hdc, hwk', hdc'] at hiff
  refine ⟨hfields, hfields', hiff, ?_, getNextID_reads h, getNextID_reads h'⟩
  rintro hne rfl
  obtain ⟨-, hdceq, hwkeq, -⟩ := hiff.1 rfl
  exact hne.elim (fun hwkne => hwkne hwkeq) fun hdcne => hdcne hdceq

theorem ids_eq_iff_fields_two_workers :
    ∃ id w' id' v',
      getNextID { workerId := 1, dataCenterId := 1, lastTimestamp := 0 } [7] = some (id, w', []) ∧
      getNextID { workerId := 2, dataCenterId := 1, lastTimestamp := 0 } [7] = some (id', v', []) ∧
      HasFields id w' ∧ HasFields id' v' ∧ id ≠ id' := by
  have hid : getNextID { workerId := 1, dataCenterId := 1, lastTimestamp := 0 } [7] =
    some (_, _, _) := rfl
  have hid' : getNextID { workerId := 2, dataCenterId := 1, lastTimestamp := 0 } [7] =
    some (_, _, _) := rfl
  obtain ⟨hfields, hfields', -, hne, -⟩ := ids_eq_iff_fields (.new 0) hid (.new 0) hid'
  exact ⟨_, _, _, _, hid, hid', hfields, hfields', hne (.inl (by decide))⟩

end IdWorker

end ServiceFramework.Base
