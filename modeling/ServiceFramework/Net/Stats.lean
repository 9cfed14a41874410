import ServiceFramework.Lib.Transition
import Mathlib.Logic.Function.Basic
import Mathlib.Data.List.Defs
import Mathlib.Data.UInt

/-!
# Counters that report their change

`base::Stat` (`net/fiber_data_manager.h`) is a 64-bit counter with the value it had when its change
was last asked for; `base::Stats` is a vector of them.

What `CalcAndRestoreLastStat` returns is the change since its last call as long as the counter is
not below its last value. For a counter that is below, the branch meant for a wrap-around adds
`0xffffffff` to the change, which no 64-bit counter wraps around by (`telescopes_iff`).
-/

namespace ServiceFramework.Net

open Transition

/-! ## The counter -/

/-- `base::Stat`. -/
structure Stat where
  statName : String := ""
  lastStat : UInt64 := 0
  stat : UInt64 := 0
  deriving DecidableEq

namespace Stat

def increase (s : Stat) : Stat := { s with stat := s.stat + 1 }

/-- `Increase` with a difference. -/
def increaseBy (s : Stat) (diff : UInt64) : Stat := { s with stat := s.stat + diff }

def decrease (s : Stat) : Stat := { s with stat := s.stat - 1 }

/-- `Decrease` with a difference. -/
def decreaseBy (s : Stat) (diff : UInt64) : Stat := { s with stat := s.stat - diff }

/-- `CalcAndRestoreLastStat`: the change and the counter after the call. -/
def calcAndRestoreLastStat (s : Stat) : UInt64 × Stat :=
  let thisStat := s.stat
  let change :=
    if thisStat < s.lastStat then 0xffffffff - s.lastStat + thisStat else thisStat - s.lastStat
  (change, { s with lastStat := thisStat })

def getLatestStat (s : Stat) : UInt64 := s.stat

/-- What `CalcAndRestoreLastStat` returns is the change exactly if the counter is not below its
last value. -/
theorem calcAndRestoreLastStat_eq_iff (s : Stat) :
    s.calcAndRestoreLastStat.1 = s.stat - s.lastStat ↔ s.lastStat ≤ s.stat := by
  unfold calcAndRestoreLastStat
  constructor
  · intro h
    by_contra hlt
    rw [UInt64.not_le] at hlt
    simp only [if_pos hlt] at h
    -- the two differ by `0xffffffff`
    have hzero : (0xffffffff : UInt64) = 0 := by grind
    exact absurd hzero (by decide)
  · intro h
    simp only [if_neg (UInt64.not_lt.2 h)]

/-- The operations of a counter. -/
inductive Op where
  | increase
  | increaseBy (diff : UInt64)
  | decrease
  | decreaseBy (diff : UInt64)
  | calcAndRestoreLastStat

/-- The counter after an operation. -/
def apply (s : Stat) : Op → Stat
  | .increase => s.increase
  | .increaseBy diff => s.increaseBy diff
  | .decrease => s.decrease
  | .decreaseBy diff => s.decreaseBy diff
  | .calcAndRestoreLastStat => s.calcAndRestoreLastStat.2

end Stat

/-! ## Runs of a counter -/

/-- The calls of `CalcAndRestoreLastStat`, the last one first: the value of the counter at the call
and what the call returned. -/
abbrev StatCalls := List (UInt64 × UInt64)

namespace StatCalls

/-- The value at the last call, zero before the first. -/
def lastValue : StatCalls → UInt64
  | [] => 0
  | (value, _) :: _ => value

/-- Each call returned the value at the call less the value at the one before. -/
def Changes : StatCalls → Prop
  | [] => True
  | (value, change) :: calls => change = value - lastValue calls ∧ Changes calls

/-- Each call returned the change since the call before, and together they returned the value at
the last call. -/
structure Telescopes (calls : StatCalls) : Prop where
  changes : Changes calls
  sum : (calls.map Prod.snd).sum = lastValue calls

/-- The changes sum up to the last value. -/
theorem Changes.sum_eq {calls : StatCalls} (h : Changes calls) :
    (calls.map Prod.snd).sum = lastValue calls := by
  induction calls with
  | nil => rfl
  | cons c calls ih =>
    obtain ⟨value, change⟩ := c
    obtain ⟨hchange, hcalls⟩ := h
    rw [List.map_cons, List.sum_cons, ih hcalls]
    show change + _ = value
    rw [hchange, UInt64.sub_add_cancel]

theorem telescopes_iff_changes (calls : StatCalls) : Telescopes calls ↔ Changes calls :=
  ⟨fun h => h.changes, fun h => ⟨h, h.sum_eq⟩⟩

end StatCalls

/-- A counter and the calls of `CalcAndRestoreLastStat` so far. -/
structure StatRun where
  stat : Stat := {}
  calls : StatCalls := []

namespace StatRun

def step (w : StatRun) : Stat.Op → Option StatRun
  | .calcAndRestoreLastStat =>
    let (change, stat) := w.stat.calcAndRestoreLastStat
    some { stat, calls := (w.stat.getLatestStat, change) :: w.calls }
  | op => some { w with stat := w.stat.apply op }

/-- The counter has not gone below its last value when its change is asked for. -/
def NotBelow (w : StatRun) (op : Stat.Op) (_ : StatRun) : Prop :=
  match op with
  | .calcAndRestoreLastStat => w.stat.lastStat ≤ w.stat.stat
  | _ => True

/-- The counter remembers its value at the last call. -/
def Remembers (w : StatRun) : Prop := w.stat.lastStat = StatCalls.lastValue w.calls

/-- One operation keeps the calls right exactly if it is none on a counter below its last value. -/
theorem step_remembers {w w' : StatRun} {op : Stat.Op} (hw : w.Remembers)
    (h : step w op = some w') :
    w'.Remembers ∧ (StatCalls.Changes w'.calls ↔ StatCalls.Changes w.calls ∧ NotBelow w op w') := by
  cases op with
  | calcAndRestoreLastStat =>
    cases h
    refine ⟨rfl, ?_⟩
    rw [StatCalls.Changes, ← hw, and_comm]
    exact and_congr_right fun _ => Stat.calcAndRestoreLastStat_eq_iff w.stat
  | increase =>
    cases h
    exact ⟨hw, (and_iff_left trivial).symm⟩
  | increaseBy diff =>
    cases h
    exact ⟨hw, (and_iff_left trivial).symm⟩
  | decrease =>
    cases h
    exact ⟨hw, (and_iff_left trivial).symm⟩
  | decreaseBy diff =>
    cases h
    exact ⟨hw, (and_iff_left trivial).symm⟩

theorem run_changes_iff {w : StatRun} {ops : List Stat.Op} (h : run step {} ops = some w) :
    StatCalls.Changes w.calls ↔ Along step NotBelow {} ops := by
  have hiff := run_iff_along (I := Remembers) (P := fun w => StatCalls.Changes w.calls)
    (Q := NotBelow) (fun _ _ _ hw hs => step_remembers hw hs) (show Remembers {} from rfl) h
  rw [hiff]
  exact and_iff_right trivial

/-- **The changes telescope.** In every run of a counter from zero, each
`CalcAndRestoreLastStat` returns the change since the one before, and together they return the
value at the last, exactly if at none of them the counter is below its last value. -/
theorem telescopes_iff (w : StatRun) (ops : List Stat.Op) (h : run step {} ops = some w) :
    StatCalls.Telescopes w.calls ↔ Along step NotBelow {} ops := by
  rw [StatCalls.telescopes_iff_changes, run_changes_iff h]

theorem telescopes_iff_counted_up :
    StatCalls.Telescopes [(7, 2), (5, 5)] ↔
      Along step NotBelow {} [.increaseBy 5, .calcAndRestoreLastStat, .increaseBy 2,
        .calcAndRestoreLastStat] :=
  telescopes_iff _ [.increaseBy 5, .calcAndRestoreLastStat, .increaseBy 2,
    .calcAndRestoreLastStat] rfl

/-- A counter that goes from 5 to 4 reports a change of `2^32 - 2`. -/
theorem changes_wrong_below :
    ∃ w, run step {} [.increaseBy 5, .calcAndRestoreLastStat, .decrease,
      .calcAndRestoreLastStat] = some w ∧ w.calls = [(4, 4294967294), (5, 5)] ∧
        ¬ StatCalls.Telescopes w.calls := by
  refine ⟨_, rfl, rfl, ?_⟩
  intro h
  exact absurd h.changes.1 (by decide)

end StatRun

/-! ## A vector of counters -/

/-- `base::Stats`. -/
structure Stats where
  statsName : String
  stats : List Stat

namespace Stats

/-- The constructor. -/
def new (v : String) (size : ℕ) : Stats where
  statsName := v
  stats := List.replicate size {}

/-- The call on one counter, which the methods make only when the index is in range. -/
def onStat (s : Stats) (idx : ℕ) (f : Stat → Stat) : Stats :=
  if idx < s.stats.length then { s with stats := s.stats.modify idx f } else s

def initStat (s : Stats) (idx : ℕ) (name : String) : Stats :=
  s.onStat idx fun v => { v with statName := name }

def increase (s : Stats) (idx : ℕ) : Stats := s.onStat idx Stat.increase

/-- `Increase` with a difference. -/
def increaseBy (s : Stats) (idx : ℕ) (diff : UInt64) : Stats := s.onStat idx (·.increaseBy diff)

def decrease (s : Stats) (idx : ℕ) : Stats := s.onStat idx Stat.decrease

/-- `Decrease` with a difference. -/
def decreaseBy (s : Stats) (idx : ℕ) (diff : UInt64) : Stats := s.onStat idx (·.decreaseBy diff)

/-- `CalcAndRestoreLastStat`, zero for an index that is out of range. -/
def calcAndRestoreLastStat (s : Stats) (idx : ℕ) : UInt64 × Stats :=
  match s.stats[idx]? with
  | some v => (v.calcAndRestoreLastStat.1, s.onStat idx (·.calcAndRestoreLastStat.2))
  | none => (0, s)

/-- `CalcAndToString`: the text with the change of each counter, and the counters after it. -/
def calcAndToString (s : Stats) : String × Stats :=
  let entry (v : Stat) : String :=
    "\x7b" ++ v.statName ++ ":" ++ toString v.calcAndRestoreLastStat.1 ++ "\x7d"
  ("stats: \x7b" ++ s.statsName ++ ":[" ++ ", ".intercalate (s.stats.map entry) ++ "]\x7d",
    { s with stats := s.stats.map (·.calcAndRestoreLastStat.2) })

/-- A call on one counter leaves the others alone. -/
theorem getElem?_onStat (s : Stats) (idx : ℕ) (f : Stat → Stat) (i : ℕ) :
    (s.onStat idx f).stats[i]? = if idx = i then s.stats[i]?.map f else s.stats[i]? := by
  unfold onStat
  split
  · change (s.stats.modify idx f)[i]? = _
    rw [List.getElem?_modify]
    split <;> simp
  · next hout =>
    split
    · next he =>
      subst he
      rw [List.getElem?_eq_none (Nat.le_of_not_lt hout)]
      rfl
    · rfl

theorem calcAndRestoreLastStat_snd (s : Stats) (idx : ℕ) :
    (s.calcAndRestoreLastStat idx).2 = s.onStat idx (·.calcAndRestoreLastStat.2) := by
  unfold calcAndRestoreLastStat
  split
  · rfl
  · next hnone =>
    rw [onStat, if_neg (Nat.not_lt.2 (List.getElem?_eq_none_iff.1 hnone))]

/-- The operations of a vector of counters. -/
inductive Event where
  | initStat (idx : ℕ) (name : String)
  | increase (idx : ℕ)
  | increaseBy (idx : ℕ) (diff : UInt64)
  | decrease (idx : ℕ)
  | decreaseBy (idx : ℕ) (diff : UInt64)
  | calcAndRestoreLastStat (idx : ℕ)
  | calcAndToString

/-- The operation that an event is for the counter `i`, if any. -/
def Event.opOn (i : ℕ) : Event → Option Stat.Op
  | .initStat _ _ => none
  | .increase idx => if idx = i then some .increase else none
  | .increaseBy idx diff => if idx = i then some (.increaseBy diff) else none
  | .decrease idx => if idx = i then some .decrease else none
  | .decreaseBy idx diff => if idx = i then some (.decreaseBy diff) else none
  | .calcAndRestoreLastStat idx => if idx = i then some .calcAndRestoreLastStat else none
  | .calcAndToString => some .calcAndRestoreLastStat

end Stats

/-- A vector of counters and for each the calls of its `CalcAndRestoreLastStat`. -/
structure StatsRun where
  stats : Stats
  calls : ℕ → StatCalls := fun _ => []

namespace StatsRun

/-- Record the change of the counter `i`, if there is one. -/
def record (w : StatsRun) (i : ℕ) : StatCalls :=
  match w.stats.stats[i]? with
  | some v => (v.getLatestStat, v.calcAndRestoreLastStat.1) :: w.calls i
  | none => w.calls i

def step (w : StatsRun) : Stats.Event → Option StatsRun
  | .initStat idx name => some { w with stats := w.stats.initStat idx name }
  | .increase idx => some { w with stats := w.stats.increase idx }
  | .increaseBy idx diff => some { w with stats := w.stats.increaseBy idx diff }
  | .decrease idx => some { w with stats := w.stats.decrease idx }
  | .decreaseBy idx diff => some { w with stats := w.stats.decreaseBy idx diff }
  | .calcAndRestoreLastStat idx =>
    some {
      stats := (w.stats.calcAndRestoreLastStat idx).2
      calls := Function.update w.calls idx (w.record idx) }
  | .calcAndToString => some { stats := w.stats.calcAndToString.2, calls := w.record }

/-- `r` is the counter `i` with its calls, whatever its name. -/
structure IsCounter (w : StatsRun) (i : ℕ) (r : StatRun) : Prop where
  stat : w.stats.stats[i]?.map (fun v => { v with statName := "" }) = some r.stat
  calls : w.calls i = r.calls

theorem record_of_isCounter {w : StatsRun} {i : ℕ} {r : StatRun} (hr : w.IsCounter i r) :
    w.record i = (r.stat.getLatestStat, r.stat.calcAndRestoreLastStat.1) :: r.calls := by
  obtain ⟨v, hv, hstat⟩ := Option.map_eq_some_iff.1 hr.stat
  rw [record, hv, ← hstat, hr.calls]
  rfl

/-- A call on the counter `idx` changes the counter `i` if `i` is `idx`. -/
theorem IsCounter.onStat {w : StatsRun} {i : ℕ} {r : StatRun} (hr : w.IsCounter i r) (idx : ℕ)
    {f g : Stat → Stat} (hfg : ∀ v, { f v with statName := "" } = g { v with statName := "" }) :
    (w.stats.onStat idx f).stats[i]?.map (fun v => { v with statName := "" }) =
      some (if idx = i then g r.stat else r.stat) := by
  obtain ⟨v, hv, hstat⟩ := Option.map_eq_some_iff.1 hr.stat
  rw [Stats.getElem?_onStat]
  split
  · rw [hv, ← hstat, ← hfg]
    rfl
  · exact hr.stat

/-- An operation other than `CalcAndRestoreLastStat` on the counter `idx`. -/
theorem IsCounter.apply {w : StatsRun} {i : ℕ} {r : StatRun} (hr : w.IsCounter i r) (idx : ℕ)
    {op : Stat.Op} (hop : ∀ r : StatRun, StatRun.step r op = some { r with stat := r.stat.apply op })
    (hname : ∀ v : Stat, { v.apply op with statName := "" } = { v with statName := "" }.apply op) :
    ∃ r', run StatRun.step r (if idx = i then some op else none).toList = some r' ∧
      IsCounter { w with stats := w.stats.onStat idx (·.apply op) } i r' := by
  have hstat := hr.onStat (f := (·.apply op)) (g := (·.apply op)) idx hname
  split
  · next he =>
    rw [if_pos he] at hstat
    refine ⟨{ r with stat := r.stat.apply op }, ?_, hstat, hr.calls⟩
    rw [Option.toList_some, run_cons, hop]
    rfl
  · next he =>
    rw [if_neg he] at hstat
    exact ⟨r, rfl, hstat, hr.calls⟩

/-- An event is for a counter the operation `opOn`, or none. -/
theorem isCounter_step {w w' : StatsRun} {e : Stats.Event} {i : ℕ} {r : StatRun}
    (hr : w.IsCounter i r) (h : step w e = some w') :
    ∃ r', run StatRun.step r (e.opOn i).toList = some r' ∧ w'.IsCounter i r' := by
  cases e with
  | initStat idx name =>
    cases h
    have hstat := hr.onStat (g := id) (f := fun v => { v with statName := name }) idx fun v => rfl
    rw [id, ite_self] at hstat
    exact ⟨r, rfl, hstat, hr.calls⟩
  | increase idx =>
    cases h
    exact hr.apply idx (fun _ => rfl) fun _ => rfl
  | increaseBy idx diff =>
    cases h
    exact hr.apply idx (fun _ => rfl) fun _ => rfl
  | decrease idx =>
    cases h
    exact hr.apply idx (fun _ => rfl) fun _ => rfl
  | decreaseBy idx diff =>
    cases h
    exact hr.apply idx (fun _ => rfl) fun _ => rfl
  | calcAndRestoreLastStat idx =>
    cases h
    have hstat := hr.onStat (f := (·.calcAndRestoreLastStat.2)) (g := (·.calcAndRestoreLastStat.2))
      idx fun v => rfl
    rw [← Stats.calcAndRestoreLastStat_snd] at hstat
    by_cases he : idx = i
    · subst he
      rw [if_pos rfl] at hstat
      rw [Stats.Event.opOn, if_pos rfl]
      refine ⟨_, rfl, hstat, ?_⟩
      change Function.update _ _ _ _ = _
      rw [Function.update_self, record_of_isCounter hr]
      rfl
    · rw [if_neg he] at hstat
      rw [Stats.Event.opOn, if_neg he]
      refine ⟨r, rfl, hstat, ?_⟩
      change Function.update _ _ _ _ = _
      rw [Function.update_of_ne (Ne.symm he)]
      exact hr.calls
  | calcAndToString =>
    cases h
    obtain ⟨v, hv, hstat⟩ := Option.map_eq_some_iff.1 hr.stat
    refine ⟨_, rfl, ?_, record_of_isCounter hr⟩
    change ((w.stats.stats.map _)[i]?).map _ = _
    rw [List.getElem?_map, hv]
    change _ = some r.stat.calcAndRestoreLastStat.2
    rw [← hstat]
    rfl

/-- A counter of a vector runs as a counter of its own. -/
theorem isCounter_run {w w' : StatsRun} {es : List Stats.Event} {i : ℕ} {r : StatRun}
    (hr : w.IsCounter i r) (h : run step w es = some w') :
    ∃ r', run StatRun.step r (es.filterMap (·.opOn i)) = some r' ∧ w'.IsCounter i r' := by
  induction es generalizing w r with
  | nil =>
    cases h
    exact ⟨r, rfl, hr⟩
  | cons e es ih =>
    obtain ⟨w₁, hstep, hrun⟩ := run_cons_eq_some.1 h
    obtain ⟨r₁, hr₁, hcounter⟩ := isCounter_step hr hstep
    obtain ⟨r', hr', hcounter'⟩ := ih hcounter hrun
    refine ⟨r', ?_, hcounter'⟩
    have happ := run_append_of_eq_some hr₁ hr'
    cases hop : e.opOn i with
    | none =>
      rw [List.filterMap_cons_none hop]
      rwa [hop] at happ
    | some op =>
      rw [List.filterMap_cons_some hop]
      rwa [hop] at happ

/-- The changes of a counter of a vector telescope exactly if at none of its calls, those for the
whole vector included, the counter is below its last value. -/
theorem counter_telescopes_iff (v : String) (size i : ℕ) (hi : i < size) (es : List Stats.Event)
    (w : StatsRun) (h : run step { stats := .new v size } es = some w) :
    StatCalls.Telescopes (w.calls i) ↔
      Along StatRun.step StatRun.NotBelow {} (es.filterMap (·.opOn i)) := by
  have hnew : IsCounter { stats := .new v size } i {} := by
    refine ⟨?_, rfl⟩
    rw [Stats.new, List.getElem?_replicate_of_lt hi]
    rfl
  obtain ⟨r, hr, hcounter⟩ := isCounter_run hnew h
  rw [hcounter.calls, StatCalls.telescopes_iff_changes, StatRun.run_changes_iff hr]

end StatsRun

end ServiceFramework.Net
