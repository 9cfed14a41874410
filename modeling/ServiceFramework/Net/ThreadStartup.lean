import ServiceFramework.Lib.Transition
import ServiceFramework.Net.ThreadGroupListManager

/-!
# Threads that start

While `Initialize` makes the groups one after the other, the threads of those made start in any
order, each announced once to its group by `threadStarted` (`net/thread_group_list_manager.cc`).

With at most one group of each type the list `thread_idxs` of a group is exactly the list of the
positions its threads have in `thread_datas_`, and the thread of an event base has that position as
its thread id (`positions_bookkept`). `GetEventBaseByThreadType` draws a position in the list of a
group and takes it for a position in `thread_datas_`, so it finds a thread of the group only if the
number drawn is in the list (`event_base_of_group_iff`).
-/

namespace ServiceFramework.Net

open Transition

/-! ## The steps -/

/-- The threads, and the options whose groups are yet to be made. -/
structure ThreadStartup (E P : Type) where
  threads : IOThreads E P
  pending : List ThreadGroupOption

/-- `Initialize` makes the next group, or a thread with the given event base starts in a group. -/
inductive StartupEvent (E : Type) where
  | makeThreadGroup
  | threadStarted (threadType : ThreadType) (evb : E)

namespace ThreadStartup

variable {E P : Type}

def init (options : List ThreadGroupOption) : ThreadStartup E P where
  threads := { groups := {}, connManagers := fun _ => {} }
  pending := options

section Step

variable [DecidableEq E]

/-- A new thread, whose event base is not that of another one. The size of `thread_datas_` is a
`size_t`. -/
def CanStart (w : ThreadStartup E P) (threadType : ThreadType) (evb : E) : Bool :=
  (!threadType.hasEventBase || !w.threads.IsStarted evb) &&
    decide (w.threads.groups.threadDatas.length + 1 < 2 ^ 64)

def step (w : ThreadStartup E P) : StartupEvent E → Option (ThreadStartup E P)
  | .makeThreadGroup =>
    match w.pending with
    | option :: pending =>
      some { threads := { w.threads with groups := w.threads.groups.addThreadGroup option }, pending }
    | [] => none
  | .threadStarted threadType evb =>
    if w.CanStart threadType evb then
      (w.threads.threadStarted threadType evb).map fun threads => { w with threads }
    else
      none

/-- Without a start in between, the groups are those of the constructor. -/
theorem run_makeThreadGroup (options : List ThreadGroupOption) :
    run step (init options : ThreadStartup E P)
      (List.replicate options.length .makeThreadGroup) =
        some { threads := .init options, pending := [] } := by
  have hrun : ∀ m : ThreadGroupListManager E, run step
      ({ threads := { groups := m, connManagers := fun _ => {} }, pending := options } :
        ThreadStartup E P) (List.replicate options.length .makeThreadGroup) =
      some { threads := ⟨options.foldl .addThreadGroup m, fun _ => {}⟩, pending := [] } := by
    induction options with
    | nil => exact fun _ => rfl
    | cons option options ih => exact fun m => ih (m.addThreadGroup option)
  rw [init, hrun, IOThreads.init, ThreadGroupListManager.ofOptions,
    ThreadGroupListManager.initializeWith_eq]

theorem step_makeThreadGroup {w w' : ThreadStartup E P} (h : step w .makeThreadGroup = some w') :
    ∃ option pending, w.pending = option :: pending ∧
      w' = { threads := { w.threads with groups := w.threads.groups.addThreadGroup option }
             pending } := by
  rw [step] at h
  split at h
  · next option pending hpending =>
    cases h
    exact ⟨option, pending, hpending, rfl⟩
  · cases h

theorem step_threadStarted {w w' : ThreadStartup E P} {threadType : ThreadType} {evb : E}
    (h : step w (.threadStarted threadType evb) = some w') :
    (threadType.hasEventBase = true → w.threads.IsStarted evb = false) ∧
      w.threads.groups.threadDatas.length + 1 < 2 ^ 64 ∧ w'.pending = w.pending ∧
      w.threads.threadStarted threadType evb = some w'.threads := by
  rw [step] at h
  split at h
  · next hcan =>
    obtain ⟨threads, hthreads, rfl⟩ := Option.map_eq_some_iff.1 h
    rw [CanStart, Bool.and_eq_true, Bool.or_eq_true, decide_eq_true_eq] at hcan
    refine ⟨?_, hcan.2, rfl, hthreads⟩
    intro hio
    simpa [hio] using hcan.1
  · cases h

end Step

end ThreadStartup

/-! ## Positions -/

namespace IOThreads

variable {E P : Type}

/-- The types of the threads, in the order of their start. -/
def types (s : IOThreads E P) : List ThreadType := s.groups.threadDatas.map ThreadData.threadGroup

/-- Every thread knows its position in `thread_datas_`, and so does the connection manager of the
thread of an event base. A group lists positions of its own threads. -/
structure Placed (s : IOThreads E P) : Prop where
  length_lt : s.groups.threadDatas.length < 2 ^ 64
  threadIdx_eq : ∀ (i : ℕ) (d : ThreadData E), s.groups.threadDatas[i]? = some d → d.threadIdx = i
  evb_isSome : ∀ d ∈ s.groups.threadDatas, d.evb.isSome = d.threadGroup.hasEventBase
  threadId_eq : ∀ (i : ℕ) (d : ThreadData E) (evb : E), s.groups.threadDatas[i]? = some d → d.evb = some evb →
    (s.connManagers evb).threadId = UInt64.ofNat i
  idxs_sublist : ∀ t group, s.groups.threadGroups t = some group →
    group.threadIdxs.Sublist (s.types.idxsOf t)

theorem getElem?_types {s : IOThreads E P} {i : ℕ} {t : ThreadType} :
    s.types[i]? = some t ↔ ∃ d, s.groups.threadDatas[i]? = some d ∧ d.threadGroup = t := by
  rw [types, List.getElem?_map, Option.map_eq_some_iff]

theorem mem_idxsOf_types {s : IOThreads E P} {i : ℕ} {t : ThreadType} :
    i ∈ s.types.idxsOf t ↔ ∃ d, s.groups.threadDatas[i]? = some d ∧ d.threadGroup = t := by
  rw [List.mem_idxsOf_iff_exists_getElem_pos, ← getElem?_types, List.getElem?_eq_some_iff]
  simp only [beq_iff_eq]

/-- The threads before, and the new one. -/
theorem getElem?_concat_eq_some {α : Type} {l : List α} {a b : α} {i : ℕ} :
    (l ++ [a])[i]? = some b ↔ l[i]? = some b ∨ i = l.length ∧ a = b := by
  rcases Nat.lt_trichotomy i l.length with hlt | rfl | hgt
  · rw [List.getElem?_append_left hlt]
    simp [hlt.ne]
  · rw [List.getElem?_concat_length, List.getElem?_eq_none le_rfl]
    simp
  · rw [List.getElem?_eq_none (by simp; omega), List.getElem?_eq_none hgt.le]
    simp [hgt.ne']

variable {s : IOThreads E P}

/-- A position fits in a `size_t`. -/
theorem Placed.toNat_ofNat (hs : s.Placed) {i : ℕ} {d : ThreadData E}
    (hi : s.groups.threadDatas[i]? = some d) : (UInt64.ofNat i).toNat = i := by
  have hlt := (List.getElem?_eq_some_iff.1 hi).1
  exact UInt64.toNat_ofNat_of_lt' (hlt.trans hs.length_lt)

/-- The threads of two positions have different event bases. -/
theorem Placed.evb_inj (hs : s.Placed) {i j : ℕ} {d d' : ThreadData E} {evb : E}
    (hi : s.groups.threadDatas[i]? = some d) (hj : s.groups.threadDatas[j]? = some d')
    (hd : d.evb = some evb) (hd' : d'.evb = some evb) : i = j := by
  have heq := (hs.threadId_eq i d evb hi hd).symm.trans (hs.threadId_eq j d' evb hj hd')
  rw [← hs.toNat_ofNat hi, ← hs.toNat_ofNat hj, heq]

/-- A group lists at most as many positions as there are threads. -/
theorem Placed.length_idxs_le (hs : s.Placed) {t : ThreadType} {group : ThreadGroup}
    (hgroup : s.groups.threadGroups t = some group) :
    group.threadIdxs.length ≤ s.groups.threadDatas.length := by
  calc group.threadIdxs.length
      ≤ (s.types.idxsOf t).length := (hs.idxs_sublist t group hgroup).length_le
    _ = s.types.count t := List.length_idxsOf
    _ ≤ s.types.length := List.count_le_length
    _ = s.groups.threadDatas.length := List.length_map _

theorem placed_new : (⟨{}, fun _ => {}⟩ : IOThreads E P).Placed where
  length_lt := Nat.two_pow_pos 64
  threadIdx_eq _ _ h := by cases h
  evb_isSome _ h := by cases h
  threadId_eq _ _ _ h := by cases h
  idxs_sublist _ _ h := by cases h

theorem Placed.addThreadGroup (hs : s.Placed) (option : ThreadGroupOption) :
    Placed { s with groups := s.groups.addThreadGroup option } := by
  refine ⟨hs.length_lt, hs.threadIdx_eq, hs.evb_isSome, hs.threadId_eq, ?_⟩
  intro t group hgroup
  change (s.groups.addThreadGroup option).threadGroups t = some group at hgroup
  rw [ThreadGroupListManager.threadGroups_addThreadGroup] at hgroup
  split at hgroup
  · rw [ThreadGroupListManager.makeThreadGroup_threadIdxs hgroup]
    exact List.nil_sublist _
  · exact hs.idxs_sublist t group hgroup

/-- The groups, the threads and the managers after a start. -/
theorem threadStarted_eq [DecidableEq E] {s' : IOThreads E P} {threadType : ThreadType} {evb : E}
    (h : s.threadStarted threadType evb = some s') :
    ∃ group, s.groups.threadGroups threadType = some group ∧
      s'.groups.threadGroups = Function.update s.groups.threadGroups threadType
        (some { group with threadIdxs := group.threadIdxs ++ [s.groups.threadDatas.length] }) ∧
      s'.groups.threadDatas = s.groups.threadDatas ++
        [⟨threadType, s.groups.threadDatas.length,
          if threadType.hasEventBase then some evb else none⟩] := by
  obtain ⟨group, hgroup, hr⟩ := Option.bind_eq_some_iff.1 h
  cases hr
  exact ⟨group, hgroup, rfl, rfl⟩

/-- A start adds a position to the list of its own group. -/
theorem threadIdxs_threadStarted [DecidableEq E] {s' : IOThreads E P} {threadType : ThreadType}
    {evb : E} (h : s.threadStarted threadType evb = some s') {t : ThreadType} {group' : ThreadGroup}
    (hgroup' : s'.groups.threadGroups t = some group') :
    ∃ group, s.groups.threadGroups t = some group ∧ group'.threadIdxs =
      group.threadIdxs ++ if t = threadType then [s.groups.threadDatas.length] else [] := by
  obtain ⟨group, hgroup, hgroups, -⟩ := threadStarted_eq h
  rw [hgroups] at hgroup'
  by_cases ht : t = threadType
  · subst ht
    rw [Function.update_self, Option.some.injEq] at hgroup'
    subst hgroup'
    exact ⟨group, hgroup, by rw [if_pos rfl]⟩
  · rw [Function.update_of_ne ht] at hgroup'
    exact ⟨group', hgroup', by rw [if_neg ht, List.append_nil]⟩

/-- A start makes no group. -/
theorem threadGroups_isSome_threadStarted [DecidableEq E] {s' : IOThreads E P}
    {threadType : ThreadType} {evb : E} (h : s.threadStarted threadType evb = some s')
    (t : ThreadType) :
    (s'.groups.threadGroups t).isSome = (s.groups.threadGroups t).isSome := by
  obtain ⟨group, hgroup, hgroups, -⟩ := threadStarted_eq h
  rw [hgroups]
  by_cases ht : t = threadType
  · subst ht
    rw [Function.update_self, hgroup]
    rfl
  · rw [Function.update_of_ne ht]

theorem types_threadStarted [DecidableEq E] {s' : IOThreads E P} {threadType : ThreadType} {evb : E}
    (h : s.threadStarted threadType evb = some s') : s'.types = s.types ++ [threadType] := by
  obtain ⟨group, -, -, hdatas⟩ := threadStarted_eq h
  rw [types, hdatas, List.map_append]
  rfl

/-- A thread that starts has the last position, in its own group. -/
theorem idxsOf_threadStarted [DecidableEq E] {s' : IOThreads E P} {threadType : ThreadType} {evb : E}
    (h : s.threadStarted threadType evb = some s') (t : ThreadType) :
    s'.types.idxsOf t =
      s.types.idxsOf t ++ if t = threadType then [s.groups.threadDatas.length] else [] := by
  rw [types_threadStarted h, List.idxsOf_append]
  congr 1
  by_cases ht : t = threadType
  · subst ht
    simp [types]
  · have ht' : threadType ≠ t := Ne.symm ht
    simp [ht, ht']

theorem Placed.threadStarted [DecidableEq E] (hs : s.Placed) {s' : IOThreads E P}
    {threadType : ThreadType} {evb : E} (h : s.threadStarted threadType evb = some s')
    (hnew : threadType.hasEventBase = true → s.IsStarted evb = false)
    (hlt : s.groups.threadDatas.length + 1 < 2 ^ 64) : s'.Placed := by
  obtain ⟨-, -, -, hdatas⟩ := threadStarted_eq h
  obtain ⟨hlen, -, hmanagers⟩ := threadStarted_spec h
  refine ⟨hlen ▸ hlt, ?_, ?_, ?_, ?_⟩
  · intro i d hd
    rw [hdatas, getElem?_concat_eq_some] at hd
    rcases hd with hd | ⟨rfl, rfl⟩
    · exact hs.threadIdx_eq i d hd
    · rfl
  · intro d hd
    rw [hdatas, List.mem_append, List.mem_singleton] at hd
    rcases hd with hd | rfl
    · exact hs.evb_isSome d hd
    · cases threadType <;> rfl
  · intro i d e hd he
    rw [hmanagers]
    rw [hdatas, getElem?_concat_eq_some] at hd
    rcases hd with hd | ⟨rfl, rfl⟩
    · have hold : ¬(threadType.hasEventBase = true ∧ e = evb) := by
        rintro ⟨hio, rfl⟩
        have hstarted := isStarted_iff.2 ⟨i, congrArg (Option.map ThreadData.evb) hd |>.trans
          (congrArg some he)⟩
        rw [hnew hio] at hstarted
        cases hstarted
      rw [if_neg hold]
      exact hs.threadId_eq i d e hd he
    · obtain ⟨hio, rfl⟩ : threadType.hasEventBase = true ∧ evb = e := by
        simpa [Option.ite_none_right_eq_some] using he
      rw [if_pos ⟨hio, rfl⟩]
      rfl
  · intro t group' hgroup'
    obtain ⟨group, hgroup, hidxs⟩ := threadIdxs_threadStarted h hgroup'
    rw [idxsOf_threadStarted h, hidxs]
    exact (hs.idxs_sublist t group hgroup).append_right _

/-- What the positions in `thread_datas_`, the lists of the groups and the thread ids of the
managers say about each other. -/
structure Bookkept (s : IOThreads E P) : Prop where
  threadIdx_eq : ∀ (i : ℕ) (d : ThreadData E), s.groups.threadDatas[i]? = some d → d.threadIdx = i
  group_isSome : ∀ d ∈ s.groups.threadDatas, (s.groups.threadGroups d.threadGroup).isSome
  count_idxs : ∀ t group, s.groups.threadGroups t = some group → ∀ i, group.threadIdxs.count i =
    if s.groups.threadDatas[i]?.map ThreadData.threadGroup = some t then 1 else 0
  evb_isSome_iff : ∀ d ∈ s.groups.threadDatas, d.evb.isSome = true ↔
    d.threadGroup = .connAccept ∨ d.threadGroup = .connClient ∨ d.threadGroup = .fiber
  threadId_eq : ∀ (i : ℕ) (d : ThreadData E) (evb : E), s.groups.threadDatas[i]? = some d →
    d.evb = some evb → (s.connManagers evb).threadId.toNat = i
  threadId_inj : ∀ (i j : ℕ) (d d' : ThreadData E) (evb evb' : E),
    s.groups.threadDatas[i]? = some d → s.groups.threadDatas[j]? = some d' → d.evb = some evb →
      d'.evb = some evb' → (s.connManagers evb).threadId = (s.connManagers evb').threadId → i = j

end IOThreads

namespace ThreadStartup

variable {E P : Type} {w w' : ThreadStartup E P}

/-- No type has a second group, and the list of a group is that of all positions of its threads. -/
structure Partitioned (w : ThreadStartup E P) : Prop where
  placed : w.threads.Placed
  nodup : (w.pending.map ThreadGroupOption.threadType).Nodup
  pending_none : ∀ option ∈ w.pending, w.threads.groups.threadGroups option.threadType = none
  group_isSome : ∀ t ∈ w.threads.types, (w.threads.groups.threadGroups t).isSome
  idxs_eq : ∀ t group, w.threads.groups.threadGroups t = some group →
    group.threadIdxs = w.threads.types.idxsOf t

theorem Partitioned.bookkept (hw : w.Partitioned) : w.threads.Bookkept where
  threadIdx_eq := hw.placed.threadIdx_eq
  group_isSome d hd := hw.group_isSome _ (List.mem_map_of_mem hd)
  count_idxs t group hgroup i := by
    rw [hw.idxs_eq t group hgroup]
    simp only [List.nodup_idxsOf.count, IOThreads.mem_idxsOf_types, Option.map_eq_some_iff]
  evb_isSome_iff d hd := by
    rw [hw.placed.evb_isSome d hd]
    cases d.threadGroup <;> decide
  threadId_eq i d evb hd he := by
    rw [hw.placed.threadId_eq i d evb hd he, hw.placed.toNat_ofNat hd]
  threadId_inj i j d d' evb evb' hi hj he he' heq := by
    rw [hw.placed.threadId_eq i d evb hi he, hw.placed.threadId_eq j d' evb' hj he'] at heq
    rw [← hw.placed.toNat_ofNat hi, ← hw.placed.toNat_ofNat hj, heq]

theorem partitioned_init {options : List ThreadGroupOption}
    (hnodup : (options.map ThreadGroupOption.threadType).Nodup) :
    (init options : ThreadStartup E P).Partitioned where
  placed := IOThreads.placed_new
  nodup := hnodup
  pending_none _ _ := rfl
  group_isSome _ h := by cases h
  idxs_eq _ _ h := by cases h

theorem Partitioned.addThreadGroup (hw : w.Partitioned) {option : ThreadGroupOption}
    {pending : List ThreadGroupOption} (hpending : w.pending = option :: pending) :
    Partitioned ⟨{ w.threads with groups := w.threads.groups.addThreadGroup option }, pending⟩ := by
  have hnone := hw.pending_none
  have hnodup := hw.nodup
  rw [hpending] at hnone hnodup
  rw [List.map_cons, List.nodup_cons] at hnodup
  -- no thread of the new group has started
  have hnew : option.threadType ∉ w.threads.types := by
    intro hmem
    have hsome := hw.group_isSome _ hmem
    rw [hnone option List.mem_cons_self] at hsome
    cases hsome
  refine ⟨hw.placed.addThreadGroup option, hnodup.2, ?_, ?_, ?_⟩
  · intro option' hmem
    have hne : option'.threadType ≠ option.threadType := by
      intro heq
      exact hnodup.1 (heq ▸ List.mem_map_of_mem hmem)
    rw [ThreadGroupListManager.threadGroups_addThreadGroup, if_neg hne]
    exact hnone option' (List.mem_cons_of_mem _ hmem)
  · intro t ht
    have hne : t ≠ option.threadType := fun heq => hnew (heq ▸ ht)
    rw [ThreadGroupListManager.threadGroups_addThreadGroup, if_neg hne]
    exact hw.group_isSome t ht
  · intro t group hgroup
    change group.threadIdxs = w.threads.types.idxsOf t
    rw [ThreadGroupListManager.threadGroups_addThreadGroup] at hgroup
    split at hgroup
    · next ht =>
      rw [ThreadGroupListManager.makeThreadGroup_threadIdxs hgroup, eq_comm, List.idxsOf_eq_nil_iff]
      intro t' ht'
      rw [beq_eq_false_iff_ne]
      rintro rfl
      exact hnew (ht ▸ ht')
    · exact hw.idxs_eq t group hgroup

variable [DecidableEq E]

theorem step_placed (hw : w.threads.Placed) {e : StartupEvent E} (h : step w e = some w') :
    w'.threads.Placed := by
  cases e with
  | makeThreadGroup =>
    obtain ⟨option, pending, -, rfl⟩ := step_makeThreadGroup h
    exact hw.addThreadGroup option
  | threadStarted threadType evb =>
    obtain ⟨hnew, hlt, -, hstart⟩ := step_threadStarted h
    exact hw.threadStarted hstart hnew hlt

theorem Partitioned.threadStarted (hw : w.Partitioned) {threadType : ThreadType} {evb : E}
    (h : step w (.threadStarted threadType evb) = some w') : w'.Partitioned := by
  obtain ⟨hnew, hlt, hpending, hstart⟩ := step_threadStarted h
  have hisSome := IOThreads.threadGroups_isSome_threadStarted hstart
  refine ⟨hw.placed.threadStarted hstart hnew hlt, hpending ▸ hw.nodup, ?_, ?_, ?_⟩
  · intro option hmem
    have hnone := hw.pending_none option (hpending ▸ hmem)
    rw [← Option.isNone_iff_eq_none, ← Option.not_isSome, hisSome, hnone]
    rfl
  · intro t ht
    rw [hisSome]
    rw [IOThreads.types_threadStarted hstart, List.mem_append, List.mem_singleton] at ht
    rcases ht with ht | rfl
    · exact hw.group_isSome t ht
    · obtain ⟨group, hgroup, -⟩ := IOThreads.threadStarted_eq hstart
      rw [hgroup]
      rfl
  · intro t group' hgroup'
    obtain ⟨group, hgroup, hidxs⟩ := IOThreads.threadIdxs_threadStarted hstart hgroup'
    rw [IOThreads.idxsOf_threadStarted hstart, hidxs, hw.idxs_eq t group hgroup]

theorem Partitioned.step (hw : w.Partitioned) {e : StartupEvent E} (h : step w e = some w') :
    w'.Partitioned := by
  cases e with
  | makeThreadGroup =>
    obtain ⟨option, pending, hpending, rfl⟩ := step_makeThreadGroup h
    exact hw.addThreadGroup hpending
  | threadStarted threadType evb => exact hw.threadStarted h

/-- The group and the event base of a thread that starts, null if its group has none. -/
def startedThread : StartupEvent E → Option (ThreadType × Option E)
  | .makeThreadGroup => none
  | .threadStarted threadType evb =>
    some (threadType, if threadType.hasEventBase then some evb else none)

/-- The entries of `thread_datas_`, without their positions. -/
def entries (w : ThreadStartup E P) : List (ThreadType × Option E) :=
  w.threads.groups.threadDatas.map fun d => (d.threadGroup, d.evb)

theorem step_entries {e : StartupEvent E} (h : step w e = some w') :
    w'.entries = w.entries ++ (startedThread e).toList := by
  cases e with
  | makeThreadGroup =>
    obtain ⟨option, pending, -, rfl⟩ := step_makeThreadGroup h
    exact (List.append_nil _).symm
  | threadStarted threadType evb =>
    obtain ⟨-, -, -, hstart⟩ := step_threadStarted h
    obtain ⟨-, -, -, hdatas⟩ := IOThreads.threadStarted_eq hstart
    rw [entries, hdatas, List.map_append]
    rfl

/-- Each thread that started has its entry, in the order of the starts. -/
theorem run_entries {es : List (StartupEvent E)} (h : run step w es = some w') :
    w'.entries = w.entries ++ es.filterMap startedThread := by
  induction es generalizing w with
  | nil =>
    cases h
    exact (List.append_nil _).symm
  | cons e es ih =>
    obtain ⟨v, hstep, hrun⟩ := run_cons_eq_some.1 h
    rw [ih hrun, step_entries hstep, List.append_assoc, List.filterMap_cons]
    cases startedThread e <;> rfl

/-- **Positions.** However the groups are made and their threads start, with at most one group of
each type: each thread that started has one entry in `thread_datas_`, the lists of the groups partition
the positions in it, each thread is listed by its own group, and a thread with an event base has its
position as its thread id. -/
theorem positions_bookkept (options : List ThreadGroupOption)
    (hnodup : (options.map ThreadGroupOption.threadType).Nodup) (es : List (StartupEvent E))
    (h : run step (init options : ThreadStartup E P) es = some w) :
    w.threads.Bookkept ∧ w.threads.groups.threadDatas.map (fun d => (d.threadGroup, d.evb)) =
      es.filterMap startedThread := by
  have hw : w.Partitioned :=
    run_invariant (fun w e w' (hw : w.Partitioned) h => hw.step h) (partitioned_init hnodup) h
  exact ⟨hw.bookkept, run_entries h⟩

/-- One thread starts in a group for connections, then one in a group for the database. -/
def acceptThenDb : List (StartupEvent ℕ) :=
  [.makeThreadGroup, .threadStarted .connAccept 0, .makeThreadGroup, .threadStarted .db 1]

theorem positions_bookkept_two_groups :
    ∃ w : ThreadStartup ℕ Unit,
      run step (init [⟨.connAccept, 1⟩, ⟨.db, 1⟩]) acceptThenDb = some w ∧ w.threads.Bookkept ∧
        w.threads.groups.threadDatas.map (fun d => (d.threadGroup, d.evb)) =
          [(.connAccept, some 0), (.db, none)] :=
  ⟨_, rfl, positions_bookkept [⟨.connAccept, 1⟩, ⟨.db, 1⟩] (by decide) acceptThenDb rfl⟩

/-! ## The event base of a group -/

/-- `GetEventBaseByThreadType` returns the event base of a thread of the group. -/
def ReturnsGroupEventBase (m : ThreadGroupListManager E) (threadType : ThreadType)
    (group : ThreadGroup) (draw : UInt32) : Prop :=
  ∃ evb, m.getEventBaseByThreadType threadType draw = some evb ∧
    ∃ k ∈ group.threadIdxs, m.getEventBaseByThreadID k = some evb

/-- The number drawn is the position of a thread of the group, or neither that thread nor those of
the group have an event base. -/
def DrawsGroupThread (m : ThreadGroupListManager E) (threadType : ThreadType) (group : ThreadGroup)
    (draw : UInt32) : Prop :=
  let k := (rand32 (UInt32.ofNat group.threadIdxs.length) draw).toNat
  k ∈ group.threadIdxs ∨ threadType.hasEventBase = false ∧ m.getEventBaseByThreadID k = some none

/-- **The event base of a group.** However the groups are made and their threads start, the event
base that `GetEventBaseByThreadType` returns for a group with a thread is that of a thread of the
group exactly if the number drawn is such a thread's position, or there is no event base at either. -/
theorem event_base_of_group_iff (options : List ThreadGroupOption) (es : List (StartupEvent E))
    (h : run step (init options : ThreadStartup E P) es = some w) {threadType : ThreadType}
    {group : ThreadGroup}
    (hgroup : w.threads.groups.getThreadGroupByThreadType threadType = some group)
    (hstarted : group.threadIdxs ≠ []) (draw : UInt32) :
    ReturnsGroupEventBase w.threads.groups threadType group draw ↔
      DrawsGroupThread w.threads.groups threadType group draw := by
  have hw : w.threads.Placed :=
    run_invariant (fun w e w' (hw : w.threads.Placed) h => step_placed hw h) IOThreads.placed_new h
  have hlt := rand32_length_lt (List.length_pos_iff.2 hstarted) (hw.length_idxs_le hgroup) draw
  have hdata := List.getElem?_eq_getElem hlt
  have hreturns : w.threads.groups.getEventBaseByThreadType threadType draw =
      w.threads.groups.getEventBaseByThreadID
        (rand32 (UInt32.ofNat group.threadIdxs.length) draw).toNat := by
    rw [ThreadGroupListManager.getEventBaseByThreadType, hgroup]
    rfl
  unfold ReturnsGroupEventBase DrawsGroupThread
  rw [hreturns]
  generalize (rand32 (UInt32.ofNat group.threadIdxs.length) draw).toNat = k at hlt hdata ⊢
  obtain ⟨d, hd⟩ : ∃ d, w.threads.groups.threadDatas[k]? = some d := ⟨_, hdata⟩
  have hk : w.threads.groups.getEventBaseByThreadID k = some d.evb := congrArg _ hd
  -- a thread the group lists is one of its type
  have hmember : ∀ j ∈ group.threadIdxs, ∃ d', w.threads.groups.threadDatas[j]? = some d' ∧
      d'.evb.isSome = threadType.hasEventBase := by
    intro j hj
    obtain ⟨d', hd', rfl⟩ := IOThreads.mem_idxsOf_types.1 ((hw.idxs_sublist _ _ hgroup).subset hj)
    exact ⟨d', hd', hw.evb_isSome d' (List.mem_of_getElem? hd')⟩
  constructor
  · rintro ⟨evb, hevb, j, hj, hj'⟩
    rw [hk] at hevb
    cases hevb
    obtain ⟨d', hd', hsome⟩ := hmember j hj
    have hsame : d'.evb = d.evb := by
      rw [ThreadGroupListManager.getEventBaseByThreadID, hd'] at hj'
      exact Option.some.inj hj'
    cases hevb : d.evb with
    | some evb =>
      rw [hw.evb_inj hd hd' hevb (hsame.trans hevb)]
      exact .inl hj
    | none =>
      refine .inr ⟨?_, hk.trans (congrArg some hevb)⟩
      rw [← hsome, hsame, hevb]
      rfl
  · rintro (hk' | ⟨hio, hnone⟩)
    · exact ⟨d.evb, hk, k, hk', hk⟩
    · obtain ⟨j, hj⟩ := List.exists_mem_of_ne_nil _ hstarted
      obtain ⟨d', hd', hsome⟩ := hmember j hj
      refine ⟨none, hnone, j, hj, ?_⟩
      rw [ThreadGroupListManager.getEventBaseByThreadID, hd']
      rw [hio, Option.isSome_eq_false_iff, Option.isNone_iff_eq_none] at hsome
      exact congrArg some hsome

/-- One thread starts in a group for accepted connections, then one in a group for clients. -/
def acceptThenClient : List (StartupEvent ℕ) :=
  [.makeThreadGroup, .makeThreadGroup, .threadStarted .connAccept 0, .threadStarted .connClient 1]

theorem event_base_of_group_iff_accept :
    ∃ w : ThreadStartup ℕ Unit,
      run step (init [⟨.connAccept, 1⟩, ⟨.connClient, 1⟩]) acceptThenClient = some w ∧
        ∃ group, w.threads.groups.getThreadGroupByThreadType .connAccept = some group ∧
          (ReturnsGroupEventBase w.threads.groups .connAccept group 7 ↔
            DrawsGroupThread w.threads.groups .connAccept group 7) := by
  refine ⟨_, rfl, _, rfl, ?_⟩
  exact event_base_of_group_iff [⟨.connAccept, 1⟩, ⟨.connClient, 1⟩] acceptThenClient rfl rfl
    (by decide) 7

/-- The group of the clients has one thread, in position 1, but the number drawn is 0. -/
theorem client_gets_accept_event_base :
    ¬ ∀ (options : List ThreadGroupOption) (es : List (StartupEvent ℕ)) (w : ThreadStartup ℕ Unit),
      run step (init options) es = some w → ∀ (threadType : ThreadType) (group : ThreadGroup),
        w.threads.groups.getThreadGroupByThreadType threadType = some group →
          group.threadIdxs ≠ [] → ∀ draw,
            ReturnsGroupEventBase w.threads.groups threadType group draw := by
  intro hall
  obtain ⟨evb, hevb, k, hk, hk'⟩ := hall [⟨.connAccept, 1⟩, ⟨.connClient, 1⟩] acceptThenClient _ rfl
    .connClient _ rfl (by decide) 0
  cases hevb
  rw [List.mem_singleton.1 hk] at hk'
  exact absurd hk' (by decide)

end ThreadStartup

end ServiceFramework.Net
