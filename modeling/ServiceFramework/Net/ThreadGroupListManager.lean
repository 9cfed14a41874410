import ServiceFramework.Net.ThreadLocalConnManager
import Mathlib.Logic.Function.Basic

/-!
# Thread groups

`ThreadGroupListManager` (`net/thread_group_list_manager.cc`) makes one group of threads for each
configured type. Every thread that starts is entered in `thread_datas_` under the next index; a
thread with an event base has the connection manager of its own thread told that index.

Event bases are pointers, so their type `E` is a parameter. A group is named by its type, the index
it has in `thread_groups_`.
-/

namespace ServiceFramework.Net

/-- `ThreadType`. -/
inductive ThreadType where
  | normal
  | connAccept
  | connClient
  | conn
  | fiber
  | db
  | redis
  | max
  deriving DecidableEq

/-- The executor of a group, with the number of threads it is made with. -/
inductive ThreadPoolExecutor where
  | ioThreadPoolExecutor (numThreads : ℤ)
  | cpuThreadPoolExecutor (numThreads : ℤ)
  deriving DecidableEq

/-- `ThreadGroup`. -/
structure ThreadGroup where
  threadPool : ThreadPoolExecutor
  threadType : ThreadType
  threadIdxs : List ℕ := []
  deriving DecidableEq

/-- `ThreadData`, a null `evb` being `none`. -/
structure ThreadData (E : Type) where
  threadGroup : ThreadType
  threadIdx : ℕ
  evb : Option E

/-- `ThreadGroupListOption::ThreadGroupOption`. -/
structure ThreadGroupOption where
  threadType : ThreadType
  threadSize : ℤ
  deriving DecidableEq

/-- The members of `ThreadGroupListManager`. -/
structure ThreadGroupListManager (E : Type) where
  threadGroups : ThreadType → Option ThreadGroup := fun _ => none
  threadDatas : List (ThreadData E) := []

/-- The switch on the thread type in `MakeThreadGroup`. -/
def makeThreadPool (threadType : ThreadType) (threadSize : ℤ) : Option ThreadPoolExecutor :=
  match threadType with
  | .normal => none
  | .connAccept => some (.ioThreadPoolExecutor threadSize)
  | .connClient => some (.ioThreadPoolExecutor threadSize)
  | .fiber => some (.ioThreadPoolExecutor threadSize)
  | .db => some (.cpuThreadPoolExecutor threadSize)
  | .redis => some (.cpuThreadPoolExecutor threadSize)
  | _ => none

/-- The switch on the thread type in the callback of `MakeThreadGroup`: whether a started thread
has its event base entered. -/
def ThreadType.hasEventBase : ThreadType → Bool
  | .connAccept => true
  | .connClient => true
  | .fiber => true
  | _ => false

/-- `folly::Random::rand32(max)` for the given draw: a number below `max`, or zero if that is
zero. -/
def rand32 (max draw : UInt32) : UInt32 := if max = 0 then 0 else draw % max

theorem rand32_lt {max : UInt32} (hmax : max ≠ 0) (draw : UInt32) : rand32 max draw < max := by
  rw [rand32, if_neg hmax, UInt32.lt_iff_toNat_lt, UInt32.toNat_mod]
  apply Nat.mod_lt
  rw [Nat.pos_iff_ne_zero]
  exact fun h => hmax (UInt32.toNat_inj.1 h)

/-- The number drawn for the size of a vector is a position in it, though the size is cut to 32
bits. -/
theorem rand32_length_lt {n size : ℕ} (hpos : 0 < n) (hle : n ≤ size) (draw : UInt32) :
    (rand32 (UInt32.ofNat n) draw).toNat < size := by
  by_cases hzero : UInt32.ofNat n = 0
  · rw [rand32, if_pos hzero]
    exact Nat.lt_of_lt_of_le hpos hle
  · have hlt := UInt32.lt_iff_toNat_lt.1 (rand32_lt hzero draw)
    have hmod : (UInt32.ofNat n).toNat ≤ n := by
      rw [UInt32.toNat_ofNat']
      exact Nat.mod_le _ _
    omega

namespace ThreadGroupListManager

variable {E : Type}

/-- `MakeThreadGroup`. -/
def makeThreadGroup (threadType : ThreadType) (threadSize : ℤ) : Option ThreadGroup :=
  (makeThreadPool threadType threadSize).map fun threadPool => { threadPool, threadType }

/-- The body of the loop in `Initialize`. -/
def addThreadGroup (m : ThreadGroupListManager E) (option : ThreadGroupOption) :
    ThreadGroupListManager E :=
  { m with
    threadGroups := Function.update m.threadGroups option.threadType
      (makeThreadGroup option.threadType option.threadSize) }

/-- `Initialize`. -/
def initializeWith (m : ThreadGroupListManager E) (options : List ThreadGroupOption) :
    Bool × ThreadGroupListManager E :=
  if options.isEmpty then (false, m) else (true, options.foldl addThreadGroup m)

/-- The constructor. -/
def ofOptions (options : List ThreadGroupOption) : ThreadGroupListManager E :=
  (initializeWith {} options).2

/-- `GetEventBaseByThreadID`. The index is not checked: `none` is a read outside `thread_datas_`,
`some none` a thread without event base. -/
def getEventBaseByThreadID (m : ThreadGroupListManager E) (idx : ℕ) : Option (Option E) :=
  m.threadDatas[idx]?.map ThreadData.evb

/-- `GetThreadGroupByThreadType`. -/
def getThreadGroupByThreadType (m : ThreadGroupListManager E) (threadType : ThreadType) :
    Option ThreadGroup :=
  m.threadGroups threadType

/-- `GetEventBaseByThreadType` for the given draw, with the results of
`GetEventBaseByThreadID`. -/
def getEventBaseByThreadType (m : ThreadGroupListManager E) (threadType : ThreadType)
    (draw : UInt32) : Option (Option E) :=
  match m.getThreadGroupByThreadType threadType with
  | some group =>
    let idx := rand32 (UInt32.ofNat group.threadIdxs.length) draw
    m.threadDatas[idx.toNat]?.map ThreadData.evb
  | none => some none

/-- `GetIOThreadPoolExecutor`. -/
def getIOThreadPoolExecutor (m : ThreadGroupListManager E) (threadType : ThreadType) :
    Option ThreadPoolExecutor :=
  if threadType = .connAccept ∨ threadType = .connClient ∨ threadType = .fiber then
    (m.threadGroups threadType).map ThreadGroup.threadPool
  else
    none

/-- A new group has no thread. -/
theorem makeThreadGroup_threadIdxs {threadType : ThreadType} {threadSize : ℤ} {group : ThreadGroup}
    (h : makeThreadGroup threadType threadSize = some group) : group.threadIdxs = [] := by
  obtain ⟨pool, -, rfl⟩ := Option.map_eq_some_iff.1 h
  rfl

/-- Only the group of the option's type changes. -/
theorem threadGroups_addThreadGroup (m : ThreadGroupListManager E) (option : ThreadGroupOption)
    (t : ThreadType) :
    (m.addThreadGroup option).threadGroups t =
      if t = option.threadType then makeThreadGroup option.threadType option.threadSize
      else m.threadGroups t :=
  Function.update_apply _ _ _ _

theorem initializeWith_eq (m : ThreadGroupListManager E) (options : List ThreadGroupOption) :
    (m.initializeWith options).2 = options.foldl addThreadGroup m := by
  cases options with
  | nil => rfl
  | cons option options => rfl

/-- Making the groups starts no thread. -/
theorem threadDatas_initializeWith (m : ThreadGroupListManager E) (options : List ThreadGroupOption) :
    (m.initializeWith options).2.threadDatas = m.threadDatas := by
  rw [initializeWith_eq]
  induction options generalizing m with
  | nil => rfl
  | cons option options ih => exact ih (m.addThreadGroup option)

theorem getEventBaseByThreadID_append (m : ThreadGroupListManager E) (d : ThreadData E)
    (groups : ThreadType → Option ThreadGroup) (idx : ℕ) :
    getEventBaseByThreadID ⟨groups, m.threadDatas ++ [d]⟩ idx =
      if idx = m.threadDatas.length then some d.evb else m.getEventBaseByThreadID idx := by
  unfold getEventBaseByThreadID
  split
  · next h =>
    rw [h, List.getElem?_concat_length]
    rfl
  · next h =>
    rcases Nat.lt_or_ge idx m.threadDatas.length with hlt | hge
    · rw [List.getElem?_append_left hlt]
    · rw [List.getElem?_eq_none (by simp; omega), List.getElem?_eq_none hge]

theorem getEventBaseByThreadID_lt {m : ThreadGroupListManager E} {idx : ℕ} {evb : Option E}
    (h : m.getEventBaseByThreadID idx = some evb) : idx < m.threadDatas.length := by
  obtain ⟨d, hd, -⟩ := Option.map_eq_some_iff.1 h
  exact (List.getElem?_eq_some_iff.1 hd).1

end ThreadGroupListManager

/-! ## Started threads -/

/-- The thread groups, and the connection manager that is local to the thread of each event
base. -/
structure IOThreads (E P : Type) where
  groups : ThreadGroupListManager E
  connManagers : E → ThreadLocalConnManager P

namespace IOThreads

variable {E P : Type}

/-- No thread has started. -/
def init (options : List ThreadGroupOption) : IOThreads E P where
  groups := .ofOptions options
  connManagers _ := {}

/-- `evb` is the event base of a started thread. -/
def IsStarted [DecidableEq E] (s : IOThreads E P) (evb : E) : Bool :=
  s.groups.threadDatas.any fun d => d.evb = some evb

/-- `threadStarted` of the observer of a group, with the callback of `MakeThreadGroup`, for a new
thread with the event base `evb`. -/
def threadStarted [DecidableEq E] (s : IOThreads E P) (threadType : ThreadType) (evb : E) :
    Option (IOThreads E P) := do
  let group ← s.groups.threadGroups threadType
  let idx := s.groups.threadDatas.length
  return {
    groups := {
      threadGroups := Function.update s.groups.threadGroups threadType
        (some { group with threadIdxs := group.threadIdxs ++ [idx] })
      threadDatas := s.groups.threadDatas ++
        [{ threadGroup := threadType, threadIdx := idx,
           evb := if threadType.hasEventBase then some evb else none }] }
    connManagers :=
      if threadType.hasEventBase then
        Function.update s.connManagers evb ((s.connManagers evb).setThreadId (UInt64.ofNat idx))
      else
        s.connManagers }

/-- The new thread has the last index, and its own manager is told the index. -/
theorem threadStarted_spec [DecidableEq E] {s s' : IOThreads E P} {threadType : ThreadType} {evb : E}
    (h : s.threadStarted threadType evb = some s') :
    s'.groups.threadDatas.length = s.groups.threadDatas.length + 1 ∧
      (∀ i, s'.groups.getEventBaseByThreadID i = if i = s.groups.threadDatas.length then
        some (if threadType.hasEventBase then some evb else none)
        else s.groups.getEventBaseByThreadID i) ∧
      ∀ evb', s'.connManagers evb' = if threadType.hasEventBase = true ∧ evb' = evb then
        (s.connManagers evb).setThreadId (UInt64.ofNat s.groups.threadDatas.length)
        else s.connManagers evb' := by
  obtain ⟨group, -, hr⟩ := Option.bind_eq_some_iff.1 h
  cases hr
  refine ⟨List.length_append, ?_, ?_⟩
  · intro i
    exact ThreadGroupListManager.getEventBaseByThreadID_append _ _ _ i
  · intro evb'
    cases threadType.hasEventBase with
    | false => simp
    | true =>
      by_cases he : evb' = evb
      · subst he
        simp
      · simp [he]

theorem threadStarted_isSome [DecidableEq E] {s : IOThreads E P} {threadType : ThreadType} (evb : E)
    (h : (s.groups.threadGroups threadType).isSome) :
    ∃ s', s.threadStarted threadType evb = some s' ∧
      ∀ t, (s.groups.threadGroups t).isSome → (s'.groups.threadGroups t).isSome := by
  obtain ⟨group, hgroup⟩ := Option.isSome_iff_exists.1 h
  unfold threadStarted
  rw [hgroup]
  refine ⟨_, rfl, ?_⟩
  intro t ht
  by_cases he : t = threadType
  · subst he
    simp
  · simpa [he] using ht

theorem isStarted_iff [DecidableEq E] {s : IOThreads E P} {evb : E} :
    s.IsStarted evb = true ↔ ∃ i, s.groups.getEventBaseByThreadID i = some (some evb) := by
  unfold IsStarted ThreadGroupListManager.getEventBaseByThreadID
  rw [List.any_eq_true]
  constructor
  · rintro ⟨d, hd, he⟩
    obtain ⟨i, hi⟩ := List.mem_iff_getElem?.1 hd
    exact ⟨i, by rw [hi]; exact congrArg some (of_decide_eq_true he)⟩
  · rintro ⟨i, hi⟩
    obtain ⟨d, hd, he⟩ := Option.map_eq_some_iff.1 hi
    exact ⟨d, List.mem_of_getElem? hd, decide_eq_true he⟩

end IOThreads

end ServiceFramework.Net
