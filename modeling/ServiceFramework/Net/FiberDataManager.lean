import ServiceFramework.Lib.BitField
import ServiceFramework.Lib.Transition
import ServiceFramework.Lib.Window
import Mathlib.Logic.Function.Basic

/-!
# The fiber slots of the threads

`FiberDataManager` (`net/fiber_data_manager.cc`): the table from the low 32 bits of a fiber id to
its slot, a shared pointer, so the type `P` of slots is a parameter. The low bits come from a
counter that skips zero, and the result of the insertion is ignored: a slot whose key is taken is
handed out all the same, and is not in the table.

`FiberWorld` is the managers of all threads with their live slots. While every slot is deleted
before `2^32 - 1` further allocations on its manager, the table is a window over the allocations
and finds exactly the live slots (`slots_found`).
-/

namespace ServiceFramework.Net

open BitField Transition Window

/-! ## The slots -/

/-- `FiberDataInfo::State`. -/
inductive FiberState where
  | idle
  | notWaiting
  | waiting
  | timeout
  | posted
  | postedHasError
  deriving DecidableEq

/-- A baton of the fibers library with at most one waiting fiber. -/
inductive Baton where
  | noWaiter
  | waiting
  | posted
  | timeout
  deriving DecidableEq

namespace Baton

/-- A baton is posted or timed out once. -/
def post : Baton → Baton
  | timeout => timeout
  | _ => posted

/-- The timer of `timed_wait` fires. -/
def expire : Baton → Baton
  | posted => posted
  | _ => timeout

/-- `timed_wait` until the fiber is suspended. -/
def suspend : Baton → Baton
  | noWaiter => waiting
  | b => b

/-- Whether the fiber that waits is resumed. -/
def ready : Baton → Bool
  | posted => true
  | timeout => true
  | _ => false

end Baton

/-- `FiberDataInfo`. -/
structure FiberDataInfo where
  fiberId : UInt64 := 0
  baton : Baton := .noWaiter
  state : FiberState := .idle
  deriving DecidableEq

namespace FiberDataInfo

/-- `Wait` until the fiber is suspended. -/
def wait (d : FiberDataInfo) : FiberDataInfo := { d with baton := d.baton.suspend }

/-- `Wait` once the fiber is resumed. -/
def resume (d : FiberDataInfo) : FiberDataInfo :=
  if d.baton = .posted then d else { d with state := .timeout }

/-- `Post`. -/
def post (d : FiberDataInfo) (rc : Bool) : FiberDataInfo :=
  { d with state := if rc then .posted else .postedHasError, baton := d.baton.post }

end FiberDataInfo

/-! ## The manager -/

/-- `FIBER_MAX_QUEUE_SIZE`. -/
def fiberMaxQueueSize : ℕ := 4096

/-- The members of `FiberDataManager`. The constructor sets `max_queue_size_`; `AllocFiberData`
does not read it. -/
structure FiberDataManager (P : Type) where
  maxQueueSize : ℕ := fiberMaxQueueSize
  threadId : UInt32 := 0
  currentFiberId : UInt32 := 0
  datas : Table UInt64 P := ∅
  inited : Bool := false

/-- `GetThreadIDByFiberID`. -/
def getThreadIDByFiberID (fiberId : UInt64) : UInt64 := fiberId >>> 32

/-- The two increments of `current_fiber_id_` in `AllocFiberData`. -/
def nextFiberId (currentFiberId : UInt32) : UInt32 :=
  let currentFiberId := currentFiberId + 1
  if currentFiberId = 0 then currentFiberId + 1 else currentFiberId

namespace FiberDataManager

variable {P : Type}

/-- `Initialize`. A second call changes nothing. -/
def initializeWith (m : FiberDataManager P) (threadId : UInt32) : Bool × FiberDataManager P :=
  if !m.inited then (true, { m with threadId, inited := true }) else (true, m)

/-- `AllocFiberData` with the new slot `data`: the fiber id given to it, or `none` for the empty
pointer of a full table. The `CHECK` on `inited_` ends the process. -/
def allocFiberData (m : FiberDataManager P) (data : P) :
    Option (Option UInt64 × FiberDataManager P) :=
  if m.inited then
    if m.datas.size < fiberMaxQueueSize then
      let currentFiberId := nextFiberId m.currentFiberId
      some (some (pair m.threadId.toUInt64 currentFiberId),
        { m with currentFiberId, datas := m.datas.insertNew currentFiberId.toUInt64 data })
    else
      some (none, m)
  else
    none

/-- `FindFiberData`. -/
def findFiberData (m : FiberDataManager P) (fiberId : UInt64) : Option P :=
  m.datas.find (fiberId &&& 0xffffffff)

/-- `DeleteFiberData`. -/
def deleteFiberData (m : FiberDataManager P) (fiberId : UInt64) : Bool × FiberDataManager P :=
  if fiberId &&& 0xffffffff ∈ m.datas then
    (true, { m with datas := m.datas.erase (fiberId &&& 0xffffffff) })
  else
    (false, m)

/-! ## Keys -/

/-- The number of distinct keys: the counter skips zero. -/
def keySpan : ℕ := 2 ^ 32 - 1

/-- `current_fiber_id_` after the first `n` allocations. -/
def counterAfter : ℕ → UInt32
  | 0 => 0
  | n + 1 => UInt32.ofNat (ringKey keySpan n)

/-- The key of allocation `n`. -/
def fiberKey (n : ℕ) : UInt64 := UInt64.ofNat (ringKey keySpan n)

theorem keySpan_pos : 0 < keySpan := by
  decide

theorem ringKey_lt (n : ℕ) : ringKey keySpan n < 2 ^ 32 := by
  have hle := ringKey_le keySpan_pos n
  unfold keySpan at *
  omega

theorem fiberKey_toNat (n : ℕ) : (fiberKey n).toNat = ringKey keySpan n := by
  have hlt := ringKey_lt n
  apply UInt64.toNat_ofNat_of_lt'
  change ringKey keySpan n < 2 ^ 64
  omega

theorem nextFiberId_toNat (c : UInt32) :
    (nextFiberId c).toNat = if c.toNat = keySpan then 1 else c.toNat + 1 := by
  have hc : c.toNat < 2 ^ 32 := c.toNat_lt
  have hadd : (c + 1).toNat = (c.toNat + 1) % 2 ^ 32 := UInt32.toNat_add c 1
  have hzero : c + 1 = 0 ↔ c.toNat = keySpan := by
    rw [← UInt32.toNat_inj, hadd]
    change _ = 0 ↔ c.toNat = 2 ^ 32 - 1
    omega
  unfold nextFiberId
  by_cases h : c.toNat = keySpan
  · rw [if_pos h, hzero.2 h]
    rfl
  · rw [if_neg h]
    simp only [hzero, h, if_false, hadd]
    change c.toNat ≠ 2 ^ 32 - 1 at h
    omega

theorem counterAfter_succ_toNat (n : ℕ) :
    (counterAfter (n + 1)).toNat = ringKey keySpan n :=
  UInt32.toNat_ofNat_of_lt' (ringKey_lt n)

theorem nextFiberId_counterAfter (n : ℕ) : nextFiberId (counterAfter n) = counterAfter (n + 1) := by
  apply UInt32.toNat_inj.1
  rw [nextFiberId_toNat]
  cases n with
  | zero => rfl
  | succ n =>
    simp only [counterAfter_succ_toNat]
    exact (ringKey_succ keySpan_pos n).symm

theorem counterAfter_toUInt64 (n : ℕ) : (counterAfter (n + 1)).toUInt64 = fiberKey n := by
  apply UInt64.toNat_inj.1
  rw [UInt32.toNat_toUInt64, counterAfter_succ_toNat, fiberKey_toNat]

theorem spaced_fiberKey : Spaced fiberKey keySpan := by
  intro m n hmn hn he
  apply spaced_ringKey keySpan m n hmn hn
  rw [← fiberKey_toNat m, ← fiberKey_toNat n, he]

theorem low_toUInt64 (id : UInt64) : (low id).toUInt64 = id &&& 0xffffffff := by
  apply UInt64.toNat_inj.1
  rw [UInt32.toNat_toUInt64, low_toNat, UInt64.toNat_and]
  exact (Nat.and_two_pow_sub_one_eq_mod id.toNat 32).symm

/-! ## What an operation does -/

/-- All that `AllocFiberData` can do. -/
theorem allocFiberData_cases {m : FiberDataManager P} {data : P}
    {r : Option UInt64 × FiberDataManager P} (h : m.allocFiberData data = some r) :
    m.inited = true ∧ (r = (none, m) ∨ m.datas.size < fiberMaxQueueSize ∧
      r = (some (pair m.threadId.toUInt64 (nextFiberId m.currentFiberId)),
        { m with
          currentFiberId := nextFiberId m.currentFiberId
          datas := m.datas.insertNew (nextFiberId m.currentFiberId).toUInt64 data })) := by
  unfold allocFiberData at h
  split at h
  · next hinited =>
    split at h
    · next hroom =>
      cases h
      exact ⟨hinited, Or.inr ⟨hroom, rfl⟩⟩
    · cases h
      exact ⟨hinited, Or.inl rfl⟩
  · cases h

/-- Below `FIBER_MAX_QUEUE_SIZE` there is a slot, whatever `max_queue_size_` is. -/
theorem allocFiberData_of_room {m : FiberDataManager P} (hinited : m.inited = true)
    (hroom : m.datas.size < fiberMaxQueueSize) (data : P) :
    ∃ fiberId m', m.allocFiberData data = some (some fiberId, m') ∧ m'.inited = true ∧
      m'.datas.size ≤ m.datas.size + 1 := by
  unfold allocFiberData
  rw [if_pos hinited, if_pos hroom]
  exact ⟨_, _, rfl, hinited, Table.size_insertNew_le _ _ _⟩

theorem allocFiberData_of_full {m : FiberDataManager P} (hinited : m.inited = true)
    (hfull : ¬ m.datas.size < fiberMaxQueueSize) (data : P) :
    m.allocFiberData data = some (none, m) := by
  unfold allocFiberData
  rw [if_pos hinited, if_neg hfull]

/-- Deleting erases the key of the id and nothing else, whether or not it was in the table. -/
theorem deleteFiberData_eq (m : FiberDataManager P) (fiberId : UInt64) :
    (m.deleteFiberData fiberId).2 = { m with datas := m.datas.erase (fiberId &&& 0xffffffff) } := by
  unfold deleteFiberData
  split
  · rfl
  · next h =>
    rw [Table.erase_of_notMem h]

/-- The table is a window over the allocations of the manager of `thread`: `count` slots were
handed out, and `live` are those not given back, with their numbers. -/
structure Tracks (m : FiberDataManager P) (thread : UInt32) (count : ℕ) (live : List (ℕ × P)) :
    Prop where
  threadId : m.inited = true → m.threadId = thread
  counter : m.currentFiberId = counterAfter count
  holds : Holds fiberKey keySpan m.datas count live
  size_le : m.datas.size ≤ fiberMaxQueueSize

variable {m m' : FiberDataManager P} {thread : UInt32} {count : ℕ} {live : List (ℕ × P)}

theorem tracks_new (thread : UInt32) : ({} : FiberDataManager P).Tracks thread 0 [] where
  threadId h := by
    cases h
  counter := rfl
  holds := holds_empty 0
  size_le := Nat.zero_le _

theorem Tracks.initializeWith (hm : m.Tracks thread count live) :
    (m.initializeWith thread).2.Tracks thread count live := by
  unfold FiberDataManager.initializeWith
  split
  · exact ⟨fun _ => rfl, hm.counter, hm.holds, hm.size_le⟩
  · exact hm

theorem Tracks.findFiberData_iff (hm : m.Tracks thread count live) {fiberId : UInt64} {data : P} :
    m.findFiberData fiberId = some data ↔
      ∃ n, (n, data) ∈ live ∧ fiberKey n = fiberId &&& 0xffffffff :=
  hm.holds.find_iff _ data

/-- A slot is handed out while no live one is `2^32 - 1` allocations old. -/
theorem Tracks.alloc (hm : m.Tracks thread count live)
    (hage : m.datas.size < fiberMaxQueueSize → ∀ x ∈ live, count < x.1 + keySpan) {data : P}
    {fiberId : UInt64} (h : m.allocFiberData data = some (some fiberId, m')) :
    fiberId = pair thread.toUInt64 (counterAfter (count + 1)) ∧
      m'.Tracks thread (count + 1) ((count, data) :: live) ∧ m'.inited = m.inited ∧
      m'.datas.size = m.datas.size + 1 := by
  obtain ⟨hinited, hr | ⟨hroom, hr⟩⟩ := allocFiberData_cases h
  · cases hr
  · cases hr
    have hfree := hm.holds.next_free spaced_fiberKey (hage hroom)
    rw [hm.threadId hinited, hm.counter, nextFiberId_counterAfter, counterAfter_toUInt64,
      Table.insertNew_of_notMem hfree]
    have hsize := Table.size_insert_of_notMem hfree data
    refine ⟨rfl, ⟨fun _ => rfl, rfl, ?_, ?_⟩, rfl, hsize⟩
    · exact hm.holds.insert spaced_fiberKey keySpan_pos (hage hroom) data
    · exact hsize ▸ hroom

theorem Tracks.delete (hm : m.Tracks thread count live) (fiberId : UInt64) :
    (m.deleteFiberData fiberId).2.Tracks thread count
      (live.filter fun x => fiberKey x.1 ≠ fiberId &&& 0xffffffff) := by
  rw [deleteFiberData_eq]
  exact ⟨hm.threadId, hm.counter, hm.holds.erase _,
    Nat.le_trans (Table.size_erase_le _ _) hm.size_le⟩

end FiberDataManager

/-! ## The managers of all threads -/

/-- A slot that was handed out: its manager, the number of its allocation there, its id. -/
structure FiberSlot (P : Type) where
  thread : UInt32
  number : ℕ
  fiberId : UInt64
  data : P

/-- The managers by their thread ids, how many slots each has handed out, and the slots handed out
and not deleted. -/
structure FiberWorld (P : Type) where
  managers : UInt32 → FiberDataManager P
  allocs : UInt32 → ℕ
  live : List (FiberSlot P)

/-- The calls on the managers. -/
inductive FiberEvent (P : Type) where
  | initializeWith (thread : UInt32)
  | allocFiberData (thread : UInt32) (data : P)
  | findFiberData (fiberId : UInt64)
  | deleteFiberData (fiberId : UInt64)

namespace FiberWorld

open FiberDataManager

variable {P : Type}

/-- No manager has been initialised. -/
def init : FiberWorld P where
  managers _ := {}
  allocs _ := 0
  live := []

/-- The thread whose manager a fiber id selects. -/
def selected (fiberId : UInt64) : UInt32 := (getThreadIDByFiberID fiberId).toUInt32

/-- `FindFiberData` on the selected manager. -/
def lookup (w : FiberWorld P) (fiberId : UInt64) : Option P :=
  (w.managers (selected fiberId)).findFiberData fiberId

/-- `DeleteFiberData` on the selected manager. -/
def delete (w : FiberWorld P) (fiberId : UInt64) : Bool × FiberWorld P :=
  let (deleted, m) := (w.managers (selected fiberId)).deleteFiberData fiberId
  (deleted, { w with
    managers := Function.update w.managers (selected fiberId) m
    live := w.live.filter fun s => s.fiberId ≠ fiberId })

def step (w : FiberWorld P) : FiberEvent P → Option (FiberWorld P)
  | .initializeWith thread =>
    some { w with
      managers := Function.update w.managers thread ((w.managers thread).initializeWith thread).2 }
  | .allocFiberData thread data =>
    match (w.managers thread).allocFiberData data with
    | none => none
    | some (none, m) => some { w with managers := Function.update w.managers thread m }
    | some (some fiberId, m) =>
      some {
        managers := Function.update w.managers thread m
        allocs := Function.update w.allocs thread (w.allocs thread + 1)
        live := { thread, number := w.allocs thread, fiberId, data } :: w.live }
  | .findFiberData _ => some w
  | .deleteFiberData fiberId => some (w.delete fiberId).2

/-- No live slot has been followed by `2^32 - 1` allocations on its manager. -/
def Young (_ : FiberWorld P) (_ : FiberEvent P) (w' : FiberWorld P) : Prop :=
  ∀ s ∈ w'.live, w'.allocs s.thread ≤ s.number + keySpan

instance (w : FiberWorld P) (e : FiberEvent P) (w' : FiberWorld P) : Decidable (Young w e w') :=
  inferInstanceAs (Decidable (∀ s ∈ w'.live, _ ≤ _))

/-- The slot table is what its callers take it for. -/
structure Sound (w : FiberWorld P) : Prop where
  distinct : (w.live.map FiberSlot.fiberId).Nodup
  low_ne_zero : ∀ s ∈ w.live, low s.fiberId ≠ 0
  lookup_iff : ∀ fiberId data,
    w.lookup fiberId = some data ↔ ∃ s ∈ w.live, s.fiberId = fiberId ∧ s.data = data
  delete_live : ∀ s ∈ w.live, (w.delete s.fiberId).1 = true ∧
    ∀ fiberId, (w.delete s.fiberId).2.lookup fiberId =
      if fiberId = s.fiberId then none else w.lookup fiberId
  size_le : ∀ thread, (w.managers thread).datas.size ≤ 4096

/-! ## The invariant -/

/-- The live slots of a manager, by the number of their allocation. -/
def numbered (w : FiberWorld P) (thread : UInt32) : List (ℕ × P) :=
  (w.live.filter fun s => s.thread = thread).map fun s => (s.number, s.data)

/-- Each manager tracks the live slots of its thread, under the ids of their numbers. -/
structure Tracked (w : FiberWorld P) : Prop where
  tracks : ∀ thread,
    (w.managers thread).Tracks thread (w.allocs thread) (w.numbered thread)
  fiberId : ∀ s ∈ w.live, s.fiberId = pair s.thread.toUInt64 (counterAfter (s.number + 1))
  distinct : (w.live.map FiberSlot.fiberId).Nodup

variable {w w' : FiberWorld P}

theorem mem_numbered {thread : UInt32} {n : ℕ} {data : P} :
    (n, data) ∈ w.numbered thread ↔ ∃ s ∈ w.live, s.thread = thread ∧ s.number = n ∧ s.data = data := by
  simp [numbered, and_assoc]

theorem tracked_init : Tracked (init : FiberWorld P) where
  tracks := tracks_new
  fiberId _ hs := absurd hs List.not_mem_nil
  distinct := List.nodup_nil

/-- A thread id is read back from an id of its manager. -/
theorem selected_pair (thread : UInt32) (k : UInt32) : selected (pair thread.toUInt64 k) = thread := by
  have hlt : thread.toUInt64.toNat < 2 ^ 32 := by
    rw [UInt32.toNat_toUInt64]
    exact thread.toNat_lt
  change (high (pair thread.toUInt64 k)).toUInt32 = thread
  rw [high_pair hlt]
  exact UInt32.toUInt32_toUInt64 thread

/-- The selected manager and the key together are the id. -/
theorem eq_of_selected {id id' : UInt64} (hs : selected id = selected id')
    (hk : id &&& 0xffffffff = id' &&& 0xffffffff) : id = id' := by
  have hhigh : id.toNat / 2 ^ 32 = id'.toNat / 2 ^ 32 := by
    have h := congrArg UInt32.toNat hs
    have hid := id.toNat_lt
    have hid' := id'.toNat_lt
    change ((high id).toUInt32).toNat = ((high id').toUInt32).toNat at h
    rw [UInt64.toNat_toUInt32, UInt64.toNat_toUInt32, high_toNat, high_toNat] at h
    omega
  have hlow : id.toNat % 2 ^ 32 = id'.toNat % 2 ^ 32 := by
    rw [← low_toUInt64, ← low_toUInt64] at hk
    have h := congrArg UInt64.toNat hk
    rwa [UInt32.toNat_toUInt64, UInt32.toNat_toUInt64, low_toNat, low_toNat] at h
  apply UInt64.toNat_inj.1
  omega

theorem lookup_delete (w : FiberWorld P) (id id' : UInt64) :
    (w.delete id).2.lookup id' = if id' = id then none else w.lookup id' := by
  have hm : (w.delete id).2.managers = Function.update w.managers (selected id)
      { w.managers (selected id) with
        datas := (w.managers (selected id)).datas.erase (id &&& 0xffffffff) } := by
    rw [← deleteFiberData_eq]
    rfl
  unfold lookup
  rw [hm]
  by_cases hsel : selected id' = selected id
  · rw [hsel, Function.update_self]
    change Table.find (AList.erase _ _) _ = _
    rw [Table.find_erase]
    by_cases hk : id' &&& 0xffffffff = id &&& 0xffffffff
    · rw [if_pos hk, if_pos (eq_of_selected hsel hk)]
    · rw [if_neg hk, if_neg]
      · rfl
      · rintro rfl
        exact hk rfl
  · rw [Function.update_of_ne hsel, if_neg]
    rintro rfl
    exact hsel rfl

/-- The id of a live slot is the one with its manager and its key. -/
theorem Tracked.fiberId_eq_iff (hw : Tracked w) {s : FiberSlot P} (hs : s ∈ w.live) (id : UInt64) :
    s.fiberId = id ↔ s.thread = selected id ∧ fiberKey s.number = id &&& 0xffffffff := by
  have hsel : selected s.fiberId = s.thread := by
    rw [hw.fiberId s hs, selected_pair]
  have hkey : s.fiberId &&& 0xffffffff = fiberKey s.number := by
    rw [← low_toUInt64, hw.fiberId s hs, low_pair, counterAfter_toUInt64]
  constructor
  · intro he
    rw [← he]
    exact ⟨hsel.symm, hkey.symm⟩
  · rintro ⟨hthread, hk⟩
    exact eq_of_selected (hsel.trans hthread) (hkey.trans hk)

/-- A slot of a thread with fewer than `2^32 - 1` allocations after it has another key than the
next one. -/
theorem Tracked.fiberId_ne_next (hw : Tracked w) {thread : UInt32}
    (hage : ∀ x ∈ w.numbered thread, w.allocs thread < x.1 + keySpan) {s : FiberSlot P}
    (hs : s ∈ w.live) :
    s.fiberId ≠ pair thread.toUInt64 (counterAfter (w.allocs thread + 1)) := by
  intro he
  obtain ⟨hthread, hkey⟩ := (hw.fiberId_eq_iff hs _).1 he
  rw [selected_pair] at hthread
  rw [← low_toUInt64, low_pair, counterAfter_toUInt64] at hkey
  have hmem : (s.number, s.data) ∈ w.numbered thread := mem_numbered.2 ⟨s, hs, hthread, rfl, rfl⟩
  exact spaced_fiberKey s.number (w.allocs thread) ((hw.tracks thread).holds.lt_count _ hmem)
    (hage _ hmem) hkey

theorem tracked_initializeWith (hw : Tracked w) (thread : UInt32) :
    Tracked { w with
      managers := Function.update w.managers thread
        ((w.managers thread).initializeWith thread).2 } := by
  refine ⟨?_, hw.fiberId, hw.distinct⟩
  intro t
  by_cases ht : t = thread
  · subst ht
    simp only [Function.update_self]
    exact (hw.tracks t).initializeWith
  · simp only [Function.update_of_ne ht]
    exact hw.tracks t

/-- A slot that is handed out while no live slot of the thread is `2^32 - 1` allocations old. -/
theorem tracked_alloc (hw : Tracked w) {thread : UInt32} {data : P} {fiberId : UInt64}
    {m : FiberDataManager P}
    (h : (w.managers thread).allocFiberData data = some (some fiberId, m))
    (hage : ∀ x ∈ w.numbered thread, w.allocs thread < x.1 + keySpan) :
    Tracked {
      managers := Function.update w.managers thread m
      allocs := Function.update w.allocs thread (w.allocs thread + 1)
      live := { thread, number := w.allocs thread, fiberId, data } :: w.live } := by
  obtain ⟨rfl, hm, -, -⟩ := (hw.tracks thread).alloc (fun _ => hage) h
  refine ⟨?_, ?_, ?_⟩
  · intro t
    by_cases ht : t = thread
    · subst ht
      simp only [Function.update_self, numbered, List.filter_cons, decide_true, if_true,
        List.map_cons]
      exact hm
    · have ht' : ¬ thread = t := fun h => ht h.symm
      simp only [Function.update_of_ne ht, numbered, List.filter_cons, ht', decide_false,
        Bool.false_eq_true, if_false]
      exact hw.tracks t
  · intro s hs
    rcases List.mem_cons.1 hs with rfl | hs
    · rfl
    · exact hw.fiberId s hs
  · rw [List.map_cons, List.nodup_cons]
    refine ⟨?_, hw.distinct⟩
    intro hmem
    obtain ⟨s, hs, he⟩ := List.mem_map.1 hmem
    exact hw.fiberId_ne_next hage hs he

/-- Deleting an id takes the slot with this id out of those of its thread. -/
theorem Tracked.numbered_delete (hw : Tracked w) (id : UInt64) (thread : UInt32) :
    (w.delete id).2.numbered thread =
      if thread = selected id then
        (w.numbered thread).filter fun x => fiberKey x.1 ≠ id &&& 0xffffffff
      else
        w.numbered thread := by
  simp only [numbered, delete, List.filter_filter, List.filter_map, Function.comp_def]
  split
  · next ht =>
    congr 1
    apply List.filter_congr
    intro s hs
    have hiff := hw.fiberId_eq_iff hs id
    by_cases hthread : s.thread = thread
    · rw [ht] at hthread
      simp [hiff, hthread, ht]
    · simp [hthread]
  · next ht =>
    congr 1
    apply List.filter_congr
    intro s hs
    by_cases hthread : s.thread = thread
    · have hne : s.fiberId ≠ id := fun he => ht (hthread ▸ ((hw.fiberId_eq_iff hs id).1 he).1)
      simp [hthread, hne]
    · simp [hthread]

theorem tracked_delete (hw : Tracked w) (id : UInt64) : Tracked (w.delete id).2 := by
  refine ⟨?_, ?_, ?_⟩
  · intro t
    have hallocs : (w.delete id).2.allocs t = w.allocs t := rfl
    have hm : (w.delete id).2.managers t = Function.update w.managers (selected id)
      ((w.managers (selected id)).deleteFiberData id).2 t := rfl
    rw [hw.numbered_delete, hallocs, hm]
    by_cases ht : t = selected id
    · subst ht
      rw [if_pos rfl, Function.update_self]
      exact (hw.tracks _).delete id
    · rw [if_neg ht, Function.update_of_ne ht]
      exact hw.tracks t
  · intro s hs
    exact hw.fiberId s (List.mem_filter.1 hs).1
  · exact hw.distinct.sublist (List.filter_sublist.map _)

theorem tracked_step {e : FiberEvent P} (hage : Young w e w') (hw : Tracked w)
    (hs : step w e = some w') : Tracked w' := by
  cases e with
  | initializeWith thread =>
    cases hs
    exact tracked_initializeWith hw thread
  | allocFiberData thread data =>
    unfold step at hs
    rcases ha : (w.managers thread).allocFiberData data with _ | ⟨id, m⟩
    · simp only [ha] at hs
      cases hs
    · obtain ⟨hinited, hr | ⟨hroom, hr⟩⟩ := allocFiberData_cases ha <;> cases hr <;>
        simp only [ha] at hs <;> cases hs
      · rw [Function.update_eq_self]
        exact hw
      · apply tracked_alloc hw ha
        intro x hx
        obtain ⟨s, hs, hthread, hnumber, -⟩ := mem_numbered.1 hx
        have hle := hage s (List.mem_cons_of_mem _ hs)
        simp only [hthread, Function.update_self, hnumber] at hle
        exact hle
  | findFiberData id =>
    cases hs
    exact hw
  | deleteFiberData id =>
    cases hs
    exact tracked_delete hw id

theorem tracked_run {es : List (FiberEvent P)} (hage : Along step Young w es) (hw : Tracked w)
    (h : run step w es = some w') : Tracked w' :=
  hage.invariant (fun _ _ _ hQ hP hs => tracked_step hQ hP hs) hw h

theorem Tracked.sound (hw : Tracked w) : Sound w := by
  have hlookup : ∀ id data, w.lookup id = some data ↔
      ∃ s ∈ w.live, s.fiberId = id ∧ s.data = data := by
    intro id data
    unfold lookup
    rw [(hw.tracks (selected id)).findFiberData_iff]
    constructor
    · rintro ⟨n, hn, hkey⟩
      obtain ⟨s, hs, hthread, rfl, rfl⟩ := mem_numbered.1 hn
      exact ⟨s, hs, (hw.fiberId_eq_iff hs id).2 ⟨hthread, hkey⟩, rfl⟩
    · rintro ⟨s, hs, he, rfl⟩
      obtain ⟨hthread, hkey⟩ := (hw.fiberId_eq_iff hs id).1 he
      exact ⟨s.number, mem_numbered.2 ⟨s, hs, hthread, rfl, rfl⟩, hkey⟩
  refine ⟨hw.distinct, ?_, hlookup, fun s hs => ⟨?_, ?_⟩, fun thread => (hw.tracks thread).size_le⟩
  · intro s hs hzero
    rw [hw.fiberId s hs, low_pair] at hzero
    have hpos := counterAfter_succ_toNat s.number
    rw [hzero, ringKey] at hpos
    exact Nat.succ_ne_zero _ hpos.symm
  · have hfound := (hlookup s.fiberId s.data).2 ⟨s, hs, rfl, rfl⟩
    have hmem : s.fiberId &&& 0xffffffff ∈ (w.managers (selected s.fiberId)).datas :=
      Table.mem_iff.2 ⟨_, hfound⟩
    simp only [delete, deleteFiberData, if_pos hmem]
  · intro id
    exact lookup_delete w s.fiberId id

/-- **The slot table.** After every run in which each slot is deleted before `2^32 - 1` further
allocations on its manager, the ids of the live slots are distinct and their low halves not zero,
the selected manager finds exactly the live slots, deleting a live id removes its slot and no
other, and no manager holds more than 4096 slots. -/
theorem slots_found (es : List (FiberEvent P)) (h : run step init es = some w)
    (hage : Along step Young init es) : Sound w :=
  (tracked_run hage tracked_init h).sound

/-- Two managers, with a slot deleted and another handed out after it. -/
def twoManagers : List (FiberEvent Bool) :=
  [.initializeWith 3, .initializeWith 7, .allocFiberData 3 true, .allocFiberData 7 false,
    .deleteFiberData (pair 3 1), .allocFiberData 3 false, .findFiberData (pair 7 1)]

theorem slots_found_two_managers : ∃ w, run step init twoManagers = some w ∧
    w.live.map FiberSlot.fiberId = [pair 3 2, pair 7 1] ∧ Sound w :=
  ⟨_, rfl, by decide, slots_found twoManagers rfl (by decide)⟩

end FiberWorld

end ServiceFramework.Net
