import ServiceFramework.Lib.Transition
import ServiceFramework.Net.ThreadGroupListManager
import Mathlib.Data.List.Nodup

/-!
# Sending by connection id

`ServiceManager::SendIOBuf` (`net/service_manager.cc`) takes a connection id apart: the high half
is the index of the thread, whose event base is handed a task, and the task looks the low half up
in the connection manager of that thread when it runs. `Routing` is the started threads, the
connections opened so far, the tasks not yet run and the data written.

While at most `2^32` threads are started and each opens fewer than `2^32 - 1` connections, ids are
never issued twice, so a task writes to the connection its id was issued for or, when that one is
closed, nowhere (`routed`). With one more thread they are: the index is shifted out of the id. An id
whose high half is not below the number of threads started is read outside the array
(`safeToSend_iff`).
-/

namespace ServiceFramework.Net

open BitField Transition

/-- A function queued by `SendIOBuf` on an event base. -/
structure SendTask (E D : Type) where
  evb : E
  connId : UInt64
  data : D

namespace ServiceManager

variable {E D : Type}

/-- `SendIOBuf` with a connection id: its result and the task it queues, `none` for a read outside
`thread_datas_`. -/
def sendIOBuf (threadGroups : ThreadGroupListManager E) (connId : UInt64) (data : D) :
    Option (Bool × Option (SendTask E D)) := do
  let evb ← threadGroups.getEventBaseByThreadID (high connId).toNat
  match evb with
  | none => return (false, none)
  | some evb => return (true, some { evb, connId, data })

/-! ### Ids that were never issued -/

/-- `SendIOBuf` stays inside `thread_datas_`, and returns `false` with nothing queued when the id
names no thread with an event base. -/
structure SafeToSend (threadGroups : ThreadGroupListManager E) (connId : UInt64) (data : D) :
    Prop where
  in_range : (sendIOBuf threadGroups connId data).isSome = true
  rejected : (∀ evb, threadGroups.getEventBaseByThreadID (high connId).toNat ≠ some (some evb)) →
    sendIOBuf threadGroups connId data = some (false, none)

theorem sendIOBuf_isSome_iff (threadGroups : ThreadGroupListManager E) (connId : UInt64) (data : D) :
    (sendIOBuf threadGroups connId data).isSome = true ↔
      (high connId).toNat < threadGroups.threadDatas.length := by
  unfold sendIOBuf ThreadGroupListManager.getEventBaseByThreadID
  constructor
  · intro h
    by_contra hge
    rw [List.getElem?_eq_none (Nat.le_of_not_lt hge)] at h
    cases h
  · intro h
    rw [List.getElem?_eq_getElem h]
    cases hevb : threadGroups.threadDatas[(high connId).toNat].evb with
    | none => simp [hevb]
    | some evb => simp [hevb]

/-- **Only ids of started threads are safe to send to.** Whatever threads have started and whatever
the id, `SendIOBuf` looks the event base up inside `thread_datas_` and rejects an id of no thread
with an event base exactly if the high half of the id is below the number of threads started: the
index is not checked before the test for a null event base. -/
theorem safeToSend_iff (threadGroups : ThreadGroupListManager E) (connId : UInt64) (data : D) :
    SafeToSend threadGroups connId data ↔
      (high connId).toNat < threadGroups.threadDatas.length := by
  constructor
  · intro h
    exact (sendIOBuf_isSome_iff threadGroups connId data).1 h.in_range
  · intro h
    refine ⟨(sendIOBuf_isSome_iff threadGroups connId data).2 h, ?_⟩
    intro hnone
    obtain ⟨evb, hevb⟩ : ∃ evb, threadGroups.getEventBaseByThreadID (high connId).toNat = some evb :=
      ⟨_, congrArg (Option.map ThreadData.evb) (List.getElem?_eq_getElem h)⟩
    rw [sendIOBuf, hevb]
    cases evb with
    | none => rfl
    | some evb => exact absurd hevb (hnone evb)

/-- With one accept thread started, an id of thread 1 makes `SendIOBuf` read outside
`thread_datas_`. -/
theorem sendIOBuf_reads_outside :
    ∃ threads : IOThreads ℕ Unit,
      (IOThreads.init [⟨.connAccept, 1⟩]).threadStarted .connAccept 7 = some threads ∧
        sendIOBuf threads.groups (pair 1 1) () = none ∧
        ¬ SafeToSend threads.groups (pair 1 1) () := by
  refine ⟨_, rfl, rfl, ?_⟩
  intro h
  exact Bool.false_ne_true h.in_range

end ServiceManager

/-! ## Routing -/

/-- A connection that was opened: its number in the order of opening, the event base it runs on,
the id `OnNewConnection` returned for it and its pipeline. -/
structure Connection (E P : Type) where
  number : ℕ
  evb : E
  connId : UInt64
  pipeline : P

/-- The threads, the connections opened and the numbers of the closed ones, the tasks that are
queued in no particular order, and the data written to pipelines. -/
structure Routing (E P D : Type) where
  threads : IOThreads E P
  connections : List (Connection E P)
  closed : List ℕ
  queued : List (SendTask E D)
  written : List (P × D)

namespace Routing

variable {E P D : Type}

/-- A thread starts, a connection opens or closes on its thread, some thread sends to an id that
was issued, a queued task runs. -/
inductive Event (E P D : Type) where
  | threadStarted (threadType : ThreadType) (evb : E)
  | onNewConnection (evb : E) (pipeline : P)
  | onConnectionClosed (number : ℕ)
  | sendIOBuf (connId : UInt64) (data : D)
  | runTask (i : ℕ)

/-- The connections that opened on an event base. -/
def openedOn [DecidableEq E] (w : Routing E P D) (evb : E) : ℕ :=
  (w.connections.filter fun c => c.evb = evb).length

def init (options : List ThreadGroupOption) : Routing E P D where
  threads := .init options
  connections := []
  closed := []
  queued := []
  written := []

section Step

variable [DecidableEq E]

def step (w : Routing E P D) : Event E P D → Option (Routing E P D)
  | .threadStarted threadType evb =>
    -- a thread is started once, with an event base of its own
    if w.threads.IsStarted evb then
      none
    else do
      let threads ← w.threads.threadStarted threadType evb
      return { w with threads }
  | .onNewConnection evb pipeline =>
    if w.threads.IsStarted evb then do
      let (connId, m) ← (w.threads.connManagers evb).onNewConnection pipeline
      return { w with
        threads.connManagers := Function.update w.threads.connManagers evb m
        connections := { number := w.connections.length, evb, connId, pipeline } :: w.connections }
    else
      none
  | .onConnectionClosed number => do
    let c ← w.connections.find? fun c => c.number = number
    let (_, m) := (w.threads.connManagers c.evb).onConnectionClosed c.connId c.pipeline
    return { w with
      threads.connManagers := Function.update w.threads.connManagers c.evb m
      closed := number :: w.closed }
  | .sendIOBuf connId data =>
    if w.connections.any fun c => c.connId = connId then do
      let (_, task) ← ServiceManager.sendIOBuf w.threads.groups connId data
      return { w with queued := w.queued ++ task.toList }
    else
      none
  | .runTask i => do
    let task ← w.queued[i]?
    let (_, out) := (w.threads.connManagers task.evb).sendIOBufByConnID task.connId task.data
    return { w with queued := w.queued.eraseIdx i, written := w.written ++ out.toList }

/-- Fewer than `2^32 - 1` connections opened on a thread. -/
def FewConnections (_ : Routing E P D) (e : Event E P D) (w' : Routing E P D) : Prop :=
  match e with
  | .onNewConnection evb _ => w'.openedOn evb < 2 ^ 32 - 1
  | _ => True

/-- And at most `2^32` threads started. -/
def Limited (w : Routing E P D) (e : Event E P D) (w' : Routing E P D) : Prop :=
  w'.threads.groups.threadDatas.length ≤ 2 ^ 32 ∧ FewConnections w e w'

instance (w : Routing E P D) (e : Event E P D) (w' : Routing E P D) :
    Decidable (Limited w e w') :=
  match e with
  | .onNewConnection _ _ => inferInstanceAs (Decidable (_ ≤ 2 ^ 32 ∧ _ < 2 ^ 32 - 1))
  | .threadStarted _ _ => inferInstanceAs (Decidable (_ ≤ 2 ^ 32 ∧ True))
  | .onConnectionClosed _ => inferInstanceAs (Decidable (_ ≤ 2 ^ 32 ∧ True))
  | .sendIOBuf _ _ => inferInstanceAs (Decidable (_ ≤ 2 ^ 32 ∧ True))
  | .runTask _ => inferInstanceAs (Decidable (_ ≤ 2 ^ 32 ∧ True))

/-- What running the task `i` for the connection `c` leaves. -/
def delivered (w : Routing E P D) (i : ℕ) (c : Connection E P) (data : D) : Routing E P D :=
  { w with
    queued := w.queued.eraseIdx i
    written := w.written ++ if c.number ∈ w.closed then [] else [(c.pipeline, data)] }

/-- An id names one connection, sending to it queues one task on the connection's event base, and
a queued task writes its data to the connection it names while that one is open, and nowhere
else. -/
structure Delivers (w : Routing E P D) : Prop where
  issued_once : (w.connections.map Connection.connId).Nodup
  send : ∀ c ∈ w.connections, ∀ data : D,
    ServiceManager.sendIOBuf w.threads.groups c.connId data =
      some (true, some { evb := c.evb, connId := c.connId, data })
  issued : ∀ task ∈ w.queued, ∃ c ∈ w.connections, c.connId = task.connId
  run : ∀ i task, w.queued[i]? = some task → ∀ c ∈ w.connections, c.connId = task.connId →
    step w (.runTask i) = some (w.delivered i c task.data)

end Step

/-! ## The invariant -/

variable [DecidableEq E]

/-- The event base entered for a thread index. -/
def evbAt (w : Routing E P D) (i : ℕ) : Option (Option E) :=
  w.threads.groups.getEventBaseByThreadID i

/-- Threads, managers, connections and tasks agree on indices, counters and keys. -/
structure Routes (w : Routing E P D) : Prop where
  threads_le : w.threads.groups.threadDatas.length ≤ 2 ^ 32
  evb_inj : ∀ i j evb, w.evbAt i = some (some evb) → w.evbAt j = some (some evb) → i = j
  threadId : ∀ i evb, w.evbAt i = some (some evb) →
    (w.threads.connManagers evb).threadId = UInt64.ofNat i
  counter : ∀ evb, (w.threads.connManagers evb).currentConnId.toNat = w.openedOn evb
  connId : ∀ c ∈ w.connections, ∃ i, w.evbAt i = some (some c.evb) ∧
    c.connId = pair (UInt64.ofNat i) (low c.connId)
  key_le : ∀ c ∈ w.connections, (low c.connId).toNat ≤ w.openedOn c.evb
  number_lt : ∀ c ∈ w.connections, c.number < w.connections.length
  number_inj : ∀ c ∈ w.connections, ∀ c' ∈ w.connections, c.number = c'.number → c = c'
  closed_lt : ∀ n ∈ w.closed, n < w.connections.length
  issued_once : (w.connections.map Connection.connId).Nodup
  table : ∀ evb k p, (w.threads.connManagers evb).pipelines.find k = some p ↔
    ∃ c ∈ w.connections, c.evb = evb ∧ low c.connId = k ∧ c.number ∉ w.closed ∧ c.pipeline = p
  task : ∀ t ∈ w.queued, ∃ c ∈ w.connections, c.connId = t.connId ∧ c.evb = t.evb

variable {w w' : Routing E P D}

theorem Routes.evb_lt (hw : Routes w) {i : ℕ} {evb : Option E} (h : w.evbAt i = some evb) :
    i < 2 ^ 32 :=
  Nat.lt_of_lt_of_le (ThreadGroupListManager.getEventBaseByThreadID_lt h) hw.threads_le

/-- The high half of an id that was issued is the index of its event base. -/
theorem Routes.evbAt_high (hw : Routes w) {c : Connection E P} (hc : c ∈ w.connections) :
    w.evbAt (high c.connId).toNat = some (some c.evb) := by
  obtain ⟨i, hi, hid⟩ := hw.connId c hc
  rw [hid, high_pair_ofNat_of_lt (hw.evb_lt hi)]
  exact hi

/-- A connection is told by its event base and the low half of its id. -/
theorem Routes.connection_inj (hw : Routes w) {c c' : Connection E P} (hc : c ∈ w.connections)
    (hc' : c' ∈ w.connections) (hevb : c.evb = c'.evb) (hlow : low c.connId = low c'.connId) :
    c = c' := by
  obtain ⟨i, hi, hid⟩ := hw.connId c hc
  obtain ⟨j, hj, hid'⟩ := hw.connId c' hc'
  rw [← hevb] at hj
  rw [← hw.evb_inj i j _ hi hj, ← hlow] at hid'
  exact List.inj_on_of_nodup_map hw.issued_once hc hc' (hid.trans hid'.symm)

/-- Connections with one id run on one event base. -/
theorem Routes.evb_eq (hw : Routes w) {c c' : Connection E P} (hc : c ∈ w.connections)
    (hc' : c' ∈ w.connections) (h : c.connId = c'.connId) : c.evb = c'.evb := by
  rw [List.inj_on_of_nodup_map hw.issued_once hc hc' h]

theorem routes_init (options : List ThreadGroupOption) :
    Routes (init options : Routing E P D) := by
  have hdatas : (init options : Routing E P D).threads.groups.threadDatas = [] :=
    ThreadGroupListManager.threadDatas_initializeWith {} options
  have hevb : ∀ i, (init options : Routing E P D).evbAt i = none := by
    intro i
    simp [evbAt, ThreadGroupListManager.getEventBaseByThreadID, hdatas]
  refine ⟨by simp [hdatas], ?_, ?_, fun evb => rfl,
    fun c hc => absurd hc List.not_mem_nil, fun c hc => absurd hc List.not_mem_nil,
    fun c hc => absurd hc List.not_mem_nil, fun c hc => absurd hc List.not_mem_nil,
    fun n hn => absurd hn List.not_mem_nil, List.nodup_nil, ?_, fun t ht => absurd ht List.not_mem_nil⟩
  · intro i j evb h
    rw [hevb] at h
    cases h
  · intro i evb h
    rw [hevb] at h
    cases h
  · intro evb k p
    simp [init, IOThreads.init, Table.find_empty]

/-! ## Every event keeps it -/

/-- An index is the new thread's or has the event base it had. -/
theorem evbAt_threadStarted {threadType : ThreadType} {evb : E} {threads : IOThreads E P}
    (ht : w.threads.threadStarted threadType evb = some threads) {i : ℕ} {evb' : E}
    (h : evbAt { w with threads } i = some (some evb')) :
    (i = w.threads.groups.threadDatas.length ∧ threadType.hasEventBase = true ∧ evb' = evb) ∨
      w.evbAt i = some (some evb') := by
  obtain ⟨-, hevb, -⟩ := IOThreads.threadStarted_spec ht
  change threads.groups.getEventBaseByThreadID i = _ at h
  rw [hevb] at h
  split at h
  · next hi =>
    split at h
    · next hio =>
      cases h
      exact Or.inl ⟨hi, hio, rfl⟩
    · cases h
  · exact Or.inr h

/-- A manager keeps its counter and its table when a thread starts. -/
theorem connManagers_threadStarted {threadType : ThreadType} {evb : E} {threads : IOThreads E P}
    (ht : w.threads.threadStarted threadType evb = some threads) (evb' : E) :
    (threads.connManagers evb').currentConnId = (w.threads.connManagers evb').currentConnId ∧
      (threads.connManagers evb').pipelines = (w.threads.connManagers evb').pipelines := by
  obtain ⟨-, -, hmanager⟩ := IOThreads.threadStarted_spec ht
  rw [hmanager]
  split
  · next h =>
    rw [h.2]
    exact ⟨rfl, rfl⟩
  · exact ⟨rfl, rfl⟩

theorem routes_threadStarted (hw : Routes w) {threadType : ThreadType} {evb : E}
    {threads : IOThreads E P} (hnew : w.threads.IsStarted evb = false)
    (ht : w.threads.threadStarted threadType evb = some threads)
    (hle : threads.groups.threadDatas.length ≤ 2 ^ 32) : Routes { w with threads } := by
  obtain ⟨-, hevb, hmanager⟩ := IOThreads.threadStarted_spec ht
  have hnone : ∀ i, w.evbAt i ≠ some (some evb) := by
    intro i hi
    rw [IOThreads.isStarted_iff.2 ⟨i, hi⟩] at hnew
    cases hnew
  refine ⟨hle, ?_, ?_, ?_, ?_,
    hw.key_le, hw.number_lt, hw.number_inj, hw.closed_lt, hw.issued_once, ?_, hw.task⟩
  · intro i j evb' hi hj
    rcases evbAt_threadStarted ht hi with ⟨hi', -, he⟩ | hi' <;>
      rcases evbAt_threadStarted ht hj with ⟨hj', -, he'⟩ | hj'
    · rw [hi', hj']
    · exact absurd (he ▸ hj') (hnone j)
    · exact absurd (he' ▸ hi') (hnone i)
    · exact hw.evb_inj i j evb' hi' hj'
  · intro i evb' hi
    change (threads.connManagers evb').threadId = _
    rw [hmanager]
    rcases evbAt_threadStarted ht hi with ⟨hi', hio, he⟩ | hi'
    · rw [if_pos ⟨hio, he⟩, hi']
      rfl
    · have hold : ¬(threadType.hasEventBase = true ∧ evb' = evb) := by
        intro h
        exact hnone i (h.2 ▸ hi')
      rw [if_neg hold]
      exact hw.threadId i evb' hi'
  · intro evb'
    exact (congrArg UInt32.toNat (connManagers_threadStarted ht evb').1).trans (hw.counter evb')
  · intro c hc
    obtain ⟨i, hi, hid⟩ := hw.connId c hc
    refine ⟨i, ?_, hid⟩
    change threads.groups.getEventBaseByThreadID i = _
    rw [hevb, if_neg (Nat.ne_of_lt (ThreadGroupListManager.getEventBaseByThreadID_lt hi))]
    exact hi
  · intro evb' k p
    change Table.find (threads.connManagers evb').pipelines k = some p ↔ _
    rw [(connManagers_threadStarted ht evb').2]
    exact hw.table evb' k p

theorem nextKey_toNat {evb : E} (hfew : w.openedOn evb + 1 < 2 ^ 32 - 1) :
    (UInt32.ofNat (w.openedOn evb + 1)).toNat = w.openedOn evb + 1 :=
  UInt32.toNat_ofNat_of_lt' (Nat.lt_of_lt_of_le hfew (by decide))

/-- The next key of a thread is above the keys issued on it before. -/
theorem Routes.key_fresh (hw : Routes w) {evb : E} (hfew : w.openedOn evb + 1 < 2 ^ 32 - 1) :
    ∀ c ∈ w.connections, c.evb = evb → low c.connId ≠ UInt32.ofNat (w.openedOn evb + 1) := by
  intro c hc hevb hlow
  have hle := hw.key_le c hc
  rw [hlow, nextKey_toNat hfew, hevb] at hle
  omega

/-- A connection opens under the next key of its thread. -/
theorem onNewConnection_eq (hw : Routes w) (evb : E) (pipeline : P)
    (hfew : w.openedOn evb + 1 < 2 ^ 32 - 1) :
    (w.threads.connManagers evb).onNewConnection pipeline =
      some (pair (w.threads.connManagers evb).threadId (UInt32.ofNat (w.openedOn evb + 1)),
        { w.threads.connManagers evb with
          currentConnId := UInt32.ofNat (w.openedOn evb + 1)
          pipelines := (w.threads.connManagers evb).pipelines.insert
            (UInt32.ofNat (w.openedOn evb + 1)) pipeline }) := by
  have hnext : (w.threads.connManagers evb).currentConnId + 1 = UInt32.ofNat (w.openedOn evb + 1) := by
    rw [← hw.counter evb, UInt32.ofNat_add, UInt32.ofNat_toNat]
    rfl
  have hfree : UInt32.ofNat (w.openedOn evb + 1) ∉ (w.threads.connManagers evb).pipelines := by
    intro hmem
    obtain ⟨p, hp⟩ := Table.mem_iff.1 hmem
    obtain ⟨c, hc, hevb, hlow, -⟩ := (hw.table evb _ p).1 hp
    exact hw.key_fresh hfew c hc hevb hlow
  have hwrap : (w.threads.connManagers evb).currentConnId.toNat + 1 < 2 ^ 32 := by
    rw [hw.counter]
    omega
  rw [ThreadLocalConnManager.onNewConnection_first _ pipeline hwrap (by rw [hnext]; exact hfree),
    hnext]

/-- The world after a connection opened. -/
def opened (w : Routing E P D) (evb : E) (pipeline : P) : Routing E P D :=
  { w with
    threads.connManagers := Function.update w.threads.connManagers evb
      { w.threads.connManagers evb with
        currentConnId := UInt32.ofNat (w.openedOn evb + 1)
        pipelines := (w.threads.connManagers evb).pipelines.insert
          (UInt32.ofNat (w.openedOn evb + 1)) pipeline }
    connections := { number := w.connections.length, evb,
                     connId := pair (w.threads.connManagers evb).threadId
                       (UInt32.ofNat (w.openedOn evb + 1)), pipeline } :: w.connections }

theorem openedOn_opened (w : Routing E P D) (evb : E) (pipeline : P) (evb' : E) :
    (w.opened evb pipeline).openedOn evb' =
      if evb' = evb then w.openedOn evb + 1 else w.openedOn evb' := by
  by_cases h : evb' = evb
  · subst h
    simp [openedOn, opened]
  · have h' : ¬ evb = evb' := fun he => h he.symm
    simp [openedOn, opened, h, h']

/-- The id of the new connection was issued to no other one. -/
theorem Routes.connId_new (hw : Routes w) {evb : E} {i : ℕ} (hi : w.evbAt i = some (some evb))
    (hfew : w.openedOn evb + 1 < 2 ^ 32 - 1) :
    pair (w.threads.connManagers evb).threadId (UInt32.ofNat (w.openedOn evb + 1)) ∉
      w.connections.map Connection.connId := by
  intro hmem
  obtain ⟨c, hc, he⟩ := List.mem_map.1 hmem
  have hevbAt := hw.evbAt_high hc
  rw [he, hw.threadId i evb hi, high_pair_ofNat_of_lt (hw.evb_lt hi)] at hevbAt
  have hevb : c.evb = evb := Option.some.inj (Option.some.inj (hevbAt.symm.trans hi))
  exact hw.key_fresh hfew c hc hevb (by rw [he, low_pair])

/-- The new entry of the thread's table is the new connection, and the others are as before. -/
theorem Routes.table_opened (hw : Routes w) {evb : E} (hfew : w.openedOn evb + 1 < 2 ^ 32 - 1)
    (pipeline : P) (evb' : E) (k : UInt32) (p : P) :
    ((w.opened evb pipeline).threads.connManagers evb').pipelines.find k = some p ↔
      ∃ c ∈ (w.opened evb pipeline).connections, c.evb = evb' ∧ low c.connId = k ∧
        c.number ∉ w.closed ∧ c.pipeline = p := by
  -- an old connection on `evb'` with the key `k` is found in the old table
  have hold : (∃ c ∈ w.connections, c.evb = evb' ∧ low c.connId = k ∧ c.number ∉ w.closed ∧
      c.pipeline = p) ↔ (w.threads.connManagers evb').pipelines.find k = some p :=
    (hw.table evb' k p).symm
  have hfresh := hw.key_fresh hfew
  simp only [opened, List.exists_mem_cons_iff, low_pair, hold]
  generalize UInt32.ofNat (w.openedOn evb + 1) = key at hfresh ⊢
  by_cases he : evb' = evb
  · subst he
    have hopen : w.connections.length ∉ w.closed := fun h => Nat.lt_irrefl _ (hw.closed_lt _ h)
    rw [Function.update_self, Table.find_insert]
    split
    · next hk =>
      have hnone : (w.threads.connManagers evb').pipelines.find k ≠ some p := by
        intro hp
        obtain ⟨c, hc, hevb, hlow, -⟩ := (hw.table evb' k p).1 hp
        exact hfresh c hc hevb (hlow.trans hk)
      simp [hk.symm, hopen, hnone]
    · next hk =>
      have hk' : ¬ key = k := fun h => hk h.symm
      simp [hk']
  · have he' : ¬ evb = evb' := fun h => he h.symm
    rw [Function.update_of_ne he]
    simp [he']

theorem routes_opened (hw : Routes w) {evb : E} (hstarted : w.threads.IsStarted evb = true)
    (pipeline : P) (hfew : w.openedOn evb + 1 < 2 ^ 32 - 1) :
    Routes (w.opened evb pipeline) := by
  obtain ⟨i, hi⟩ := IOThreads.isStarted_iff.1 hstarted
  refine ⟨hw.threads_le, hw.evb_inj, ?_, ?_, ?_,
    ?_, ?_, ?_,
    fun n hn => Nat.lt_succ_of_lt (hw.closed_lt n hn),
    List.nodup_cons.2 ⟨hw.connId_new hi hfew, hw.issued_once⟩,
    fun evb' k p => hw.table_opened hfew pipeline evb' k p, ?_⟩
  · intro j evb' hj
    by_cases he : evb' = evb
    · subst he
      simp only [opened, Function.update_self]
      exact hw.threadId j evb' hj
    · simp only [opened, Function.update_of_ne he]
      exact hw.threadId j evb' hj
  · intro evb'
    rw [openedOn_opened]
    by_cases he : evb' = evb
    · subst he
      simp only [opened, Function.update_self, if_true, nextKey_toNat hfew]
    · simp only [opened, Function.update_of_ne he, if_neg he]
      exact hw.counter evb'
  · intro c hc
    rcases List.mem_cons.1 hc with rfl | hc
    · exact ⟨i, hi, by rw [low_pair, hw.threadId i evb hi]⟩
    · exact hw.connId c hc
  · intro c hc
    rw [openedOn_opened]
    rcases List.mem_cons.1 hc with rfl | hc
    · rw [if_pos rfl, low_pair, nextKey_toNat hfew]
    · have hle := hw.key_le c hc
      split
      · next he =>
        rw [he] at hle
        exact Nat.le_succ_of_le hle
      · exact hle
  · intro c hc
    change c.number < w.connections.length + 1
    rcases List.mem_cons.1 hc with rfl | hc
    · exact Nat.lt_succ_self _
    · exact Nat.lt_succ_of_lt (hw.number_lt c hc)
  · intro c hc c' hc' he
    rcases List.mem_cons.1 hc with rfl | hc <;> rcases List.mem_cons.1 hc' with rfl | hc'
    · rfl
    · exact absurd he.symm (Nat.ne_of_lt (hw.number_lt c' hc'))
    · exact absurd he (Nat.ne_of_lt (hw.number_lt c hc))
    · exact hw.number_inj c hc c' hc' he
  · intro t ht
    obtain ⟨c, hc, hrest⟩ := hw.task t ht
    exact ⟨c, List.mem_cons_of_mem _ hc, hrest⟩

/-- The world after the connection `c` closed. -/
def closedBy (w : Routing E P D) (c : Connection E P) : Routing E P D :=
  { w with
    threads.connManagers := Function.update w.threads.connManagers c.evb
      { w.threads.connManagers c.evb with
        pipelines := (w.threads.connManagers c.evb).pipelines.erase (low c.connId) }
    closed := c.number :: w.closed }

theorem step_onConnectionClosed {number : ℕ} {c : Connection E P}
    (hfind : w.connections.find? (fun c => c.number = number) = some c) :
    step w (.onConnectionClosed number) = some (w.closedBy c) := by
  have hnum : c.number = number := by simpa using List.find?_some hfind
  have hclose := ThreadLocalConnManager.onConnectionClosed_eq (w.threads.connManagers c.evb)
    c.connId c.pipeline
  simp only [step, hfind, Option.bind_eq_bind, Option.bind_some, closedBy, hclose, hnum]
  rfl

theorem routes_closedBy (hw : Routes w) {c : Connection E P} (hc : c ∈ w.connections) :
    Routes (w.closedBy c) := by
  refine ⟨hw.threads_le, hw.evb_inj, ?_, ?_, hw.connId, hw.key_le,
    hw.number_lt, hw.number_inj, ?_, hw.issued_once, ?_, hw.task⟩
  · intro j evb' hj
    by_cases he : evb' = c.evb
    · subst he
      simp only [closedBy, Function.update_self]
      exact hw.threadId j _ hj
    · simp only [closedBy, Function.update_of_ne he]
      exact hw.threadId j evb' hj
  · intro evb'
    by_cases he : evb' = c.evb
    · subst he
      simp only [closedBy, Function.update_self]
      exact hw.counter _
    · simp only [closedBy, Function.update_of_ne he]
      exact hw.counter evb'
  · intro n hn
    rcases List.mem_cons.1 hn with rfl | hn
    · exact hw.number_lt c hc
    · exact hw.closed_lt n hn
  · intro evb' k p
    have hclosed : ∀ c' ∈ w.connections, c'.number ∉ c.number :: w.closed ↔
        c' ≠ c ∧ c'.number ∉ w.closed := by
      intro c' hc'
      rw [List.mem_cons, not_or]
      have hnum : c'.number = c.number ↔ c' = c :=
        ⟨hw.number_inj c' hc' c hc, fun h => by rw [h]⟩
      rw [hnum]
    by_cases he : evb' = c.evb ∧ k = low c.connId
    · obtain ⟨rfl, rfl⟩ := he
      simp only [closedBy, Function.update_self, Table.find_erase, if_true]
      refine iff_of_false (by simp) ?_
      rintro ⟨c', hc', hevb, hlow, hopen, -⟩
      exact ((hclosed c' hc').1 hopen).1 (hw.connection_inj hc' hc hevb hlow)
    · have hfind : (Function.update w.threads.connManagers c.evb
          { w.threads.connManagers c.evb with
            pipelines := (w.threads.connManagers c.evb).pipelines.erase (low c.connId) }
          evb').pipelines.find k = (w.threads.connManagers evb').pipelines.find k := by
        by_cases hevb : evb' = c.evb
        · subst hevb
          rw [Function.update_self, Table.find_erase, if_neg fun h => he ⟨rfl, h⟩]
        · rw [Function.update_of_ne hevb]
      simp only [closedBy, hfind]
      rw [hw.table]
      constructor
      · rintro ⟨c', hc', hevb, hlow, hopen, hp⟩
        refine ⟨c', hc', hevb, hlow, (hclosed c' hc').2 ⟨?_, hopen⟩, hp⟩
        rintro rfl
        exact he ⟨hevb.symm, hlow.symm⟩
      · rintro ⟨c', hc', hevb, hlow, hopen, hp⟩
        exact ⟨c', hc', hevb, hlow, ((hclosed c' hc').1 hopen).2, hp⟩

/-- The event base of an id that was issued is found under its high half. -/
theorem Routes.sendIOBuf_issued (hw : Routes w) {c : Connection E P} (hc : c ∈ w.connections)
    (data : D) : ServiceManager.sendIOBuf w.threads.groups c.connId data =
      some (true, some { evb := c.evb, connId := c.connId, data }) := by
  have hevb : w.threads.groups.getEventBaseByThreadID (high c.connId).toNat = some (some c.evb) :=
    hw.evbAt_high hc
  unfold ServiceManager.sendIOBuf
  rw [hevb]
  rfl

/-- Running a task writes to the connection it names, or nowhere when that one is closed. -/
theorem Routes.runTask (hw : Routes w) {i : ℕ} {task : SendTask E D}
    (ht : w.queued[i]? = some task) {c : Connection E P} (hc : c ∈ w.connections)
    (hid : c.connId = task.connId) : step w (.runTask i) = some (w.delivered i c task.data) := by
  have hevb : task.evb = c.evb := by
    obtain ⟨c', hc', hid', hevb'⟩ := hw.task task (List.mem_of_getElem? ht)
    rw [← hevb', hw.evb_eq hc' hc (hid'.trans hid.symm)]
  have hfind : (w.threads.connManagers task.evb).pipelines.find (low task.connId) =
      if c.number ∈ w.closed then none else some c.pipeline := by
    split
    · next hclosed =>
      cases hp : (w.threads.connManagers task.evb).pipelines.find (low task.connId) with
      | none => rfl
      | some p =>
        obtain ⟨c', hc', hevb', hlow, hopen, -⟩ := (hw.table _ _ p).1 hp
        rw [hevb] at hevb'
        rw [← hid] at hlow
        rw [hw.connection_inj hc' hc hevb' hlow] at hopen
        exact absurd hclosed hopen
    · next hopen =>
      exact (hw.table _ _ _).2 ⟨c, hc, hevb.symm, by rw [hid], hopen, rfl⟩
  simp only [step, ht, Option.bind_eq_bind, Option.bind_some,
    ThreadLocalConnManager.sendIOBufByConnID_eq, hfind, delivered]
  split <;> rfl

theorem Routes.delivers (hw : Routes w) : Delivers w where
  issued_once := hw.issued_once
  send _ hc data := hw.sendIOBuf_issued hc data
  issued t ht := by
    obtain ⟨c, hc, hid, -⟩ := hw.task t ht
    exact ⟨c, hc, hid⟩
  run _ _ ht _ hc hid := hw.runTask ht hc hid

theorem routes_step {e : Event E P D} (hl : Limited w e w') (hw : Routes w)
    (hs : step w e = some w') : Routes w' := by
  obtain ⟨hthreads, hfew⟩ := hl
  cases e with
  | threadStarted threadType evb =>
    simp only [step] at hs
    split at hs
    · cases hs
    · next hnew =>
      obtain ⟨threads, ht, hr⟩ := Option.bind_eq_some_iff.1 hs
      cases hr
      exact routes_threadStarted hw (Bool.eq_false_of_not_eq_true hnew) ht hthreads
  | onNewConnection evb pipeline =>
    simp only [step] at hs
    split at hs
    · next hstarted =>
      obtain ⟨⟨connId, m⟩, ho, hr⟩ := Option.bind_eq_some_iff.1 hs
      cases hr
      have hone : w.openedOn evb + 1 < 2 ^ 32 - 1 := by
        simpa [FewConnections, openedOn] using hfew
      rw [onNewConnection_eq hw evb pipeline hone] at ho
      cases ho
      exact routes_opened hw hstarted pipeline hone
    · cases hs
  | onConnectionClosed number =>
    obtain ⟨c, hfind, -⟩ := Option.bind_eq_some_iff.1 hs
    rw [step_onConnectionClosed hfind] at hs
    cases hs
    exact routes_closedBy hw (List.mem_of_find?_eq_some hfind)
  | sendIOBuf connId data =>
    simp only [step] at hs
    split at hs
    · next hany =>
      obtain ⟨c, hc, hid⟩ := List.any_eq_true.1 hany
      obtain rfl := of_decide_eq_true hid
      rw [hw.sendIOBuf_issued hc data] at hs
      cases hs
      refine ⟨hw.threads_le, hw.evb_inj, hw.threadId, hw.counter, hw.connId, hw.key_le,
        hw.number_lt, hw.number_inj, hw.closed_lt, hw.issued_once, hw.table, ?_⟩
      intro t ht
      rcases List.mem_append.1 ht with ht | ht
      · exact hw.task t ht
      · rw [List.mem_singleton.1 ht]
        exact ⟨c, hc, rfl, rfl⟩
    · cases hs
  | runTask i =>
    obtain ⟨task, ht, hr⟩ := Option.bind_eq_some_iff.1 hs
    cases hr
    exact ⟨hw.threads_le, hw.evb_inj, hw.threadId, hw.counter, hw.connId, hw.key_le,
      hw.number_lt, hw.number_inj, hw.closed_lt, hw.issued_once, hw.table,
      fun t ht => hw.task t (List.mem_of_mem_eraseIdx ht)⟩

/-- **Routing by connection id.** After every run with at most `2^32` threads and fewer than
`2^32 - 1` connections opened on each, an id names one connection, sending to it queues one task
on that connection's event base, and when the task runs it writes the data once to that
connection if it is open and nowhere if it is closed. -/
theorem routed (options : List ThreadGroupOption) (es : List (Event E P D))
    (h : run step (init options) es = some w) (hl : Along step Limited (init options) es) :
    Delivers w :=
  (hl.invariant (fun _ _ _ hQ hP hs => routes_step hQ hP hs) (routes_init options) h).delivers

/-- A thread of each kind; the connection of the client thread closes while a task for it is
queued. -/
theorem routed_two_groups :
    let options : List ThreadGroupOption := [⟨.connClient, 1⟩, ⟨.db, 1⟩]
    let es : List (Event Bool ℕ ℕ) := [.threadStarted .db false, .threadStarted .connClient true,
      .onNewConnection true 7, .sendIOBuf (pair 1 1) 3, .onConnectionClosed 0, .runTask 0,
      .sendIOBuf (pair 1 1) 4]
    ∃ w, run step (init options) es = some w ∧ Delivers w := by
  intro options es
  have hrun : (run step (init options) es).isSome := by decide +kernel
  obtain ⟨w, hw⟩ := Option.isSome_iff_exists.1 hrun
  exact ⟨w, hw, routed options es hw (by decide +kernel)⟩

/-! ## More threads than thread ids -/

/-- The groups of `2^32 + 1` IO threads. -/
def manyThreads : List ThreadGroupOption :=
  [⟨.connAccept, 2 ^ 31 - 1⟩, ⟨.connClient, 2 ^ 31 - 1⟩, ⟨.fiber, 3⟩]

/-- The group of the `i`-th of them. -/
def groupOf (i : ℕ) : ThreadType :=
  if i < 2 ^ 31 - 1 then .connAccept else if i < 2 ^ 32 - 2 then .connClient else .fiber

/-- The first `n` of them start, each with its own event base. -/
def starts (n : ℕ) : List (Event ℕ P D) := (List.range n).map fun i => .threadStarted (groupOf i) i

theorem hasEventBase_groupOf (i : ℕ) : (groupOf i).hasEventBase = true := by
  unfold groupOf
  split
  · rfl
  · split <;> rfl

theorem fewConnections_starts (n : ℕ) :
    ∀ e ∈ (starts n : List (Event ℕ P D)), ∀ v v', FewConnections v e v' := by
  intro e he v v'
  obtain ⟨i, -, rfl⟩ := List.mem_map.1 he
  trivial

/-- The threads `0` to `n - 1` have started, each manager has the index of its thread, and nothing
else has happened. -/
structure Started (n : ℕ) (w : Routing ℕ P D) : Prop where
  groups : ∀ t : ThreadType, t.hasEventBase = true → (w.threads.groups.threadGroups t).isSome
  length : w.threads.groups.threadDatas.length = n
  evbAt : ∀ i, i < n → w.evbAt i = some (some i)
  manager : ∀ i, w.threads.connManagers i = { threadId := if i < n then UInt64.ofNat i else 0 }
  connections : w.connections = []
  closed : w.closed = []
  queued : w.queued = []

theorem Started.isStarted {n : ℕ} {w : Routing ℕ P D} (h : Started n w) {i : ℕ} (hi : i < n) :
    w.threads.IsStarted i = true :=
  IOThreads.isStarted_iff.2 ⟨i, h.evbAt i hi⟩

theorem Started.next {n : ℕ} {w : Routing ℕ P D} (h : Started n w) :
    ∃ w', step w (.threadStarted (groupOf n) n) = some w' ∧ Started (n + 1) w' := by
  have hnew : w.threads.IsStarted n = false := by
    rw [← Bool.not_eq_true, IOThreads.isStarted_iff]
    rintro ⟨i, hi⟩
    have hlt := ThreadGroupListManager.getEventBaseByThreadID_lt hi
    rw [h.length] at hlt
    rw [show w.threads.groups.getEventBaseByThreadID i = _ from h.evbAt i hlt] at hi
    cases hi
    exact Nat.lt_irrefl _ hlt
  obtain ⟨threads, ht, hkeep⟩ := IOThreads.threadStarted_isSome n
    (h.groups (groupOf n) (hasEventBase_groupOf n))
  obtain ⟨hlen, hevb, hmanager⟩ := IOThreads.threadStarted_spec ht
  refine ⟨{ w with threads }, ?_, fun t hio => hkeep t (h.groups t hio), by rw [hlen, h.length],
    fun i hi => ?_, fun i => ?_, h.connections, h.closed, h.queued⟩
  · simp only [step, hnew, ht]
    rfl
  · change threads.groups.getEventBaseByThreadID i = _
    rw [hevb, h.length, hasEventBase_groupOf]
    split
    · next he =>
      rw [he]
      rfl
    · exact h.evbAt i (by omega)
  · rw [hmanager, hasEventBase_groupOf, h.length, h.manager, h.manager]
    by_cases he : i = n
    · subst he
      simp [ThreadLocalConnManager.setThreadId]
    · have hlt : i < n + 1 ↔ i < n := by omega
      simp [he, hlt]

theorem run_starts (n : ℕ) : ∃ w : Routing ℕ P D,
    run step (init manyThreads) (starts n) = some w ∧ Started n w := by
  induction n with
  | zero =>
    refine ⟨_, rfl, ?_, rfl, fun i hi => absurd hi (Nat.not_lt_zero i), fun i => rfl, rfl, rfl, rfl⟩
    intro t ht
    cases t <;> first | rfl | cases ht
  | succ n ih =>
    obtain ⟨w, hrun, hw⟩ := ih
    obtain ⟨w', hstep, hw'⟩ := hw.next
    have hstarts : (starts (n + 1) : List (Event ℕ P D)) =
        starts n ++ [.threadStarted (groupOf n) n] := by
      simp [starts, List.range_succ]
    rw [hstarts]
    exact ⟨w', run_concat_of_eq_some hrun hstep, hw'⟩

/-- The first connection of a thread. -/
theorem onNewConnection_new (threadId : UInt64) (pipeline : P) :
    ThreadLocalConnManager.onNewConnection { threadId } pipeline =
      some (pair threadId 1,
        { threadId, currentConnId := 1, pipelines := (∅ : Table UInt32 P).insert 1 pipeline }) :=
  ThreadLocalConnManager.onNewConnection_first _ pipeline
    (by decide : (0 : UInt32).toNat + 1 < 2 ^ 32) (AList.notMem_empty _)

/-- The first connection of a thread that has started. -/
theorem step_onNewConnection_new {evb : E} {threadId : UInt64}
    (hstarted : w.threads.IsStarted evb = true)
    (hm : w.threads.connManagers evb = { threadId }) (pipeline : P) :
    ∃ w', step w (.onNewConnection evb pipeline) = some w' ∧ w'.threads.groups = w.threads.groups ∧
      (∀ evb', evb' ≠ evb → w'.threads.connManagers evb' = w.threads.connManagers evb') ∧
      w'.connections = ⟨w.connections.length, evb, pair threadId 1, pipeline⟩ :: w.connections ∧
      w'.closed = w.closed ∧ w'.queued = w.queued := by
  simp only [step, hstarted, if_true, hm, onNewConnection_new]
  exact ⟨_, rfl, rfl, fun evb' hne => Function.update_of_ne hne _ _, rfl, rfl, rfl⟩

theorem openedOn_le (w : Routing E P D) (evb : E) : w.openedOn evb ≤ w.connections.length :=
  List.length_filter_le _ _

/-- An event opens at most one connection. -/
theorem length_connections_step {e : Event E P D} (hs : step w e = some w') :
    w'.connections.length ≤ w.connections.length + 1 := by
  cases e with
  | threadStarted threadType evb =>
    simp only [step] at hs
    split at hs
    · cases hs
    · obtain ⟨threads, -, hr⟩ := Option.bind_eq_some_iff.1 hs
      cases hr
      exact Nat.le_succ _
  | onNewConnection evb pipeline =>
    simp only [step] at hs
    split at hs
    · obtain ⟨⟨connId, m⟩, -, hr⟩ := Option.bind_eq_some_iff.1 hs
      cases hr
      exact Nat.le_refl _
    · cases hs
  | onConnectionClosed number =>
    obtain ⟨c, -, hr⟩ := Option.bind_eq_some_iff.1 hs
    cases hr
    exact Nat.le_succ _
  | sendIOBuf connId data =>
    simp only [step] at hs
    split at hs
    · obtain ⟨⟨sent, task⟩, -, hr⟩ := Option.bind_eq_some_iff.1 hs
      cases hr
      exact Nat.le_succ _
    · cases hs
  | runTask i =>
    obtain ⟨task, -, hr⟩ := Option.bind_eq_some_iff.1 hs
    cases hr
    exact Nat.le_succ _

theorem along_fewConnections {es : List (Event E P D)}
    (hlen : w.connections.length + es.length < 2 ^ 32 - 1) : Along step FewConnections w es := by
  induction es generalizing w with
  | nil => trivial
  | cons e es ih =>
    intro w' hs
    have hle := length_connections_step hs
    rw [List.length_cons] at hlen
    refine ⟨?_, ih (by omega)⟩
    cases e with
    | onNewConnection evb pipeline =>
      have hopened := w'.openedOn_le evb
      change w'.openedOn evb < 2 ^ 32 - 1
      omega
    | _ => trivial

/-- The index `2^32` is shifted out of an id. -/
theorem pair_two_pow (lo : UInt32) : pair (UInt64.ofNat (2 ^ 32)) lo = pair 0 lo := by
  apply UInt64.toNat_inj.1
  have hzero : (UInt64.ofNat (2 ^ 32)).toNat % 2 ^ 32 = 0 := by
    rw [UInt64.toNat_ofNat']
    omega
  rw [pair_toNat, pair_toNat, hzero]
  rfl

/-- Two threads that issue one id: a connection opens on each, the second one closes, and data is
sent to the id of the second. -/
theorem run_same_id (hconn : w.connections = []) (hclosed : w.closed = []) (hqueued : w.queued = [])
    {a b : E} (hab : b ≠ a) (ha : w.threads.IsStarted a = true) (hb : w.threads.IsStarted b = true)
    {idA idB : UInt64} (hma : w.threads.connManagers a = { threadId := idA })
    (hmb : w.threads.connManagers b = { threadId := idB }) (hid : pair idB 1 = pair idA 1)
    (hevb : w.evbAt (high (pair idA 1)).toNat = some (some a)) (p q : P) (data : D) :
    ∃ w', run step w [.onNewConnection a p, .onNewConnection b q, .onConnectionClosed 1,
        .sendIOBuf (pair idA 1) data] = some w' ∧
      w'.connections = [⟨1, b, pair idA 1, q⟩, ⟨0, a, pair idA 1, p⟩] ∧ w'.closed = [1] ∧
      w'.queued = [⟨a, pair idA 1, data⟩] := by
  obtain ⟨w₁, h₁, hg₁, hm₁, hc₁, hcl₁, hq₁⟩ := step_onNewConnection_new ha hma p
  rw [hconn] at hc₁
  obtain ⟨w₂, h₂, hg₂, -, hc₂, hcl₂, hq₂⟩ := step_onNewConnection_new (w := w₁)
    (by rw [IOThreads.IsStarted, hg₁]; exact hb) ((hm₁ b hab).trans hmb) q
  rw [hc₁, hid] at hc₂
  have hfind : w₂.connections.find? (fun c => c.number = 1) = some ⟨1, b, pair idA 1, q⟩ := by
    rw [hc₂]
    rfl
  have h₃ := step_onConnectionClosed hfind
  have h₄ : step (w₂.closedBy ⟨1, b, pair idA 1, q⟩) (.sendIOBuf (pair idA 1) data) =
      some { w₂.closedBy ⟨1, b, pair idA 1, q⟩ with queued := [⟨a, pair idA 1, data⟩] } := by
    have hany : (w₂.closedBy ⟨1, b, pair idA 1, q⟩).connections.any
        (fun c => c.connId = pair idA 1) = true := by
      change w₂.connections.any _ = true
      rw [hc₂]
      simp
    have hsend : ServiceManager.sendIOBuf (w₂.closedBy ⟨1, b, pair idA 1, q⟩).threads.groups
        (pair idA 1) data = some (true, some ⟨a, pair idA 1, data⟩) := by
      change ServiceManager.sendIOBuf w₂.threads.groups _ _ = _
      rw [hg₂, hg₁]
      unfold ServiceManager.sendIOBuf
      rw [show w.threads.groups.getEventBaseByThreadID _ = _ from hevb]
      rfl
    have hq : (w₂.closedBy ⟨1, b, pair idA 1, q⟩).queued = [] :=
      hq₂.trans (hq₁.trans hqueued)
    simp only [step, hany, if_true, hsend, hq]
    rfl
  refine ⟨_, run_cons_eq_some.2 ⟨w₁, h₁, run_cons_eq_some.2 ⟨w₂, h₂, run_cons_eq_some.2 ⟨_, h₃,
    run_cons_eq_some.2 ⟨_, h₄, rfl⟩⟩⟩⟩, hc₂, ?_, rfl⟩
  change 1 :: w₂.closed = [1]
  rw [hcl₂, hcl₁, hclosed]

/-- Thread `2^32` issues the ids of thread 0: when its connection is closed, data for it goes to
the connection of thread 0. -/
theorem data_reaches_another_connection :
    ¬ ∀ (options : List ThreadGroupOption) (es : List (Event ℕ Bool ℕ)) (w : Routing ℕ Bool ℕ),
      run step (init options) es = some w → Along step FewConnections (init options) es →
      Delivers w := by
  intro h
  obtain ⟨es, hes, w, hrun, hw⟩ : ∃ es : List (Event ℕ Bool ℕ),
      (∀ e ∈ es, ∀ v v', FewConnections v e v') ∧
        ∃ w, run step (init manyThreads) es = some w ∧ Started (2 ^ 32 + 1) w :=
    ⟨starts (2 ^ 32 + 1), fewConnections_starts _, run_starts (2 ^ 32 + 1)⟩
  have hmanager : w.threads.connManagers (2 ^ 32) = { threadId := UInt64.ofNat (2 ^ 32) } := by
    rw [hw.manager, if_pos (Nat.lt_succ_self _)]
  obtain ⟨w', hrun', hc', hcl', hq'⟩ := run_same_id hw.connections hw.closed hw.queued
    (by omega : (2 ^ 32 : ℕ) ≠ 0) (hw.isStarted (Nat.succ_pos _)) (hw.isStarted (Nat.lt_succ_self _))
    (hw.manager 0) hmanager (pair_two_pow 1) (hw.evbAt 0 (Nat.succ_pos _)) true false 5
  have hfew : w.connections.length + 4 < 2 ^ 32 - 1 := by
    rw [hw.connections]
    decide
  have hd := h manyThreads _ w' (run_append_of_eq_some hrun hrun')
    ((Along.of_forall hes).append hrun (along_fewConnections hfew))
  -- the queued task is for the closed connection as much as for the open one
  have htask : w'.queued[0]? = some ⟨0, pair 0 1, 5⟩ := by
    rw [hq']
    rfl
  have hA := hd.run 0 _ htask ⟨0, 0, pair 0 1, true⟩ (by rw [hc']; simp) rfl
  have hB := hd.run 0 _ htask ⟨1, 2 ^ 32, pair 0 1, false⟩ (by rw [hc']; simp) rfl
  have he := congrArg Routing.written (Option.some.inj (hA.symm.trans hB))
  simp [delivered, hcl'] at he

end Routing

end ServiceFramework.Net
