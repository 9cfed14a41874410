import ServiceFramework.Net.IOThreadConnManager

/-!
# Dispatch over the threads of a pool

`IOThreadPoolConnManager` (`net/io_thread_pool_manager.cc`) has one connection manager for each
thread of its pool. `DispatchIOBufByServer` does not know which thread a server is registered on: it
queues a task on the first thread, and a task that finds no registration on its thread queues
another on the next one. Meanwhile connections open, register and close on every thread.

A dispatch has at most one task queued, whose index is the number of its tasks that ran. It writes
at most once, in at most as many tasks as there are threads, and exactly once if a thread has a
registration while the dispatch is under way (`dispatched_once`): the task cannot pass that thread.
-/

namespace ServiceFramework.Net

open BitField Transition

/-! ## The manager -/

/-- The members of `IOThreadPoolConnManager`. -/
structure IOThreadPoolConnManager (E P : Type) where
  threadConnManagers : List (IOThreadConnManager E P)

/-- A function that `DispatchIOBufByServer` or `DispatchIOBufByIdx` queues on an event base: the
arguments of its `DispatchIOBufByIdx` call. -/
structure DispatchTask (E D : Type) where
  evb : E
  idx : ℕ
  serverName : String
  serverNumber : UInt32
  data : D

/-- A function that `DispatchIOBufByConnID` queues on an event base: the index of the manager it
keeps, and the arguments of its call of that manager. -/
structure ConnDispatchTask (E D : Type) where
  evb : E
  conn : ℕ
  connId : UInt32
  data : D

namespace IOThreadPoolConnManager

variable {E P D : Type}

/-- The constructor, for a pool whose threads have the event bases `evbs`. -/
def ofEventBases (evbs : List E) : IOThreadPoolConnManager E P where
  threadConnManagers := evbs.mapIdx fun i evb =>
    { threadId := UInt64.ofNat i, eventBase := some evb }

section Pipelines

variable [DecidableEq E]

/-- The search for the manager of a pipeline's event base. -/
def findThread (m : IOThreadPoolConnManager E P) (eventBase : E) :
    Option (ℕ × IOThreadConnManager E P) := do
  let i ← m.threadConnManagers.findIdx? fun conn => conn.eventBase = some eventBase
  let conn ← m.threadConnManagers[i]?
  return (i, conn)

/-- `OnNewConnection` for a pipeline on `eventBase`; `none` if the manager's loop does not end. -/
def onNewConnection (m : IOThreadPoolConnManager E P) (pipeline : P) (eventBase : E)
    (serviceName : String) : Option (UInt64 × IOThreadPoolConnManager E P) :=
  match m.findThread eventBase with
  | some (i, conn) => do
    let (low, conn) ← conn.onNewConnection pipeline serviceName
    return (pair (UInt64.ofNat i) low, { threadConnManagers := m.threadConnManagers.set i conn })
  | none => some (0xffffffffffffffff, m)

/-- `OnServerRegister` for a pipeline on `eventBase`. -/
def onServerRegister (m : IOThreadPoolConnManager E P) (pipeline : P) (eventBase : E)
    (serverName : String) (serverNumber : UInt32) : IOThreadPoolConnManager E P :=
  match m.findThread eventBase with
  | some (i, conn) =>
    { threadConnManagers := m.threadConnManagers.set i
        (conn.onServerRegister (some pipeline) serverName serverNumber) }
  | none => m

end Pipelines

/-- `OnConnectionClosed`. The thread index is not checked: `none` is a read outside
`thread_conn_managers_`. -/
def onConnectionClosed [DecidableEq P] (m : IOThreadPoolConnManager E P) (connId : UInt64)
    (pipeline : P) (serviceName : String) : Option (Bool × IOThreadPoolConnManager E P) := do
  let conn ← m.threadConnManagers[(high connId).toNat]?
  let (rv, conn) ← conn.onConnectionClosed (low connId) pipeline serviceName
  return (rv, { threadConnManagers := m.threadConnManagers.set (high connId).toNat conn })

/-- `DispatchIOBufByConnID`: its result and the task it queues. The thread index is not checked
either: `none` is a read outside `thread_conn_managers_` or a null event base. -/
def dispatchIOBufByConnID (m : IOThreadPoolConnManager E P) (connId : UInt64) (data : D) :
    Option (Bool × ConnDispatchTask E D) := do
  let conn ← m.threadConnManagers[(high connId).toNat]?
  let evb ← conn.eventBase
  return (true, { evb, conn := (high connId).toNat, connId := low connId, data })

/-- `DispatchIOBufByIdx`: its result, what it writes and the task it queues. -/
def dispatchIOBufByIdx (m : IOThreadPoolConnManager E P) (idx : ℕ) (serverName : String)
    (serverNumber : UInt32) (data : D) : Bool × Option (P × D) × Option (DispatchTask E D) :=
  match m.threadConnManagers[idx]? with
  | some conn =>
    match conn.dispatchIOBufByServer serverName serverNumber data with
    | (true, out) => (true, out, none)
    | (false, _) =>
      match m.threadConnManagers[idx + 1]? with
      | some next =>
        (true, none, next.eventBase.map fun evb =>
          { evb, idx := idx + 1, serverName, serverNumber, data })
      | none => (true, none, none)
  | none => (true, none, none)

/-- `DispatchIOBufByServer`: its result and the task it queues, `none` for a pool without
threads. -/
def dispatchIOBufByServer (m : IOThreadPoolConnManager E P) (serverName : String)
    (serverNumber : UInt32) (data : D) : Option (Bool × Option (DispatchTask E D)) := do
  let conn ← m.threadConnManagers[0]?
  return (true, conn.eventBase.map fun evb => { evb, idx := 0, serverName, serverNumber, data })

/-! ## What an operation does -/

/-- The managers are those of the pool's event bases. -/
def Of (evbs : List E) (m : IOThreadPoolConnManager E P) : Prop :=
  m.threadConnManagers.map IOThreadConnManager.eventBase = evbs.map some

theorem of_ofEventBases (evbs : List E) : (ofEventBases evbs : IOThreadPoolConnManager E P).Of evbs := by
  apply List.ext_getElem?
  intro i
  simp only [ofEventBases, List.getElem?_map, List.getElem?_mapIdx, Option.map_map]
  rfl

variable {m m' : IOThreadPoolConnManager E P} {evbs : List E}

theorem Of.length_eq (hm : m.Of evbs) : m.threadConnManagers.length = evbs.length := by
  simpa using congrArg List.length hm

theorem Of.eventBase (hm : m.Of evbs) {i : ℕ} {conn : IOThreadConnManager E P}
    (h : m.threadConnManagers[i]? = some conn) : ∃ evb, conn.eventBase = some evb := by
  have hi : (evbs.map some)[i]? = some conn.eventBase := by
    rw [← hm, List.getElem?_map, h]
    rfl
  rw [List.getElem?_map] at hi
  obtain ⟨evb, -, hevb⟩ := Option.map_eq_some_iff.1 hi
  exact ⟨evb, hevb.symm⟩

/-- A manager is replaced by one with the same event base. -/
theorem Of.set (hm : m.Of evbs) {i : ℕ} {conn conn' : IOThreadConnManager E P}
    (h : m.threadConnManagers[i]? = some conn) (hevb : conn'.eventBase = conn.eventBase) :
    (⟨m.threadConnManagers.set i conn'⟩ : IOThreadPoolConnManager E P).Of evbs := by
  obtain ⟨hlt, rfl⟩ := List.getElem?_eq_some_iff.1 h
  have hlt' : i < (m.threadConnManagers.map IOThreadConnManager.eventBase).length := by
    simpa using hlt
  unfold Of
  rw [List.map_set, hevb, ← hm, ← List.getElem_map IOThreadConnManager.eventBase (h := hlt')]
  exact List.set_getElem_self hlt'

section Pipelines

variable [DecidableEq E]

theorem findThread_eq_some {eventBase : E} {i : ℕ} {conn : IOThreadConnManager E P}
    (h : m.findThread eventBase = some (i, conn)) : m.threadConnManagers[i]? = some conn := by
  obtain ⟨j, -, h⟩ := Option.bind_eq_some_iff.1 h
  obtain ⟨conn', hconn, hr⟩ := Option.bind_eq_some_iff.1 h
  cases hr
  exact hconn

theorem Of.onNewConnection (hm : m.Of evbs) {pipeline : P} {eventBase : E} {serviceName : String}
    {id : UInt64} (h : m.onNewConnection pipeline eventBase serviceName = some (id, m')) :
    m'.Of evbs := by
  unfold IOThreadPoolConnManager.onNewConnection at h
  split at h
  · next i conn hfind =>
    obtain ⟨⟨low, conn'⟩, hnew, hr⟩ := Option.bind_eq_some_iff.1 h
    obtain ⟨-, c, -, rfl⟩ := IOThreadConnManager.onNewConnection_cases hnew
    cases hr
    exact hm.set (findThread_eq_some hfind) rfl
  · cases h
    exact hm

theorem Of.onServerRegister (hm : m.Of evbs) (pipeline : P) (eventBase : E) (serverName : String)
    (serverNumber : UInt32) :
    (m.onServerRegister pipeline eventBase serverName serverNumber).Of evbs := by
  unfold IOThreadPoolConnManager.onServerRegister
  split
  · next i conn hfind =>
    exact hm.set (findThread_eq_some hfind) rfl
  · exact hm

end Pipelines

theorem Of.onConnectionClosed [DecidableEq P] (hm : m.Of evbs) {connId : UInt64} {pipeline : P}
    {serviceName : String} {rv : Bool}
    (h : m.onConnectionClosed connId pipeline serviceName = some (rv, m')) : m'.Of evbs := by
  obtain ⟨conn, hconn, h⟩ := Option.bind_eq_some_iff.1 h
  obtain ⟨⟨rv', conn'⟩, hclose, hr⟩ := Option.bind_eq_some_iff.1 h
  rw [IOThreadConnManager.onConnectionClosed_eq] at hclose
  cases hclose
  cases hr
  exact hm.set hconn rfl

/-- A pipeline is registered under the name and number on the thread `j`. -/
def RegisteredOn (m : IOThreadPoolConnManager E P) (j : ℕ) (serverName : String)
    (serverNumber : UInt32) (pipeline : P) : Prop :=
  ∃ conn, m.threadConnManagers[j]? = some conn ∧
    ∃ v ∈ conn.serverConns, v.equals serverName serverNumber = true ∧ v.pipeline = some pipeline

/-- A task writes to a pipeline registered on its thread, and only then; else it queues a task on
the next thread, if there is one. -/
theorem dispatchIOBufByIdx_cases (hm : m.Of evbs) {idx : ℕ} (hidx : idx < evbs.length)
    (serverName : String) (serverNumber : UInt32) (data : D) :
    (∃ p, m.RegisteredOn idx serverName serverNumber p ∧
      m.dispatchIOBufByIdx idx serverName serverNumber data = (true, some (p, data), none)) ∨
    (¬∃ p, m.RegisteredOn idx serverName serverNumber p) ∧
      ((idx + 1 < evbs.length ∧ ∃ evb,
        m.dispatchIOBufByIdx idx serverName serverNumber data =
          (true, none, some { evb, idx := idx + 1, serverName, serverNumber, data })) ∨
      idx + 1 = evbs.length ∧
        m.dispatchIOBufByIdx idx serverName serverNumber data = (true, none, none)) := by
  rw [← hm.length_eq] at hidx ⊢
  have hconn := List.getElem?_eq_getElem hidx
  obtain hconn : ∃ conn, m.threadConnManagers[idx]? = some conn := ⟨_, hconn⟩
  obtain ⟨conn, hconn⟩ := hconn
  unfold dispatchIOBufByIdx
  rw [hconn]
  simp only [IOThreadConnManager.dispatchIOBufByServer_eq]
  cases hfind : conn.serverConns.findSome? fun v =>
      if v.equals serverName serverNumber then v.pipeline else none with
  | some p =>
    refine .inl ⟨p, ⟨conn, hconn, ?_⟩, rfl⟩
    obtain ⟨v, hv, hp⟩ := List.exists_of_findSome?_eq_some hfind
    split at hp
    · next heq =>
      exact ⟨v, hv, heq, hp⟩
    · cases hp
  | none =>
    refine .inr ⟨?_, ?_⟩
    · rintro ⟨p, conn', hconn', v, hv, heq, hp⟩
      rw [hconn] at hconn'
      cases hconn'
      have hnone := List.findSome?_eq_none_iff.1 hfind v hv
      rw [if_pos heq, hp] at hnone
      cases hnone
    · rcases Nat.lt_or_ge (idx + 1) m.threadConnManagers.length with hlt | hge
      · obtain ⟨next, hnext⟩ : ∃ next, m.threadConnManagers[idx + 1]? = some next :=
          ⟨_, List.getElem?_eq_getElem hlt⟩
        obtain ⟨evb, hevb⟩ := hm.eventBase hnext
        refine .inl ⟨hlt, evb, ?_⟩
        simp only [hnext, hevb]
        rfl
      · refine .inr ⟨by omega, ?_⟩
        simp only [List.getElem?_eq_none hge]

end IOThreadPoolConnManager

/-! ## Dispatches under way -/

/-- What a pipeline was given: the number of the dispatch, the pipeline and the data. -/
structure DispatchWrite (P D : Type) where
  call : ℕ
  pipeline : P
  data : D

/-- A manager with the calls of `DispatchIOBufByServer` made so far, the tasks that are queued, in
no particular order, and those that ran, each with the number of its call, and the writes. -/
structure Dispatching (E P D : Type) where
  pool : IOThreadPoolConnManager E P
  calls : ℕ := 0
  queued : List (ℕ × DispatchTask E D) := []
  ran : List ℕ := []
  written : List (DispatchWrite P D) := []

/-- A connection opens, registers or closes on its thread, some thread dispatches, a queued task
runs. A pipeline comes with its event base and the name of its service. -/
inductive DispatchEvent (E P D : Type) where
  | onNewConnection (pipeline : P) (eventBase : E) (serviceName : String)
  | onServerRegister (pipeline : P) (eventBase : E) (serverName : String) (serverNumber : UInt32)
  | onConnectionClosed (connId : UInt64) (pipeline : P) (serviceName : String)
  | dispatchIOBufByServer (serverName : String) (serverNumber : UInt32) (data : D)
  | runTask (i : ℕ)

namespace Dispatching

variable {E P D : Type}

def init (evbs : List E) : Dispatching E P D where
  pool := .ofEventBases evbs

/-- The task `i`, of the given call, ran with the result `r`. -/
def taskRan (w : Dispatching E P D) (i call : ℕ)
    (r : Bool × Option (P × D) × Option (DispatchTask E D)) : Dispatching E P D :=
  { w with
    queued := w.queued.eraseIdx i ++ r.2.2.toList.map fun task => (call, task)
    ran := w.ran ++ [call]
    written := w.written ++ r.2.1.toList.map fun out => { call, pipeline := out.1, data := out.2 } }

section Step

variable [DecidableEq E] [DecidableEq P]

def step (w : Dispatching E P D) : DispatchEvent E P D → Option (Dispatching E P D)
  | .onNewConnection pipeline eventBase serviceName => do
    let (_, pool) ← w.pool.onNewConnection pipeline eventBase serviceName
    return { w with pool }
  | .onServerRegister pipeline eventBase serverName serverNumber =>
    some { w with pool := w.pool.onServerRegister pipeline eventBase serverName serverNumber }
  | .onConnectionClosed connId pipeline serviceName => do
    let (_, pool) ← w.pool.onConnectionClosed connId pipeline serviceName
    return { w with pool }
  | .dispatchIOBufByServer serverName serverNumber data => do
    let (_, task) ← w.pool.dispatchIOBufByServer serverName serverNumber data
    return { w with
      calls := w.calls + 1
      queued := w.queued ++ task.toList.map fun task => (w.calls, task) }
  | .runTask i => do
    let (call, task) ← w.queued[i]?
    return w.taskRan i call
      (w.pool.dispatchIOBufByIdx task.idx task.serverName task.serverNumber task.data)

end Step

/-- The tasks of a call in a queue. -/
def ofCall (queued : List (ℕ × DispatchTask E D)) (call : ℕ) : List (DispatchTask E D) :=
  (queued.filter fun t => t.1 = call).map Prod.snd

/-- The tasks of a call that are queued. -/
def inFlight (w : Dispatching E P D) (call : ℕ) : List (DispatchTask E D) := ofCall w.queued call

/-- The number of tasks of a call that ran. -/
def tasks (w : Dispatching E P D) (call : ℕ) : ℕ := w.ran.count call

/-- The writes of a call. -/
def writes (w : Dispatching E P D) (call : ℕ) : List (DispatchWrite P D) :=
  w.written.filter fun x => x.call = call

/-! ## What a step does to a call -/

/-- Nothing of a call changes. -/
def Same (w w' : Dispatching E P D) (call : ℕ) : Prop :=
  w'.inFlight call = w.inFlight call ∧ w'.tasks call = w.tasks call ∧ w'.writes call = w.writes call

/-- A call has one task queued, whose index is the number of its tasks that ran, and has not
written; or it is over. -/
def Chain (n : ℕ) (w : Dispatching E P D) (call : ℕ) : Prop :=
  (∃ task, w.inFlight call = [task] ∧ task.idx = w.tasks call ∧ task.idx < n ∧ w.writes call = []) ∨
    w.inFlight call = [] ∧ w.tasks call ≤ n ∧ (w.writes call).length ≤ 1

structure Chained (evbs : List E) (w : Dispatching E P D) : Prop where
  pool : w.pool.Of evbs
  chain : ∀ call, Chain evbs.length w call
  fresh : ∀ call, w.calls ≤ call →
    w.inFlight call = [] ∧ w.tasks call = 0 ∧ w.writes call = []

variable {evbs : List E} {w w' : Dispatching E P D}

theorem chained_init (evbs : List E) : (init evbs : Dispatching E P D).Chained evbs where
  pool := IOThreadPoolConnManager.of_ofEventBases evbs
  chain _ := .inr ⟨rfl, Nat.zero_le _, Nat.zero_le _⟩
  fresh _ _ := ⟨rfl, rfl, rfl⟩

theorem Chain.same {n call : ℕ} (hc : Chain n w call) (h : Same w w' call) : Chain n w' call := by
  obtain ⟨hflight, htasks, hwrites⟩ := h
  unfold Chain
  rw [hflight, htasks, hwrites]
  exact hc

@[simp] theorem ofCall_nil (call : ℕ) : ofCall ([] : List (ℕ × DispatchTask E D)) call = [] := rfl

@[simp] theorem ofCall_append (q q' : List (ℕ × DispatchTask E D)) (call : ℕ) :
    ofCall (q ++ q') call = ofCall q call ++ ofCall q' call := by
  simp [ofCall]

@[simp] theorem ofCall_cons (call' : ℕ) (task : DispatchTask E D) (q : List (ℕ × DispatchTask E D))
    (call : ℕ) :
    ofCall ((call', task) :: q) call =
      if call' = call then task :: ofCall q call else ofCall q call := by
  by_cases h : call' = call <;> simp [ofCall, h]

@[simp] theorem ofCall_toList (next : Option (DispatchTask E D)) (call' call : ℕ) :
    ofCall (next.toList.map fun task => (call', task)) call =
      if call' = call then next.toList else [] := by
  by_cases h : call' = call <;> cases next <;> simp [ofCall, h]

/-- The queue without one of its elements. -/
theorem eraseIdx_split {α : Type} {l : List α} {i : ℕ} {a : α} (h : l[i]? = some a) :
    ∃ pre post, l = pre ++ a :: post ∧ l.eraseIdx i = pre ++ post := by
  obtain ⟨hi, rfl⟩ := List.getElem?_eq_some_iff.1 h
  refine ⟨l.take i, l.drop (i + 1), ?_, List.eraseIdx_eq_take_drop_succ l i⟩
  rw [← List.drop_eq_getElem_cons hi, List.take_append_drop]

/-- A task that ran is gone from the queue and has left what its result says. -/
theorem inFlight_taskRan {i call : ℕ} {task : DispatchTask E D} (htask : w.queued[i]? = some (call, task))
    (hone : w.inFlight call = [task]) (r : Bool × Option (P × D) × Option (DispatchTask E D))
    (call' : ℕ) :
    (w.taskRan i call r).inFlight call' = if call = call' then r.2.2.toList else w.inFlight call' := by
  obtain ⟨pre, post, hq, herase⟩ := eraseIdx_split htask
  rw [inFlight, hq, ofCall_append, ofCall_cons, if_pos rfl] at hone
  have hlen := congrArg List.length hone
  simp only [List.length_append, List.length_cons, List.length_nil] at hlen
  have hpre : ofCall pre call = [] := List.eq_nil_of_length_eq_zero (by omega)
  have hpost : ofCall post call = [] := List.eq_nil_of_length_eq_zero (by omega)
  rw [inFlight, taskRan, ofCall_append, ofCall_toList, herase, ofCall_append, inFlight, hq,
    ofCall_append, ofCall_cons]
  by_cases he : call = call'
  · subst he
    simp [hpre, hpost]
  · simp [he]

theorem tasks_taskRan (i call : ℕ) (r : Bool × Option (P × D) × Option (DispatchTask E D))
    (call' : ℕ) :
    (w.taskRan i call r).tasks call' = w.tasks call' + if call = call' then 1 else 0 := by
  by_cases he : call = call' <;> simp [tasks, taskRan, he]

theorem writes_taskRan (i call : ℕ) (r : Bool × Option (P × D) × Option (DispatchTask E D))
    (call' : ℕ) :
    (w.taskRan i call r).writes call' = w.writes call' ++
      if call = call' then r.2.1.toList.map fun out => { call, pipeline := out.1, data := out.2 }
      else [] := by
  obtain ⟨rv, out, next⟩ := r
  by_cases he : call = call' <;> cases out <;> simp [writes, taskRan, he]

/-- A queued task is the only one of its call. -/
theorem Chained.queued (hw : w.Chained evbs) {i call : ℕ} {task : DispatchTask E D}
    (htask : w.queued[i]? = some (call, task)) :
    w.inFlight call = [task] ∧ task.idx = w.tasks call ∧ task.idx < evbs.length ∧
      w.writes call = [] := by
  have hmem : task ∈ w.inFlight call := by
    obtain ⟨pre, post, hq, -⟩ := eraseIdx_split htask
    rw [inFlight, hq, ofCall_append, ofCall_cons, if_pos rfl]
    simp
  obtain ⟨task', hone, hchain⟩ | ⟨hnone, -⟩ := hw.chain call
  · rw [hone, List.mem_singleton] at hmem
    subst hmem
    exact ⟨hone, hchain⟩
  · rw [hnone] at hmem
    cases hmem

variable [DecidableEq E] [DecidableEq P]

/-- A task that runs writes to a pipeline registered on its thread; where none is, it is replaced
by the task of the next thread, or was the last one of its call. -/
theorem Chained.runTask_cases (hw : w.Chained evbs) {i : ℕ} (h : step w (.runTask i) = some w') :
    ∃ call task, w.inFlight call = [task] ∧ task.idx = w.tasks call ∧ task.idx < evbs.length ∧
      w'.pool = w.pool ∧ w'.calls = w.calls ∧ w'.tasks call = w.tasks call + 1 ∧
      (∀ call' ≠ call, Same w w' call') ∧
      ((∃ p, w.pool.RegisteredOn task.idx task.serverName task.serverNumber p ∧
        w'.inFlight call = [] ∧ w'.writes call = [⟨call, p, task.data⟩]) ∨
      (¬∃ p, w.pool.RegisteredOn task.idx task.serverName task.serverNumber p) ∧
        w'.writes call = [] ∧
        ((task.idx + 1 < evbs.length ∧
          ∃ evb, w'.inFlight call = [{ task with evb, idx := task.idx + 1 }]) ∨
        task.idx + 1 = evbs.length ∧ w'.inFlight call = [])) := by
  obtain ⟨⟨call, task⟩, htask, hr⟩ := Option.bind_eq_some_iff.1 h
  obtain ⟨hone, hidx, hlt, hwrites⟩ := hw.queued htask
  cases hr
  refine ⟨call, task, hone, hidx, hlt, rfl, rfl, ?_, fun call' he => ⟨?_, ?_, ?_⟩, ?_⟩
  · rw [tasks_taskRan, if_pos rfl]
  · rw [inFlight_taskRan htask hone, if_neg he.symm]
  · rw [tasks_taskRan, if_neg he.symm]
    rfl
  · rw [writes_taskRan, if_neg he.symm, List.append_nil]
  · rw [inFlight_taskRan htask hone, if_pos rfl, writes_taskRan, if_pos rfl, hwrites]
    rcases IOThreadPoolConnManager.dispatchIOBufByIdx_cases hw.pool hlt task.serverName
      task.serverNumber task.data with
      ⟨p, hp, hr⟩ | ⟨hnone, ⟨hnext, evb, hr⟩ | ⟨hlast, hr⟩⟩
    · rw [hr]
      exact .inl ⟨p, hp, rfl, rfl⟩
    · rw [hr]
      exact .inr ⟨hnone, rfl, .inl ⟨hnext, evb, rfl⟩⟩
    · rw [hr]
      exact .inr ⟨hnone, rfl, .inr ⟨hlast, rfl⟩⟩

/-- A dispatch queues the task of the first thread. -/
theorem Chained.dispatch_cases (hw : w.Chained evbs) {serverName : String} {serverNumber : UInt32}
    {data : D} (h : step w (.dispatchIOBufByServer serverName serverNumber data) = some w') :
    ∃ evb, w'.inFlight w.calls = [{ evb, idx := 0, serverName, serverNumber, data }] ∧
      w'.tasks w.calls = 0 ∧ w'.writes w.calls = [] ∧ 0 < evbs.length ∧ w'.pool = w.pool ∧
      w'.calls = w.calls + 1 ∧ ∀ call ≠ w.calls, Same w w' call := by
  obtain ⟨⟨rv, task⟩, hd, hr⟩ := Option.bind_eq_some_iff.1 h
  obtain ⟨conn, hconn, hd⟩ := Option.bind_eq_some_iff.1 hd
  obtain ⟨evb, hevb⟩ := hw.pool.eventBase hconn
  have hpos : 0 < evbs.length := by
    rw [← hw.pool.length_eq]
    exact (List.getElem?_eq_some_iff.1 hconn).1
  obtain ⟨hflight, htasks, hwrites⟩ := hw.fresh w.calls le_rfl
  cases hd
  cases hr
  refine ⟨evb, ?_, htasks, hwrites, hpos, rfl, rfl, fun call hne => ⟨?_, rfl, rfl⟩⟩
  · rw [inFlight] at hflight ⊢
    simp [hevb, hflight]
  · simp [inFlight, hne.symm]

/-- A dispatch can be made whenever there is a thread. -/
theorem Chained.exists_dispatch (hw : w.Chained evbs) (hne : evbs ≠ []) (serverName : String)
    (serverNumber : UInt32) (data : D) :
    ∃ w', step w (.dispatchIOBufByServer serverName serverNumber data) = some w' := by
  have hpos : 0 < w.pool.threadConnManagers.length := by
    rw [hw.pool.length_eq]
    exact List.length_pos_iff.2 hne
  unfold step IOThreadPoolConnManager.dispatchIOBufByServer
  simp only [List.getElem?_eq_getElem hpos]
  exact ⟨_, rfl⟩

/-- Connections that open, register or close leave the dispatches as they are. -/
theorem Chained.step_cases (hw : w.Chained evbs) {e : DispatchEvent E P D} (h : step w e = some w') :
    (∃ serverName serverNumber data, e = .dispatchIOBufByServer serverName serverNumber data) ∨
      (∃ i, e = .runTask i) ∨
      w'.pool.Of evbs ∧ w'.calls = w.calls ∧ ∀ call, Same w w' call := by
  cases e with
  | onNewConnection pipeline eventBase serviceName =>
    obtain ⟨⟨id, pool⟩, hp, hr⟩ := Option.bind_eq_some_iff.1 h
    cases hr
    exact .inr (.inr ⟨hw.pool.onNewConnection hp, rfl, fun _ => ⟨rfl, rfl, rfl⟩⟩)
  | onServerRegister pipeline eventBase serverName serverNumber =>
    cases h
    exact .inr (.inr ⟨hw.pool.onServerRegister _ _ _ _, rfl, fun _ => ⟨rfl, rfl, rfl⟩⟩)
  | onConnectionClosed connId pipeline serviceName =>
    obtain ⟨⟨rv, pool⟩, hp, hr⟩ := Option.bind_eq_some_iff.1 h
    cases hr
    exact .inr (.inr ⟨hw.pool.onConnectionClosed hp, rfl, fun _ => ⟨rfl, rfl, rfl⟩⟩)
  | dispatchIOBufByServer serverName serverNumber data => exact .inl ⟨_, _, _, rfl⟩
  | runTask i => exact .inr (.inl ⟨i, rfl⟩)

theorem Chained.step (hw : w.Chained evbs) {e : DispatchEvent E P D} (h : step w e = some w') :
    w'.Chained evbs := by
  rcases hw.step_cases h with ⟨name, number, data, rfl⟩ | ⟨i, rfl⟩ | ⟨hpool, hcalls, hsame⟩
  · obtain ⟨evb, hflight, htasks, hwrites, hpos, hpool, hcalls, hsame⟩ := hw.dispatch_cases h
    refine ⟨hpool ▸ hw.pool, ?_, ?_⟩
    · intro call
      by_cases he : call = w.calls
      · subst he
        exact .inl ⟨_, hflight, htasks.symm, hpos, hwrites⟩
      · exact (hw.chain call).same (hsame call he)
    · intro call hcall
      obtain ⟨hf, ht, hw'⟩ := hsame call (by omega)
      rw [hf, ht, hw']
      exact hw.fresh call (by omega)
  · obtain ⟨call, task, hone, hidx, hlt, hpool, hcalls, htasks, hsame, hcase⟩ :=
      hw.runTask_cases h
    refine ⟨hpool ▸ hw.pool, ?_, ?_⟩
    · intro call'
      by_cases he : call' = call
      · subst he
        rcases hcase with
          ⟨p, -, hflight, hwrites⟩ | ⟨-, hwrites, ⟨hnext, evb, hflight⟩ | ⟨hlast, hflight⟩⟩
        · exact .inr ⟨hflight, by omega, by simp [hwrites]⟩
        · exact .inl ⟨_, hflight, by simp [htasks, hidx], hnext, hwrites⟩
        · exact .inr ⟨hflight, by omega, by simp [hwrites]⟩
      · exact (hw.chain call').same (hsame call' he)
    · intro call' hcall
      have he : call' ≠ call := by
        rintro rfl
        rw [(hw.fresh call' (hcalls ▸ hcall)).1] at hone
        cases hone
      obtain ⟨hf, ht, hw'⟩ := hsame call' he
      rw [hf, ht, hw']
      exact hw.fresh call' (hcalls ▸ hcall)
  · refine ⟨hpool, fun call => (hw.chain call).same (hsame call), ?_⟩
    intro call hcall
    obtain ⟨hf, ht, hw'⟩ := hsame call
    rw [hf, ht, hw']
    exact hw.fresh call (hcalls ▸ hcall)

/-! ## One dispatch -/

/-- A call that was made, of the given name, number and data. -/
structure Called (evbs : List E) (call : ℕ) (serverName : String) (serverNumber : UInt32) (data : D)
    (w : Dispatching E P D) : Prop where
  chained : w.Chained evbs
  made : call < w.calls
  args : ∀ task ∈ w.inFlight call,
    task.serverName = serverName ∧ task.serverNumber = serverNumber ∧ task.data = data

/-- What is written for a call is its data, to a pipeline registered under its name and number. -/
def WritesRegistered (call : ℕ) (serverName : String) (serverNumber : UInt32) (data : D)
    (w : Dispatching E P D) (_ : DispatchEvent E P D) (w' : Dispatching E P D) : Prop :=
  ∀ x ∈ w'.writes call, x ∈ w.writes call ∨
    x.data = data ∧ ∃ j, w.pool.RegisteredOn j serverName serverNumber x.pipeline

/-- While a task of the call is queued, the thread `j` has a registration under the name and
number. -/
def HasServer (call j : ℕ) (serverName : String) (serverNumber : UInt32)
    (w : Dispatching E P D) (_ : DispatchEvent E P D) (_ : Dispatching E P D) : Prop :=
  w.inFlight call ≠ [] → ∃ p, w.pool.RegisteredOn j serverName serverNumber p

/-- The chain has not passed the thread `j`, or has ended with a write. -/
def NotPassed (call j : ℕ) (w : Dispatching E P D) : Prop :=
  (∃ task, w.inFlight call = [task] ∧ task.idx ≤ j) ∨
    w.inFlight call = [] ∧ (w.writes call).length = 1

omit [DecidableEq E] [DecidableEq P] in
theorem NotPassed.same {call j : ℕ} (hc : NotPassed call j w) (h : Same w w' call) :
    NotPassed call j w' := by
  obtain ⟨hflight, -, hwrites⟩ := h
  unfold NotPassed
  rw [hflight, hwrites]
  exact hc

variable {call : ℕ} {serverName : String} {serverNumber : UInt32} {data : D}

theorem Called.step (hw : w.Called evbs call serverName serverNumber data) {e : DispatchEvent E P D}
    (h : step w e = some w') :
    w'.Called evbs call serverName serverNumber data ∧
      WritesRegistered call serverName serverNumber data w e w' := by
  have hsame : w.calls ≤ w'.calls → Same w w' call →
      w'.Called evbs call serverName serverNumber data ∧
        WritesRegistered call serverName serverNumber data w e w' := by
    rintro hcalls ⟨hflight, -, hwrites⟩
    refine ⟨⟨hw.chained.step h, Nat.lt_of_lt_of_le hw.made hcalls, hflight ▸ hw.args⟩, ?_⟩
    intro x hx
    rw [hwrites] at hx
    exact .inl hx
  rcases hw.chained.step_cases h with ⟨name, number, data', rfl⟩ | ⟨i, rfl⟩ | ⟨-, hcalls, hsame'⟩
  · obtain ⟨-, -, -, -, -, -, hcalls, hother⟩ := hw.chained.dispatch_cases h
    exact hsame (by omega) (hother call hw.made.ne)
  · obtain ⟨call', task, hone, -, -, hpool, hcalls, -, hother, hcase⟩ := hw.chained.runTask_cases h
    by_cases he : call = call'
    · subst he
      have hchained := hw.chained.step h
      obtain ⟨rfl, rfl, rfl⟩ := hw.args task (by simp [hone])
      rcases hcase with
        ⟨p, hp, hflight, hwrites⟩ | ⟨-, hwrites, ⟨-, evb, hflight⟩ | ⟨-, hflight⟩⟩
      · refine ⟨⟨hchained, hcalls ▸ hw.made, by simp [hflight]⟩, ?_⟩
        intro x hx
        rw [hwrites, List.mem_singleton] at hx
        subst hx
        exact .inr ⟨rfl, _, hp⟩
      · exact ⟨⟨hchained, hcalls ▸ hw.made, by simp [hflight]⟩, by simp [WritesRegistered, hwrites]⟩
      · exact ⟨⟨hchained, hcalls ▸ hw.made, by simp [hflight]⟩, by simp [WritesRegistered, hwrites]⟩
    · exact hsame hcalls.ge (hother call he)
  · exact hsame hcalls.ge (hsame' call)

/-- The task of the call does not pass a thread that has a registration. -/
theorem NotPassed.step {j : ℕ} (hc : NotPassed call j w)
    (hw : w.Called evbs call serverName serverNumber data) {e : DispatchEvent E P D}
    (hq : HasServer call j serverName serverNumber w e w') (h : step w e = some w') :
    NotPassed call j w' := by
  rcases hw.chained.step_cases h with ⟨name, number, data', rfl⟩ | ⟨i, rfl⟩ | ⟨-, hcalls, hsame⟩
  · obtain ⟨-, -, -, -, -, -, -, hother⟩ := hw.chained.dispatch_cases h
    exact hc.same (hother call hw.made.ne)
  · obtain ⟨call', task, hone, -, -, -, -, -, hother, hcase⟩ := hw.chained.runTask_cases h
    by_cases he : call = call'
    · subst he
      obtain ⟨p, hp⟩ := hq (by simp [hone])
      obtain ⟨rfl, rfl, rfl⟩ := hw.args task (by simp [hone])
      have hle : task.idx ≤ j := by
        rcases hc with ⟨task', hone', hle⟩ | ⟨hnone, -⟩
        · rw [hone] at hone'
          cases hone'
          exact hle
        · rw [hone] at hnone
          cases hnone
      have hlt : j < evbs.length := by
        obtain ⟨conn, hconn, -⟩ := hp
        rw [← hw.chained.pool.length_eq]
        exact (List.getElem?_eq_some_iff.1 hconn).1
      rcases hcase with
        ⟨_, -, hflight, hwrites⟩ | ⟨hnone, -, hcase⟩
      · exact .inr ⟨hflight, by simp [hwrites]⟩
      · -- nothing is registered on the thread of the task, so that thread is not `j`
        have hne : task.idx ≠ j := by
          rintro rfl
          exact hnone ⟨p, hp⟩
        rcases hcase with ⟨-, evb, hflight⟩ | ⟨hlast, -⟩
        · exact .inl ⟨_, hflight, by simp; omega⟩
        · omega
    · exact hc.same (hother call he)
  · exact hc.same (hsame call)

/-- **One dispatch.** Whatever opens, registers and closes on the threads meanwhile, a dispatch by
name and number writes at most once, its own data to a pipeline registered under them, and runs at
most one task for each thread; its tasks can always run; and if some thread has a registration
under the name and number while a task is queued, it has written exactly once when none is. -/
theorem dispatched_once {evbs : List E} (hne : evbs ≠ []) (es₁ : List (DispatchEvent E P D))
    {w₁ : Dispatching E P D} (h₁ : run step (init evbs) es₁ = some w₁) (serverName : String)
    (serverNumber : UInt32) (data : D) :
    ∃ w₂, step w₁ (.dispatchIOBufByServer serverName serverNumber data) = some w₂ ∧
      ∀ (es₂ : List (DispatchEvent E P D)) (w : Dispatching E P D), run step w₂ es₂ = some w →
        (w.writes w₁.calls).length ≤ 1 ∧
        w.tasks w₁.calls ≤ evbs.length ∧
        (∀ i < w.queued.length, (step w (.runTask i)).isSome) ∧
        Along step (WritesRegistered w₁.calls serverName serverNumber data) w₂ es₂ ∧
        ∀ j, Along step (HasServer w₁.calls j serverName serverNumber) w₂ es₂ →
          w.inFlight w₁.calls = [] → (w.writes w₁.calls).length = 1 := by
  have hw₁ : w₁.Chained evbs := run_invariant (fun _ _ _ hw h => hw.step h) (chained_init evbs) h₁
  obtain ⟨w₂, h₂⟩ := hw₁.exists_dispatch hne serverName serverNumber data
  obtain ⟨evb, hflight, -, -, -, -, hcalls, -⟩ := hw₁.dispatch_cases h₂
  have hw₂ : w₂.Called evbs w₁.calls serverName serverNumber data :=
    ⟨hw₁.step h₂, by omega, by simp [hflight]⟩
  refine ⟨w₂, h₂, ?_⟩
  intro es₂ w h
  have hw := run_invariant (fun _ _ _ hw h => (Called.step hw h).1) hw₂ h
  refine ⟨?_, ?_, ?_, ?_, ?_⟩
  · rcases hw.chained.chain w₁.calls with ⟨task, -, -, -, hwrites⟩ | ⟨-, -, hle⟩
    · simp [hwrites]
    · exact hle
  · rcases hw.chained.chain w₁.calls with ⟨task, -, hidx, hlt, -⟩ | ⟨-, hle, -⟩
    · omega
    · exact hle
  · intro i hi
    simp [step, List.getElem?_eq_getElem hi]
  · have hall : Along step (fun _ _ _ => True) w₂ es₂ := .of_forall fun _ _ _ _ => trivial
    exact hall.imp (fun w e w' _ hw (h : step w e = some w') => hw.step h) hw₂
  · intro j hserver hover
    have hpassed : w.Called evbs w₁.calls serverName serverNumber data ∧ NotPassed w₁.calls j w :=
      hserver.invariant
        (P := fun w => w.Called evbs w₁.calls serverName serverNumber data ∧ NotPassed w₁.calls j w)
        (fun w e w' hq hw (h : step w e = some w') => ⟨(hw.1.step h).1, hw.2.step hw.1 hq h⟩)
        ⟨hw₂, .inl ⟨_, hflight, Nat.zero_le j⟩⟩ h
    rcases hpassed.2 with ⟨task, hone, -⟩ | ⟨-, hone⟩
    · rw [hone] at hover
      cases hover
    · exact hone

/-- A connection of the second thread that registers as the server 1 of "access". -/
def openAndRegister : List (DispatchEvent ℕ ℕ ℕ) :=
  [.onNewConnection 7 1 "access_server", .onServerRegister 7 1 "access" 1]

theorem dispatched_once_two_threads :
    ∃ w₁ w₂ w : Dispatching ℕ ℕ ℕ, run step (init [0, 1]) openAndRegister = some w₁ ∧
      step w₁ (.dispatchIOBufByServer "access" 1 5) = some w₂ ∧
      run step w₂ [.runTask 0, .runTask 0] = some w ∧ (w.writes 0).length = 1 := by
  have hne : [0, 1] ≠ ([] : List ℕ) := by decide
  obtain ⟨w₂, h₂, hall⟩ := dispatched_once hne openAndRegister rfl "access" 1 5
  obtain rfl := Option.some.inj h₂
  refine ⟨_, _, _, rfl, rfl, rfl, (hall [.runTask 0, .runTask 0] _ rfl).2.2.2.2 1 ?_ rfl⟩
  rintro _ ⟨⟩
  refine ⟨fun _ => ⟨7, _, rfl, _, .head _, rfl, rfl⟩, ?_⟩
  rintro _ ⟨⟩
  exact ⟨fun _ => ⟨7, _, rfl, _, .head _, rfl, rfl⟩, trivial⟩

end Dispatching

end ServiceFramework.Net
