import ServiceFramework.Net.BroadCast

/-!
# Sends over the threads of a pool

`DispatchIOBufByConnID` and `BroadCast` of `IOThreadPoolConnManager` (`net/io_thread_pool_manager.cc`)
as a thread makes them, one call after the other: a dispatch passes one function to the event base of
the connection's thread, a broadcast one to each event base in turn, and no call is made before the
loop of the last one is over. Meanwhile connections open, register and close, though none closes inside a
write of `IOThreadConnManager::BroadCast`, whose loop goes over the map that `OnConnectionClosed` erases
from.

While fewer than `2^32 - 1` connections are opened on each thread, an id names one connection, and the
table of a thread has the connections that are open on it (`Routed`). What a function writes to a
connection follows (`Routed.call_writes`): the order of the sends is in `PoolChannels`.
-/

namespace ServiceFramework.Net

open BitField Transition

namespace IOThreadConnManager

variable {E P : Type}

/-- While the next key is neither zero nor taken, the loop of `OnNewConnection` ends in its first
round. -/
theorem onNewConnection_first (m : IOThreadConnManager E P) (pipeline : P) (serviceName : String)
    (hwrap : m.currentConnId.toNat + 1 < 2 ^ 32) (hfree : m.currentConnId + 1 ∉ m.pipelines) :
    m.onNewConnection pipeline serviceName = some (m.currentConnId + 1,
      { m with
        currentConnId := m.currentConnId + 1
        pipelines := m.pipelines.insert (m.currentConnId + 1) pipeline
        servicePipelines := m.servicePipelines.add serviceName (m.currentConnId + 1) }) := by
  -- the key and the counter are those of the other manager, whose loop is the same
  have hsame := ThreadLocalConnManager.onNewConnection_first
    { currentConnId := m.currentConnId, pipelines := m.pipelines } pipeline hwrap hfree
  obtain ⟨⟨k, c⟩, hp, hr⟩ := Option.bind_eq_some_iff.1 hsame
  obtain ⟨hid, hm⟩ := Prod.mk.inj (Option.some.inj hr)
  have hk : k = m.currentConnId + 1 := by
    have hlow := congrArg low hid
    rwa [low_pair, low_pair] at hlow
  have hc : c = m.currentConnId + 1 := congrArg ThreadLocalConnManager.currentConnId hm
  unfold onNewConnection
  simp only [hp, hk, hc]
  rfl

end IOThreadConnManager

/-! ## Messages -/

/-- What a thread sends: data for the connection of an id, or for all connections. -/
inductive PoolMessage (D : Type) where
  | dispatch (connId : UInt64) (data : D)
  | broadCast (data : D)

namespace PoolMessage

variable {D : Type}

def data : PoolMessage D → D
  | dispatch _ data => data
  | broadCast data => data

/-- The message goes to the thread `i`. -/
def goesTo (i : ℕ) : PoolMessage D → Bool
  | dispatch connId _ => (high connId).toNat = i
  | broadCast _ => true

/-- The message is for the connection of an id. -/
def isFor (connId : UInt64) : PoolMessage D → Bool
  | dispatch connId' _ => connId' = connId
  | broadCast _ => true

end PoolMessage

/-- A function that the pool passes to an event base. -/
inductive PoolTask (E D : Type) where
  | dispatch (task : ConnDispatchTask E D)
  | broadCast (task : BroadCastTask D)

namespace PoolTask

variable {E P D : Type}

/-- The index of the manager that the function keeps. -/
def conn : PoolTask E D → ℕ
  | dispatch task => task.conn
  | broadCast task => task.conn

/-- The message that it carries. -/
def message : PoolTask E D → PoolMessage D
  | dispatch task => .dispatch (pair (UInt64.ofNat task.conn) task.connId) task.data
  | broadCast task => .broadCast task.data

/-- The call of its manager: what is written, each time with the id on the thread. -/
def call (v : IOThreadConnManager E P) : PoolTask E D → List (UInt32 × P × D)
  | dispatch task => (v.dispatchIOBufByConnID task.connId task.data).2.toList.map fun out =>
      (task.connId, out)
  | broadCast task => (v.broadCast task.data).2

end PoolTask

/-! ## Sends under way -/

/-- A connection of the pool: its number in the order of opening, the thread it runs on, and how many
functions had run on its event base when it was opened. -/
structure PoolConnection (E P : Type) where
  number : ℕ
  conn : ℕ
  evb : E
  connId : UInt64
  pipeline : P
  serviceName : String
  since : ℕ

/-- What a pipeline was given: the thread that sent it, and where the pipeline was in a table. -/
structure PoolWrite (A P D : Type) where
  thread : A
  conn : ℕ
  connId : UInt32
  pipeline : P
  data : D

/-- The pool and its connections, the calls that the threads made in order, what the loop of a thread's
last broadcast has still to pass to an event base, the event bases, each with a queue for the functions
of each thread, and what was written. -/
structure PoolSending (A E P D : Type) where
  pool : IOThreadPoolConnManager E P
  connections : List (PoolConnection E P) := []
  closed : List ℕ := []
  sent : List (A × PoolMessage D) := []
  todo : A → List (E × BroadCastTask D) := fun _ => []
  loops : EventLoops E A (PoolTask E D) := {}
  written : List (PoolWrite A P D) := []

/-- A connection opens, registers or closes on its thread, a thread that is in no loop dispatches to an
id that was issued or broadcasts, the loop of a thread goes round once, an event base runs the first
function of one of its queues. -/
inductive PoolEvent (A E P D : Type) where
  | onNewConnection (pipeline : P) (eventBase : E) (serviceName : String)
  | onServerRegister (pipeline : P) (eventBase : E) (serverName : String) (serverNumber : UInt32)
  | onConnectionClosed (number : ℕ)
  | dispatchIOBufByConnID (thread : A) (connId : UInt64) (data : D)
  | broadCast (thread : A) (data : D)
  | post (thread : A)
  | runTask (evb : E) (thread : A)

namespace PoolSending

variable {A E P D : Type}

def init (evbs : List E) : PoolSending A E P D where
  pool := .ofEventBases evbs

/-- The connections opened on the thread `i`. -/
def openedOn (w : PoolSending A E P D) (i : ℕ) : ℕ :=
  (w.connections.filter fun c => c.conn = i).length

/-- The state after a connection opened on the thread `conn`, whose managers are then `pool`. -/
def opened (w : PoolSending A E P D) (conn : ℕ) (evb : E) (connId : UInt64) (pipeline : P)
    (serviceName : String) (pool : IOThreadPoolConnManager E P) : PoolSending A E P D :=
  { w with
    pool
    connections := { number := w.connections.length, conn, evb, connId, pipeline, serviceName,
                     since := (w.loops.ran evb).length } :: w.connections }

/-- The state after a function of a thread called the manager `v`. -/
def taskRan (w : PoolSending A E P D) (thread : A) (task : PoolTask E D)
    (v : IOThreadConnManager E P) (loops : EventLoops E A (PoolTask E D)) :
    PoolSending A E P D :=
  { w with
    loops
    written := w.written ++ (task.call v).map fun out =>
      { thread, conn := task.conn, connId := out.1, pipeline := out.2.1, data := out.2.2 } }

section Step

variable [DecidableEq A] [DecidableEq E] [DecidableEq P]

def step (w : PoolSending A E P D) : PoolEvent A E P D → Option (PoolSending A E P D)
  | .onNewConnection pipeline eventBase serviceName => do
    let (connId, pool) ← w.pool.onNewConnection pipeline eventBase serviceName
    -- the id of a pipeline on another event base names no connection of the pool
    match w.pool.findThread eventBase with
    | some (conn, _) => return w.opened conn eventBase connId pipeline serviceName pool
    | none => return { w with pool }
  | .onServerRegister pipeline eventBase serverName serverNumber =>
    some { w with pool := w.pool.onServerRegister pipeline eventBase serverName serverNumber }
  | .onConnectionClosed number => do
    let c ← w.connections.find? fun c => c.number = number
    let (_, pool) ← w.pool.onConnectionClosed c.connId c.pipeline c.serviceName
    return { w with pool, closed := number :: w.closed }
  | .dispatchIOBufByConnID thread connId data =>
    if (w.todo thread).isEmpty ∧ w.connections.any fun c => c.connId = connId then do
      let (_, task) ← w.pool.dispatchIOBufByConnID connId data
      return { w with
        sent := w.sent ++ [(thread, .dispatch connId data)]
        loops := w.loops.post task.evb thread (.dispatch task) }
    else
      none
  | .broadCast thread data =>
    if (w.todo thread).isEmpty then do
      let (_, todo) ← w.pool.broadCast data
      return { w with
        sent := w.sent ++ [(thread, .broadCast data)]
        todo := Function.update w.todo thread todo }
    else
      none
  | .post thread =>
    match w.todo thread with
    | [] => none
    | (evb, task) :: todo =>
      some { w with
        todo := Function.update w.todo thread todo
        loops := w.loops.post evb thread (.broadCast task) }
  | .runTask evb thread => do
    let (task, loops) ← w.loops.take evb thread
    let v ← w.pool.threadConnManagers[task.conn]?
    return w.taskRan thread task v loops

/-- Fewer than `2^32 - 1` connections opened on each thread. -/
def Limited (_ : PoolSending A E P D) (_ : PoolEvent A E P D) (w' : PoolSending A E P D) : Prop :=
  ∀ c ∈ w'.connections, w'.openedOn c.conn < 2 ^ 32 - 1

instance (w : PoolSending A E P D) (e : PoolEvent A E P D) (w' : PoolSending A E P D) :
    Decidable (Limited w e w') :=
  inferInstanceAs (Decidable (∀ c ∈ w'.connections, _ < 2 ^ 32 - 1))

end Step

/-! ## The tables -/

/-- Managers, connections and ids agree. -/
structure Routed (evbs : List E) (w : PoolSending A E P D) : Prop where
  pool : w.pool.Of evbs
  evb : ∀ c ∈ w.connections, evbs[c.conn]? = some c.evb
  connId : ∀ c ∈ w.connections, c.connId = pair (UInt64.ofNat c.conn) (low c.connId)
  counter : ∀ i v, w.pool.threadConnManagers[i]? = some v → v.currentConnId.toNat = w.openedOn i
  key_le : ∀ c ∈ w.connections, (low c.connId).toNat ≤ w.openedOn c.conn
  key_inj : ∀ c ∈ w.connections, ∀ c' ∈ w.connections, c.conn = c'.conn →
    low c.connId = low c'.connId → c = c'
  number_lt : ∀ c ∈ w.connections, c.number < w.connections.length
  number_inj : ∀ c ∈ w.connections, ∀ c' ∈ w.connections, c.number = c'.number → c = c'
  closed_lt : ∀ n ∈ w.closed, n < w.connections.length
  table : ∀ i v, w.pool.threadConnManagers[i]? = some v → ∀ k p, v.pipelines.find k = some p ↔
    ∃ c ∈ w.connections, c.conn = i ∧ low c.connId = k ∧ c.number ∉ w.closed ∧ c.pipeline = p

variable {evbs : List E} {w w' : PoolSending A E P D}

theorem routed_init (evbs : List E) : (init evbs : PoolSending A E P D).Routed evbs := by
  have hempty : ∀ (i : ℕ) (v : IOThreadConnManager E P),
      (init evbs : PoolSending A E P D).pool.threadConnManagers[i]? = some v →
        v.currentConnId = 0 ∧ v.pipelines = ∅ := by
    intro i v hv
    simp only [init, IOThreadPoolConnManager.ofEventBases, List.getElem?_mapIdx,
      Option.map_eq_some_iff] at hv
    obtain ⟨evb, -, rfl⟩ := hv
    exact ⟨rfl, rfl⟩
  have hnone : ∀ c, c ∉ (init evbs : PoolSending A E P D).connections := fun _ => List.not_mem_nil
  refine ⟨IOThreadPoolConnManager.of_ofEventBases evbs, ?_, ?_, ?_, ?_, ?_, ?_, ?_, ?_, ?_⟩
  · exact fun c hc => absurd hc (hnone c)
  · exact fun c hc => absurd hc (hnone c)
  · intro i v hv
    rw [(hempty i v hv).1]
    rfl
  · exact fun c hc => absurd hc (hnone c)
  · exact fun c hc => absurd hc (hnone c)
  · exact fun c hc => absurd hc (hnone c)
  · exact fun c hc => absurd hc (hnone c)
  · exact fun n hn => absurd hn List.not_mem_nil
  · intro i v hv k p
    rw [(hempty i v hv).2, Table.find_empty]
    simp [init]

/-- The managers may change in what is not the counter and the table. -/
theorem Routed.of_same (hw : w.Routed evbs) {pool : IOThreadPoolConnManager E P} (hpool : pool.Of evbs)
    (hsame : ∀ (i : ℕ) (v' : IOThreadConnManager E P), pool.threadConnManagers[i]? = some v' →
      ∃ v, w.pool.threadConnManagers[i]? = some v ∧ v'.currentConnId = v.currentConnId ∧
        v'.pipelines = v.pipelines) : Routed evbs { w with pool } := by
  refine ⟨hpool, hw.evb, hw.connId, ?_, hw.key_le, hw.key_inj, hw.number_lt, hw.number_inj,
    hw.closed_lt, ?_⟩
  · intro i v' hv'
    obtain ⟨v, hv, hcounter, -⟩ := hsame i v' hv'
    rw [hcounter]
    exact hw.counter i v hv
  · intro i v' hv' k p
    obtain ⟨v, hv, -, htable⟩ := hsame i v' hv'
    rw [htable]
    exact hw.table i v hv k p

/-- The manager of a thread is replaced, the others stay. -/
theorem getElem?_set_cases {α : Type} {vs : List α} {i j : ℕ} {v v' : α}
    (h : (vs.set i v)[j]? = some v') : j = i ∧ v' = v ∨ j ≠ i ∧ vs[j]? = some v' := by
  by_cases hj : j = i
  · subst hj
    obtain ⟨hlt, rfl⟩ := List.getElem?_eq_some_iff.1 h
    exact .inl ⟨rfl, List.getElem_set_self hlt⟩
  · rw [List.getElem?_set_ne (Ne.symm hj)] at h
    exact .inr ⟨hj, h⟩

theorem Routed.onServerRegister [DecidableEq E] (hw : w.Routed evbs) (pipeline : P) (eventBase : E)
    (serverName : String) (serverNumber : UInt32) : Routed evbs
      { w with pool := w.pool.onServerRegister pipeline eventBase serverName serverNumber } := by
  refine hw.of_same (hw.pool.onServerRegister _ _ _ _) ?_
  intro i v' hv'
  unfold IOThreadPoolConnManager.onServerRegister at hv'
  split at hv'
  · next j conn hfind =>
    rcases getElem?_set_cases hv' with ⟨rfl, rfl⟩ | ⟨-, hv⟩
    · exact ⟨conn, IOThreadPoolConnManager.findThread_eq_some hfind, rfl, rfl⟩
    · exact ⟨v', hv, rfl, rfl⟩
  · exact ⟨v', hv', rfl, rfl⟩

/-! ## Opening -/

theorem openedOn_opened (w : PoolSending A E P D) (conn : ℕ) (evb : E) (connId : UInt64) (pipeline : P)
    (serviceName : String) (pool : IOThreadPoolConnManager E P) (i : ℕ) :
    (w.opened conn evb connId pipeline serviceName pool).openedOn i =
      if i = conn then w.openedOn conn + 1 else w.openedOn i := by
  by_cases h : i = conn
  · subst h
    simp [openedOn, opened]
  · simp [openedOn, opened, h, Ne.symm h]

theorem nextKey_toNat {i : ℕ} (hfew : w.openedOn i + 1 < 2 ^ 32 - 1) :
    (UInt32.ofNat (w.openedOn i + 1)).toNat = w.openedOn i + 1 :=
  UInt32.toNat_ofNat_of_lt' (Nat.lt_of_lt_of_le hfew (by decide))

/-- The next key of a thread is above the keys issued on it before. -/
theorem Routed.key_fresh (hw : w.Routed evbs) {i : ℕ} (hfew : w.openedOn i + 1 < 2 ^ 32 - 1) :
    ∀ c ∈ w.connections, c.conn = i → low c.connId ≠ UInt32.ofNat (w.openedOn i + 1) := by
  intro c hc hconn hlow
  have hle := hw.key_le c hc
  rw [hlow, nextKey_toNat hfew, hconn] at hle
  omega

/-- A connection opens under the next key of its thread. -/
theorem Routed.onNewConnection_eq (hw : w.Routed evbs) {i : ℕ} {v : IOThreadConnManager E P}
    (hv : w.pool.threadConnManagers[i]? = some v) (hfew : w.openedOn i + 1 < 2 ^ 32 - 1)
    (pipeline : P) (serviceName : String) :
    v.onNewConnection pipeline serviceName = some (UInt32.ofNat (w.openedOn i + 1),
      { v with
        currentConnId := UInt32.ofNat (w.openedOn i + 1)
        pipelines := v.pipelines.insert (UInt32.ofNat (w.openedOn i + 1)) pipeline
        servicePipelines := v.servicePipelines.add serviceName (UInt32.ofNat (w.openedOn i + 1)) }) := by
  have hnext : v.currentConnId + 1 = UInt32.ofNat (w.openedOn i + 1) := by
    rw [← hw.counter i v hv, UInt32.ofNat_add, UInt32.ofNat_toNat]
    rfl
  have hfree : UInt32.ofNat (w.openedOn i + 1) ∉ v.pipelines := by
    intro hmem
    obtain ⟨p, hp⟩ := Table.mem_iff.1 hmem
    obtain ⟨c, hc, hconn, hlow, -⟩ := (hw.table i v hv _ p).1 hp
    exact hw.key_fresh hfew c hc hconn hlow
  have hwrap : v.currentConnId.toNat + 1 < 2 ^ 32 := by
    rw [hw.counter i v hv]
    omega
  rw [IOThreadConnManager.onNewConnection_first v pipeline serviceName hwrap
    (by rw [hnext]; exact hfree), hnext]

/-- The new entry of the thread's table is the new connection, and the others are as before. -/
theorem Routed.opened (hw : w.Routed evbs) {i : ℕ} {v : IOThreadConnManager E P} {evb : E}
    (hv : w.pool.threadConnManagers[i]? = some v) (hevb : evbs[i]? = some evb)
    (hfew : w.openedOn i + 1 < 2 ^ 32 - 1) {pipeline : P} {serviceName : String} {lo : UInt32}
    {v' : IOThreadConnManager E P} (hnew : v.onNewConnection pipeline serviceName = some (lo, v')) :
    lo = UInt32.ofNat (w.openedOn i + 1) ∧
      Routed evbs (w.opened i evb (pair (UInt64.ofNat i) lo) pipeline serviceName
        { threadConnManagers := w.pool.threadConnManagers.set i v' }) := by
  have heq := hw.onNewConnection_eq hv hfew pipeline serviceName
  rw [hnew] at heq
  have hlo : lo = UInt32.ofNat (w.openedOn i + 1) := congrArg Prod.fst (Option.some.inj heq)
  have hv' : v' = { v with
      currentConnId := lo
      pipelines := v.pipelines.insert lo pipeline
      servicePipelines := v.servicePipelines.add serviceName lo } := by
    rw [hlo]
    exact congrArg Prod.snd (Option.some.inj heq)
  have hfresh := hw.key_fresh hfew
  have hkey := nextKey_toNat hfew
  rw [← hlo] at hfresh hkey
  refine ⟨hlo, hw.pool.set hv (by rw [hv']), ?_, ?_, ?_, ?_, ?_, ?_, ?_, ?_, ?_⟩
  · intro c hc
    rcases List.mem_cons.1 hc with rfl | hc
    · exact hevb
    · exact hw.evb c hc
  · intro c hc
    rcases List.mem_cons.1 hc with rfl | hc
    · rw [low_pair]
    · exact hw.connId c hc
  · intro j u hu
    rw [openedOn_opened]
    rcases getElem?_set_cases hu with ⟨rfl, rfl⟩ | ⟨hj, hu⟩
    · rw [if_pos rfl, hv']
      exact hkey
    · rw [if_neg hj]
      exact hw.counter j u hu
  · intro c hc
    rw [openedOn_opened]
    rcases List.mem_cons.1 hc with rfl | hc
    · rw [if_pos rfl, low_pair, hkey]
    · have hle := hw.key_le c hc
      split
      · next he =>
        rw [he] at hle
        exact Nat.le_succ_of_le hle
      · exact hle
  · intro c hc c' hc' hconn hlow
    rcases List.mem_cons.1 hc with rfl | hc <;> rcases List.mem_cons.1 hc' with rfl | hc'
    · rfl
    · rw [low_pair] at hlow
      exact absurd hlow.symm (hfresh c' hc' hconn.symm)
    · rw [low_pair] at hlow
      exact absurd hlow (hfresh c hc hconn)
    · exact hw.key_inj c hc c' hc' hconn hlow
  · intro c hc
    change c.number < w.connections.length + 1
    rcases List.mem_cons.1 hc with rfl | hc
    · exact Nat.lt_succ_self _
    · exact Nat.lt_succ_of_lt (hw.number_lt c hc)
  · intro c hc c' hc' he
    rcases List.mem_cons.1 hc with rfl | hc <;> rcases List.mem_cons.1 hc' with rfl | hc'
    · rfl
    · exact absurd he.symm (Nat.ne_of_lt (hw.number_lt c' hc'))
    · exact absurd he (Nat.ne_of_lt (hw.number_lt c hc))
    · exact hw.number_inj c hc c' hc' he
  · exact fun n hn => Nat.lt_succ_of_lt (hw.closed_lt n hn)
  · intro j u hu k p
    have hopen : w.connections.length ∉ w.closed := fun h => Nat.lt_irrefl _ (hw.closed_lt _ h)
    simp only [PoolSending.opened, List.exists_mem_cons_iff, low_pair]
    rcases getElem?_set_cases hu with ⟨rfl, rfl⟩ | ⟨hj, hu⟩
    · rw [hv', Table.find_insert, ← hw.table j v hv k p]
      split
      · next hk =>
        have hnone : v.pipelines.find k ≠ some p := by
          intro hp
          obtain ⟨c, hc, hconn, hlow, -⟩ := (hw.table j v hv k p).1 hp
          exact hfresh c hc hconn (hlow.trans hk)
        simp [hk.symm, hopen, hnone]
      · next hk => simp [Ne.symm hk]
    · rw [← hw.table j u hu k p]
      simp [Ne.symm hj]

/-! ## Closing -/

/-- The entry of the connection leaves its thread's table, and the others stay. -/
theorem Routed.closed [DecidableEq P] (hw : w.Routed evbs) (hlen : evbs.length ≤ 2 ^ 32)
    {c : PoolConnection E P} (hc : c ∈ w.connections) {rv : Bool} {pool : IOThreadPoolConnManager E P}
    (h : w.pool.onConnectionClosed c.connId c.pipeline c.serviceName = some (rv, pool)) :
    Routed evbs { w with pool, closed := c.number :: w.closed } := by
  have hpool := hw.pool.onConnectionClosed h
  have hlt : c.conn < 2 ^ 32 :=
    Nat.lt_of_lt_of_le (List.getElem?_eq_some_iff.1 (hw.evb c hc)).1 hlen
  have hhigh : (high c.connId).toNat = c.conn := by
    rw [hw.connId c hc, high_pair_ofNat_of_lt hlt]
  obtain ⟨v, hv, h⟩ := Option.bind_eq_some_iff.1 h
  obtain ⟨⟨rv', v'⟩, hclose, hr⟩ := Option.bind_eq_some_iff.1 h
  rw [IOThreadConnManager.onConnectionClosed_eq] at hclose
  cases hclose
  cases hr
  rw [hhigh] at hv
  simp only [hhigh]
  refine ⟨by simpa only [hhigh] using hpool, hw.evb, hw.connId, ?_, hw.key_le, hw.key_inj,
    hw.number_lt, hw.number_inj, ?_, ?_⟩
  · intro j u hu
    rcases getElem?_set_cases hu with ⟨rfl, rfl⟩ | ⟨-, hu⟩
    · exact hw.counter c.conn v hv
    · exact hw.counter j u hu
  · intro n hn
    rcases List.mem_cons.1 hn with rfl | hn
    · exact hw.number_lt c hc
    · exact hw.closed_lt n hn
  · intro j u hu k p
    have hclosed : ∀ c' ∈ w.connections, c'.number ∉ c.number :: w.closed ↔
        c' ≠ c ∧ c'.number ∉ w.closed := by
      intro c' hc'
      rw [List.mem_cons, not_or]
      have hnum : c'.number = c.number ↔ c' = c :=
        ⟨hw.number_inj c' hc' c hc, fun h => by rw [h]⟩
      rw [hnum]
    have hothers : ¬(j = c.conn ∧ k = low c.connId) →
        ((∃ c' ∈ w.connections, c'.conn = j ∧ low c'.connId = k ∧ c'.number ∉ w.closed ∧
          c'.pipeline = p) ↔ ∃ c' ∈ w.connections, c'.conn = j ∧ low c'.connId = k ∧
            c'.number ∉ c.number :: w.closed ∧ c'.pipeline = p) := by
      intro hne
      refine exists_congr fun c' => and_congr_right fun hc' => and_congr_right fun hconn =>
        and_congr_right fun hlow => and_congr_left fun _ => ?_
      rw [hclosed c' hc']
      refine (and_iff_right ?_).symm
      rintro rfl
      exact hne ⟨hconn.symm, hlow.symm⟩
    rcases getElem?_set_cases hu with ⟨rfl, rfl⟩ | ⟨hj, hu⟩
    · dsimp only
      rw [Table.find_erase]
      split
      · next hk =>
        refine iff_of_false (by simp) ?_
        rintro ⟨c', hc', hconn, hlow, hopen, -⟩
        exact ((hclosed c' hc').1 hopen).1 (hw.key_inj c' hc' c hc hconn (hlow.trans hk))
      · next hk => rw [hw.table c.conn v hv k p, hothers fun h => hk h.2]
    · rw [hw.table j u hu k p, hothers fun h => hj h.1]

/-! ## Writing -/

/-- The table of the thread has the connection while it is open. -/
theorem Routed.find_eq (hw : w.Routed evbs) {c : PoolConnection E P} (hc : c ∈ w.connections)
    {v : IOThreadConnManager E P} (hv : w.pool.threadConnManagers[c.conn]? = some v) :
    v.pipelines.find (low c.connId) = if c.number ∈ w.closed then none else some c.pipeline := by
  split
  · next hclosed =>
    cases hp : v.pipelines.find (low c.connId) with
    | none => rfl
    | some p =>
      obtain ⟨c', hc', hconn, hlow, hopen, -⟩ := (hw.table c.conn v hv _ p).1 hp
      rw [hw.key_inj c' hc' c hc hconn hlow] at hopen
      exact absurd hclosed hopen
  · next hopen => exact (hw.table c.conn v hv _ _).2 ⟨c, hc, rfl, rfl, hopen, rfl⟩

/-- On its thread a dispatch is for the connection whose key it has. -/
theorem Routed.isFor_dispatch (hw : w.Routed evbs) {c : PoolConnection E P} (hc : c ∈ w.connections)
    {task : ConnDispatchTask E D} (hconn : task.conn = c.conn) :
    (PoolTask.dispatch task).message.isFor c.connId = true ↔ low c.connId = task.connId := by
  rw [PoolTask.message, PoolMessage.isFor, decide_eq_true_iff, hconn]
  constructor
  · intro h
    rw [← h, low_pair]
  · intro h
    rw [← h]
    exact (hw.connId c hc).symm

/-- What a function writes to a connection: the data of its message, if that is for the connection and
the connection is open. -/
theorem Routed.call_writes (hw : w.Routed evbs) {c : PoolConnection E P} (hc : c ∈ w.connections)
    {task : PoolTask E D} {v : IOThreadConnManager E P}
    (hv : w.pool.threadConnManagers[task.conn]? = some v) (hconn : task.conn = c.conn) :
    ((task.call v).filter fun out => out.1 = low c.connId).map Prod.snd =
      if task.message.isFor c.connId = true ∧ c.number ∉ w.closed then
        [(c.pipeline, task.message.data)]
      else [] := by
  rw [hconn] at hv
  have hfind := hw.find_eq hc hv
  cases task with
  | dispatch task =>
    have hfor := hw.isFor_dispatch hc hconn
    rw [PoolTask.call, IOThreadConnManager.dispatchIOBufByConnID]
    by_cases hk : low c.connId = task.connId
    · by_cases hclosed : c.number ∈ w.closed
      · rw [if_pos hclosed] at hfind
        rw [← hk, hfind, if_neg fun h => h.2 hclosed]
        rfl
      · rw [if_neg hclosed] at hfind
        rw [← hk, hfind, if_pos ⟨hfor.2 hk, hclosed⟩]
        simp [PoolTask.message, PoolMessage.data]
    · have hnot : (PoolTask.dispatch task).message.isFor c.connId ≠ true := fun h => hk (hfor.1 h)
      rw [if_neg fun h => hnot h.1, List.map_eq_nil_iff, List.filter_eq_nil_iff]
      intro out hout
      obtain ⟨out', -, rfl⟩ := List.mem_map.1 hout
      simpa using Ne.symm hk
  | broadCast task =>
    simp only [PoolTask.call, IOThreadConnManager.broadCast, List.filter_map, Function.comp_def,
      List.map_map, Table.filter_ascending, hfind]
    by_cases hclosed : c.number ∈ w.closed
    · simp [hclosed]
    · simp [hclosed, PoolTask.message, PoolMessage.isFor, PoolMessage.data]

/-- All that a function writes goes to connections. -/
theorem Routed.call_connection (hw : w.Routed evbs) {task : PoolTask E D} {v : IOThreadConnManager E P}
    (hv : w.pool.threadConnManagers[task.conn]? = some v) {out : UInt32 × P × D}
    (hout : out ∈ task.call v) :
    ∃ c ∈ w.connections, c.conn = task.conn ∧ low c.connId = out.1 ∧ c.pipeline = out.2.1 := by
  have hfind : v.pipelines.find out.1 = some out.2.1 := by
    cases task with
    | dispatch task =>
      obtain ⟨out', hout', rfl⟩ := List.mem_map.1 hout
      unfold IOThreadConnManager.dispatchIOBufByConnID at hout'
      split at hout'
      · next pipeline hp =>
        obtain rfl := List.mem_singleton.1 hout'
        exact hp
      · cases hout'
    | broadCast task =>
      obtain ⟨it, hit, rfl⟩ := List.mem_map.1 hout
      exact Table.mem_ascending.1 hit
  obtain ⟨c, hc, hconn, hlow, -, hp⟩ := (hw.table task.conn v hv _ _).1 hfind
  exact ⟨c, hc, hconn, hlow, hp⟩

end PoolSending

end ServiceFramework.Net
