import ServiceFramework.Lib.EventLoop
import ServiceFramework.Lib.OrderedTable
import ServiceFramework.Net.IOThreadPoolConnManager

/-!
# Broadcasts over the threads of a pool

`IOThreadPoolConnManager::BroadCast` (`net/io_thread_pool_manager.cc`) passes one function to the
event base of each thread, one thread after the other, and each function writes to the connections
that its thread's table has when it runs. Meanwhile connections open and close on every thread, and
other callers broadcast.

A broadcast writes at most once to a connection, and what it writes on a thread is decided at the
moment its function runs there (`broadcast_once`). The threads do not agree on the order of two
broadcasts that are under way at once; the connections of one thread do. A broadcast that returned
before the same caller made another comes first everywhere (`broadcast_order`): `runInEventBaseThread`
keeps the order of the functions that one thread passes to an event base, and promises none between
those of different threads.

No pipeline closes inside a write of `IOThreadConnManager::BroadCast`, whose loop goes over the map
that `OnConnectionClosed` erases from.
-/

namespace ServiceFramework.Net

open Transition

/-! ## The two functions -/

namespace IOThreadConnManager

variable {E P D : Type}

/-- `BroadCast`: its result, and the pipelines written to, each with its id. -/
def broadCast (m : IOThreadConnManager E P) (data : D) : Bool × List (UInt32 × P × D) :=
  (true, m.pipelines.ascending.map fun it => (it.1, it.2, data))

end IOThreadConnManager

/-- A function that `BroadCast` passes to an event base: the index of the manager it keeps, and the
data. -/
structure BroadCastTask (D : Type) where
  conn : ℕ
  data : D

namespace IOThreadPoolConnManager

variable {E P D : Type}

/-- `BroadCast`: its result and what it passes to the event bases, in the order of its loop; `none`
if an event base is null. -/
def broadCast (m : IOThreadPoolConnManager E P) (data : D) :
    Option (Bool × List (E × BroadCastTask D)) := do
  let tasks ← go data 0 m.threadConnManagers
  return (true, tasks)
where
  go (data : D) : ℕ → List (IOThreadConnManager E P) → Option (List (E × BroadCastTask D))
    | _, [] => some []
    | conn, v :: vs => do
      let evb ← v.eventBase
      let tasks ← go data (conn + 1) vs
      return (evb, { conn, data }) :: tasks

/-- The functions of a broadcast, one for each event base. -/
def tasksOf (evbs : List E) (data : D) : List (E × BroadCastTask D) :=
  evbs.mapIdx fun conn evb => (evb, { conn, data })

theorem Of.broadCast_eq {m : IOThreadPoolConnManager E P} {evbs : List E} (hm : m.Of evbs)
    (data : D) : m.broadCast data = some (true, tasksOf evbs data) := by
  have hgo : ∀ (vs : List (IOThreadConnManager E P)) (evbs : List E) (conn : ℕ),
      vs.map IOThreadConnManager.eventBase = evbs.map some →
        broadCast.go data conn vs =
          some (evbs.mapIdx fun i evb => (evb, { conn := conn + i, data })) := by
    intro vs
    induction vs with
    | nil =>
      intro evbs conn h
      cases List.map_eq_nil_iff.1 h.symm
      rfl
    | cons v vs ih =>
      intro evbs conn h
      cases evbs with
      | nil => cases h
      | cons evb evbs =>
        obtain ⟨hv, hvs⟩ := List.cons.inj h
        rw [broadCast.go, hv, ih evbs (conn + 1) hvs]
        simp [List.mapIdx_cons, Nat.add_assoc, Nat.add_comm 1]
  unfold broadCast
  rw [hgo _ evbs 0 hm]
  simp [tasksOf]

/-- The pipeline under an id in the table of the thread `i`. -/
def pipelineAt (m : IOThreadPoolConnManager E P) (i : ℕ) (connId : UInt32) : Option P :=
  m.threadConnManagers[i]?.bind fun conn => conn.findPipeline connId

theorem length_tasksOf (evbs : List E) (data : D) : (tasksOf evbs data).length = evbs.length :=
  List.length_mapIdx

theorem getElem?_tasksOf (evbs : List E) (data : D) (i : ℕ) :
    (tasksOf evbs data)[i]? = evbs[i]?.map fun evb => (evb, { conn := i, data }) :=
  List.getElem?_mapIdx

/-- A broadcast has one function for each thread. -/
theorem filter_tasksOf {evbs : List E} {i : ℕ} {evb : E} (h : evbs[i]? = some evb) (data : D) :
    (tasksOf evbs data).filter (fun x => x.2.conn = i) =
      [(evb, { conn := i, data })] := by
  induction evbs using List.reverseRecOn with
  | nil => cases h
  | append_singleton evbs last ih =>
    have hconcat : tasksOf (evbs ++ [last]) data =
        tasksOf evbs data ++ [(last, { conn := evbs.length, data })] :=
      List.mapIdx_concat
    rw [hconcat, List.filter_append]
    by_cases hi : i < evbs.length
    · rw [List.getElem?_append_left hi] at h
      rw [ih h, List.filter_cons_of_neg]
      · rfl
      · simpa using (Nat.ne_of_lt hi).symm
    · have hlen : i = evbs.length := by
        have := (List.getElem?_eq_some_iff.1 h).1
        rw [List.length_append, List.length_singleton] at this
        omega
      subst hlen
      have hnone : (tasksOf evbs data).filter
          (fun x => x.2.conn = evbs.length) = [] := by
        refine List.filter_eq_nil_iff.2 fun x hx => ?_
        obtain ⟨j, hj, rfl⟩ := List.mem_mapIdx.1 hx
        simpa using Nat.ne_of_lt hj
      rw [List.getElem?_concat_length] at h
      cases h
      rw [hnone]
      simp

end IOThreadPoolConnManager

/-! ## Broadcasts under way -/

/-- A call of `BroadCast`: the thread that made it, the data, and what its loop has still to pass to an
event base. -/
structure BroadCastCall (E A D : Type) where
  caller : A
  data : D
  todo : List (E × BroadCastTask D)

/-- What a pipeline was given: the number of the call, the thread, and the id under which the
pipeline was in the table. -/
structure BroadCastWrite (P D : Type) where
  call : ℕ
  conn : ℕ
  connId : UInt32
  pipeline : P
  data : D

/-- A manager, the calls of `BroadCast` made so far, the event loops of its threads with the
functions that were passed to them, each with the number of its call, and the writes. An event base
has a queue for the functions of each thread. -/
structure BroadCasting (E A P D : Type) where
  pool : IOThreadPoolConnManager E P
  calls : List (BroadCastCall E A D) := []
  loops : EventLoops E A (ℕ × BroadCastTask D) := {}
  written : List (BroadCastWrite P D) := []

/-- A connection opens, registers or closes on its thread, some thread makes a call, the loop of a
call goes round once, an event base runs the first function of one of its queues. -/
inductive BroadCastEvent (E A P D : Type) where
  | onNewConnection (pipeline : P) (eventBase : E) (serviceName : String)
  | onServerRegister (pipeline : P) (eventBase : E) (serverName : String) (serverNumber : UInt32)
  | onConnectionClosed (connId : UInt64) (pipeline : P) (serviceName : String)
  | broadCast (caller : A) (data : D)
  | post (call : ℕ)
  | runTask (evb : E) (thread : A)

namespace BroadCasting

variable {E A P D : Type}

def init (evbs : List E) : BroadCasting E A P D where
  pool := .ofEventBases evbs

/-- The function of a call ran on the manager `v` of its thread. -/
def taskRan (w : BroadCasting E A P D) (call : ℕ) (task : BroadCastTask D)
    (v : IOThreadConnManager E P) (loops : EventLoops E A (ℕ × BroadCastTask D)) :
    BroadCasting E A P D :=
  { w with
    loops
    written := w.written ++ (v.broadCast task.data).2.map fun out =>
      { call, conn := task.conn, connId := out.1, pipeline := out.2.1, data := out.2.2 } }

section Step

variable [DecidableEq E] [DecidableEq A] [DecidableEq P]

def step (w : BroadCasting E A P D) : BroadCastEvent E A P D → Option (BroadCasting E A P D)
  | .onNewConnection pipeline eventBase serviceName => do
    let (_, pool) ← w.pool.onNewConnection pipeline eventBase serviceName
    return { w with pool }
  | .onServerRegister pipeline eventBase serverName serverNumber =>
    some { w with pool := w.pool.onServerRegister pipeline eventBase serverName serverNumber }
  | .onConnectionClosed connId pipeline serviceName => do
    let (_, pool) ← w.pool.onConnectionClosed connId pipeline serviceName
    return { w with pool }
  | .broadCast caller data => do
    let (_, todo) ← w.pool.broadCast data
    return { w with calls := w.calls ++ [{ caller, data, todo }] }
  | .post call => do
    let c ← w.calls[call]?
    match c.todo with
    | [] => none
    | (evb, task) :: todo =>
      return { w with
        calls := w.calls.set call { c with todo }
        loops := w.loops.post evb c.caller (call, task) }
  | .runTask evb thread => do
    let ((call, task), loops) ← w.loops.take evb thread
    let v ← w.pool.threadConnManagers[task.conn]?
    return w.taskRan call task v loops

end Step

/-- The writes to the connection of an id on a thread. -/
def writesTo (w : BroadCasting E A P D) (conn : ℕ) (connId : UInt32) : List (BroadCastWrite P D) :=
  w.written.filter fun x => x.conn = conn ∧ x.connId = connId

/-- Those of one call. -/
def writes (w : BroadCasting E A P D) (call conn : ℕ) (connId : UInt32) : List (BroadCastWrite P D) :=
  (w.writesTo conn connId).filter fun x => x.call = call

/-- The calls whose data was written to the connection of an id on a thread, in order. -/
def received (w : BroadCasting E A P D) (conn : ℕ) (connId : UInt32) : List ℕ :=
  (w.writesTo conn connId).map BroadCastWrite.call

/-- The function of a call was passed to an event base. -/
def Posted [DecidableEq A] (w : BroadCasting E A P D) (call : ℕ) (evb : E) : Prop :=
  ∃ thread, call ∈ (w.loops.posted evb thread).map Prod.fst

/-- The function of a call ran on an event base. -/
def Ran (w : BroadCasting E A P D) (call : ℕ) (evb : E) : Prop :=
  call ∈ (w.loops.ran evb).map fun x => x.2.1

instance [DecidableEq E] (w : BroadCasting E A P D) (call : ℕ) (evb : E) :
    Decidable (w.Ran call evb) :=
  inferInstanceAs (Decidable (call ∈ _))

/-! ## What a step does to the calls -/

/-- The function of a call on a thread was passed to its event base once the loop of the call was
there, and only once. -/
structure Sent [DecidableEq E] [DecidableEq A] (evbs : List E) (w : BroadCasting E A P D) : Prop where
  pool : w.pool.Of evbs
  task : ∀ evb thread, ∀ t ∈ w.loops.posted evb thread, ∃ c i, w.calls[t.1]? = some c ∧
    evbs[i]? = some evb ∧ thread = c.caller ∧ t.2 = { conn := i, data := c.data }
  once : ∀ evb thread, ((w.loops.posted evb thread).map Prod.fst).Nodup
  call : ∀ n c, w.calls[n]? = some c → ∃ k,
    c.todo = (IOThreadPoolConnManager.tasksOf evbs c.data).drop k ∧
      ∀ i evb, evbs[i]? = some evb → (w.Posted n evb ↔ i < k)

section Cases

variable [DecidableEq E] [DecidableEq A] [DecidableEq P] {evbs : List E} {w w' : BroadCasting E A P D}

omit [DecidableEq P] in
theorem sent_init (evbs : List E) : (init evbs : BroadCasting E A P D).Sent evbs where
  pool := IOThreadPoolConnManager.of_ofEventBases evbs
  task _ _ t ht := by cases ht
  once _ _ := List.nodup_nil
  call n c h := by cases h

omit [DecidableEq P] in
/-- A function that is passed to an event base is that of a call that was made. -/
theorem Sent.posted_lt (hw : w.Sent evbs) {n : ℕ} {evb : E} (h : w.Posted n evb) :
    n < w.calls.length := by
  obtain ⟨thread, h⟩ := h
  obtain ⟨t, ht, rfl⟩ := List.mem_map.1 h
  obtain ⟨c, -, hc, -⟩ := hw.task evb thread t ht
  exact (List.getElem?_eq_some_iff.1 hc).1

omit [DecidableEq E] [DecidableEq P] in
theorem Ran.posted {n : ℕ} {evb : E} (h : w.Ran n evb) : w.Posted n evb := by
  obtain ⟨x, hx, rfl⟩ := List.mem_map.1 h
  exact ⟨x.1, List.mem_map_of_mem (EventLoops.mem_posted_of_ran hx)⟩

omit [DecidableEq P] in
/-- The functions of one call are in one queue of an event base. -/
theorem Sent.caller_eq (hw : w.Sent evbs) {n : ℕ} {c : BroadCastCall E A D} (hc : w.calls[n]? = some c)
    {evb : E} {thread : A} (h : n ∈ (w.loops.posted evb thread).map Prod.fst) : thread = c.caller := by
  obtain ⟨t, ht, rfl⟩ := List.mem_map.1 h
  obtain ⟨c', -, hc', -, hcaller, -⟩ := hw.task evb thread t ht
  cases Option.some.inj (hc.symm.trans hc')
  exact hcaller

omit [DecidableEq P] in
/-- No call ran twice on an event base. -/
theorem Sent.nodup_ran (hw : w.Sent evbs) (evb : E) :
    ((w.loops.ran evb).map fun x => x.2.1).Nodup := by
  refine EventLoops.nodup_ran Prod.fst (hw.once evb) ?_
  intro thread thread' t ht t' ht' he
  obtain ⟨c, -, hc, -, hcaller, -⟩ := hw.task evb thread t ht
  rw [hcaller]
  exact (hw.caller_eq (he ▸ hc) (List.mem_map_of_mem ht')).symm

/-- All that an event can do. -/
theorem Sent.step_cases (hw : w.Sent evbs) {e : BroadCastEvent E A P D} (h : step w e = some w') :
    (∃ pool, pool.Of evbs ∧ w' = { w with pool }) ∨
    (∃ caller data, e = .broadCast caller data ∧
      w' = { w with calls := w.calls ++
        [{ caller, data, todo := IOThreadPoolConnManager.tasksOf evbs data }] }) ∨
    (∃ n c k evb, e = .post n ∧ w.calls[n]? = some c ∧ evbs[k]? = some evb ∧
      (∀ i evb, evbs[i]? = some evb → (w.Posted n evb ↔ i < k)) ∧
      w' = { w with
        calls := w.calls.set n
          { c with todo := (IOThreadPoolConnManager.tasksOf evbs c.data).drop (k + 1) }
        loops := w.loops.post evb c.caller (n, { conn := k, data := c.data }) }) ∨
    (∃ evb n c i v loops, e = .runTask evb c.caller ∧ w.calls[n]? = some c ∧
      evbs[i]? = some evb ∧ w.pool.threadConnManagers[i]? = some v ∧
      w.loops.take evb c.caller = some ((n, { conn := i, data := c.data }), loops) ∧
      w' = w.taskRan n { conn := i, data := c.data } v loops) := by
  cases e with
  | onNewConnection pipeline eventBase serviceName =>
    obtain ⟨⟨id, pool⟩, hp, hr⟩ := Option.bind_eq_some_iff.1 h
    cases hr
    exact .inl ⟨pool, hw.pool.onNewConnection hp, rfl⟩
  | onServerRegister pipeline eventBase serverName serverNumber =>
    cases h
    exact .inl ⟨_, hw.pool.onServerRegister _ _ _ _, rfl⟩
  | onConnectionClosed connId pipeline serviceName =>
    obtain ⟨⟨rv, pool⟩, hp, hr⟩ := Option.bind_eq_some_iff.1 h
    cases hr
    exact .inl ⟨pool, hw.pool.onConnectionClosed hp, rfl⟩
  | broadCast caller data =>
    rw [step, hw.pool.broadCast_eq] at h
    cases h
    exact .inr (.inl ⟨caller, data, rfl, rfl⟩)
  | post n =>
    obtain ⟨c, hc, hr⟩ := Option.bind_eq_some_iff.1 h
    obtain ⟨k, htodo, hposted⟩ := hw.call n c hc
    refine .inr (.inr (.inl ⟨n, c, k, ?_⟩))
    cases hk : evbs[k]? with
    | none =>
      have hnil : c.todo = [] := by
        rw [htodo, List.drop_eq_nil_iff, IOThreadPoolConnManager.length_tasksOf]
        exact List.getElem?_eq_none_iff.1 hk
      rw [hnil] at hr
      cases hr
    | some evb =>
      have hlt : k < (IOThreadPoolConnManager.tasksOf evbs c.data).length := by
        rw [IOThreadPoolConnManager.length_tasksOf]
        exact (List.getElem?_eq_some_iff.1 hk).1
      have htask := IOThreadPoolConnManager.getElem?_tasksOf evbs c.data k
      rw [hk, List.getElem?_eq_getElem hlt] at htask
      rw [htodo, List.drop_eq_getElem_cons hlt, Option.some.inj htask] at hr
      cases hr
      exact ⟨evb, rfl, hc, rfl, hposted, rfl⟩
  | runTask evb thread =>
    obtain ⟨⟨⟨n, task⟩, loops⟩, htake, hr⟩ := Option.bind_eq_some_iff.1 h
    obtain ⟨v, hv, hr⟩ := Option.bind_eq_some_iff.1 hr
    obtain ⟨c, i, hc, hi, rfl, rfl⟩ := hw.task evb thread _ (EventLoops.mem_posted_of_take htake)
    cases hr
    exact .inr (.inr (.inr ⟨evb, n, c, i, v, loops, rfl, hc, hi, hv, htake, rfl⟩))

omit [DecidableEq E] [DecidableEq A] [DecidableEq P] in
/-- The calls keep their caller and their data. -/
theorem getElem?_set_todo {calls : List (BroadCastCall E A D)} {n : ℕ} {c : BroadCastCall E A D}
    (hc : calls[n]? = some c) (todo : List (E × BroadCastTask D)) {m : ℕ} {c₁ : BroadCastCall E A D}
    (h : calls[m]? = some c₁) :
    ∃ c₂, (calls.set n { c with todo })[m]? = some c₂ ∧ c₂.caller = c₁.caller ∧
      c₂.data = c₁.data := by
  by_cases hn : m = n
  · subst hn
    cases Option.some.inj (hc.symm.trans h)
    exact ⟨_, List.getElem?_set_self (List.getElem?_eq_some_iff.1 hc).1, rfl, rfl⟩
  · exact ⟨c₁, by rw [List.getElem?_set_ne (Ne.symm hn)]; exact h, rfl, rfl⟩

omit [DecidableEq P] in
/-- A call is posted to an event base by the functions already there and the new one. -/
theorem posted_post {n k : ℕ} {c : BroadCastCall E A D} {evb : E} {calls : List (BroadCastCall E A D)}
    (m : ℕ) (evb' : E) :
    Posted { w with
      calls
      loops := w.loops.post evb c.caller (n, { conn := k, data := c.data }) } m evb' ↔
        w.Posted m evb' ∨ evb' = evb ∧ m = n := by
  unfold Posted
  simp only [EventLoops.posted_post]
  constructor
  · rintro ⟨thread, h⟩
    split at h
    · next he =>
      obtain ⟨rfl, rfl⟩ := he
      rw [List.map_append, List.mem_append] at h
      rcases h with h | h
      · exact .inl ⟨_, h⟩
      · exact .inr ⟨rfl, List.mem_singleton.1 h⟩
    · exact .inl ⟨thread, h⟩
  · rintro (⟨thread, h⟩ | ⟨rfl, rfl⟩)
    · refine ⟨thread, ?_⟩
      split
      · next he =>
        obtain ⟨rfl, rfl⟩ := he
        rw [List.map_append]
        exact List.mem_append_left _ h
      · exact h
    · refine ⟨c.caller, ?_⟩
      rw [if_pos ⟨rfl, rfl⟩, List.map_append]
      exact List.mem_append_right _ (List.mem_singleton_self _)

omit [DecidableEq P] in
/-- The loop of a call passes its function to the next event base. -/
theorem Sent.post (hw : w.Sent evbs) (hnodup : evbs.Nodup) {n k : ℕ} {c : BroadCastCall E A D} {evb : E}
    (hc : w.calls[n]? = some c) (hk : evbs[k]? = some evb)
    (hposted : ∀ i evb, evbs[i]? = some evb → (w.Posted n evb ↔ i < k)) :
    Sent evbs { w with
      calls := w.calls.set n
        { c with todo := (IOThreadPoolConnManager.tasksOf evbs c.data).drop (k + 1) }
      loops := w.loops.post evb c.caller (n, { conn := k, data := c.data }) } := by
  have hnew : ¬w.Posted n evb := fun h => absurd ((hposted k evb hk).1 h) (Nat.lt_irrefl k)
  have hlt : n < w.calls.length := (List.getElem?_eq_some_iff.1 hc).1
  refine ⟨hw.pool, ?_, ?_, ?_⟩
  · intro evb' thread t ht
    obtain ht | ⟨rfl, rfl, rfl⟩ := EventLoops.mem_posted_post ht
    · obtain ⟨c₁, i, hc₁, hi, hthread, he⟩ := hw.task evb' thread t ht
      obtain ⟨c₂, hc₂, hcaller, hdata⟩ := getElem?_set_todo hc _ hc₁
      exact ⟨c₂, i, hc₂, hi, hthread.trans hcaller.symm, by rw [he, hdata]⟩
    · exact ⟨_, k, List.getElem?_set_self hlt, hk, rfl, rfl⟩
  · intro evb' thread
    rw [EventLoops.posted_post]
    split
    · next he =>
      obtain ⟨rfl, rfl⟩ := he
      rw [List.map_append, List.nodup_append]
      refine ⟨hw.once evb' _, List.nodup_singleton _, ?_⟩
      rintro m hm _ hm' rfl
      cases List.mem_singleton.1 hm'
      exact hnew ⟨_, hm⟩
    · exact hw.once evb' thread
  · intro m c' hc'
    by_cases hm : m = n
    · subst hm
      rw [List.getElem?_set_self hlt] at hc'
      cases hc'
      refine ⟨k + 1, rfl, ?_⟩
      intro i evb' hi
      have hik : evb' = evb ↔ i = k := by
        constructor
        · rintro rfl
          exact (List.getElem?_inj (List.getElem?_eq_some_iff.1 hi).1 hnodup).1 (hi.trans hk.symm)
        · rintro rfl
          exact Option.some.inj (hi.symm.trans hk)
      refine (posted_post m evb').trans ?_
      rw [hposted i evb' hi, hik]
      omega
    · rw [List.getElem?_set_ne (Ne.symm hm)] at hc'
      obtain ⟨k', htodo, hposted'⟩ := hw.call m c' hc'
      refine ⟨k', htodo, ?_⟩
      intro i evb' hi
      refine (posted_post m evb').trans ?_
      simp [hposted' i evb' hi, hm]

theorem Sent.step (hw : w.Sent evbs) (hnodup : evbs.Nodup) {e : BroadCastEvent E A P D}
    (h : step w e = some w') : w'.Sent evbs := by
  rcases hw.step_cases h with ⟨pool, hpool, rfl⟩ | ⟨caller, data, rfl, rfl⟩ |
    ⟨n, c, k, evb, rfl, hc, hk, hposted, rfl⟩ | ⟨evb, n, c, i, v, loops, rfl, hc, hi, -, htake, rfl⟩
  · exact ⟨hpool, hw.task, hw.once, hw.call⟩
  · refine ⟨hw.pool, ?_, hw.once, ?_⟩
    · intro evb thread t ht
      obtain ⟨c, i, hc, hi⟩ := hw.task evb thread t ht
      exact ⟨c, i, by rw [List.getElem?_append_left (List.getElem?_eq_some_iff.1 hc).1]; exact hc, hi⟩
    · intro n c hc
      rcases Nat.lt_or_ge n w.calls.length with hn | hn
      · rw [List.getElem?_append_left hn] at hc
        exact hw.call n c hc
      · rw [List.getElem?_append_right hn] at hc
        obtain ⟨hn', rfl⟩ := List.getElem?_eq_some_iff.1 hc
        refine ⟨0, by simp, ?_⟩
        intro i evb _
        refine ⟨fun hposted => absurd (hw.posted_lt hposted) (by omega), nofun⟩
  · exact hw.post hnodup hc hk hposted
  · have hposted : loops.posted = w.loops.posted := EventLoops.posted_take htake
    refine ⟨hw.pool, ?_, ?_, ?_⟩
    · intro evb' thread t ht
      exact hw.task evb' thread t (by rw [← hposted]; exact ht)
    · intro evb' thread
      exact hposted ▸ hw.once evb' thread
    · intro m c' hc'
      obtain ⟨k, htodo, hiff⟩ := hw.call m c' hc'
      refine ⟨k, htodo, ?_⟩
      intro j evb' hj
      rw [← hiff j evb' hj, Posted, taskRan, hposted]
      rfl

/-! ## What a step writes -/

omit [DecidableEq E] [DecidableEq A] [DecidableEq P] in
/-- A function that ran wrote once to each connection its thread had in the table. -/
theorem writesTo_taskRan (w : BroadCasting E A P D) (n i : ℕ) (data : D)
    (v : IOThreadConnManager E P) (loops : EventLoops E A (ℕ × BroadCastTask D)) (j : ℕ)
    (id : UInt32) :
    (w.taskRan n { conn := i, data } v loops).writesTo j id = w.writesTo j id ++
      if j = i then (v.findPipeline id).toList.map fun pipeline =>
        { call := n, conn := i, connId := id, pipeline, data } else [] := by
  simp only [writesTo, taskRan, IOThreadConnManager.broadCast, List.map_map, List.filter_append,
    List.filter_map]
  congr 1
  by_cases hj : j = i
  · subst hj
    have hfilter : (v.pipelines.ascending.filter
        ((fun x : BroadCastWrite P D => decide (x.conn = j ∧ x.connId = id)) ∘
          ((fun out : UInt32 × P × D =>
            { call := n, conn := j, connId := out.1, pipeline := out.2.1, data := out.2.2 }) ∘
            fun it => (it.1, it.2, data)))) =
        v.pipelines.ascending.filter fun x => x.1 = id := by
      apply List.filter_congr
      simp
    rw [hfilter, Table.filter_ascending, if_pos rfl, List.map_map]
    rfl
  · simp [hj, Ne.symm hj, Function.comp_def]

/-- Where the data of a call is written, it is written once: no function of it ran there before. -/
structure Delivered [DecidableEq E] [DecidableEq A] (evbs : List E) (w : BroadCasting E A P D) : Prop where
  sent : w.Sent evbs
  received : ∀ i evb, evbs[i]? = some evb → ∀ id,
    (w.received i id).Sublist ((w.loops.ran evb).map fun x => x.2.1)
  outside : ∀ i, evbs.length ≤ i → ∀ id, w.received i id = []
  data : ∀ x ∈ w.written, ∃ c, w.calls[x.call]? = some c ∧ x.data = c.data

omit [DecidableEq P] in
theorem delivered_init (evbs : List E) : (init evbs : BroadCasting E A P D).Delivered evbs where
  sent := sent_init evbs
  received _ _ _ _ := List.nil_sublist _
  outside _ _ _ := rfl
  data x hx := by cases hx

omit [DecidableEq P] in
theorem received_taskRan (hnodup : evbs.Nodup) {n i : ℕ} {evb : E} {thread : A} {data : D}
    (hi : evbs[i]? = some evb) (v : IOThreadConnManager E P)
    {loops : EventLoops E A (ℕ × BroadCastTask D)}
    (htake : w.loops.take evb thread = some ((n, { conn := i, data }), loops))
    (hold : ∀ i evb, evbs[i]? = some evb → ∀ id,
      (w.received i id).Sublist ((w.loops.ran evb).map fun x => x.2.1))
    {j : ℕ} {evb' : E} (hj : evbs[j]? = some evb') (id : UInt32) :
    ((w.taskRan n { conn := i, data } v loops).received j id).Sublist
      ((loops.ran evb').map fun x => x.2.1) := by
  rw [received, writesTo_taskRan, EventLoops.ran_take htake, List.map_append]
  by_cases he : j = i
  · subst he
    cases Option.some.inj (hi.symm.trans hj)
    rw [if_pos rfl, if_pos rfl, List.map_append]
    refine (hold j evb hj id).append ?_
    cases v.findPipeline id with
    | none => exact List.nil_sublist _
    | some p => exact List.Sublist.refl _
  · have hne : evb' ≠ evb := by
      rintro rfl
      exact he ((List.getElem?_inj (List.getElem?_eq_some_iff.1 hj).1 hnodup).1 (hj.trans hi.symm))
    rw [if_neg he, if_neg hne, List.map_nil, List.append_nil]
    exact hold j evb' hj id

theorem Delivered.step (hw : w.Delivered evbs) (hnodup : evbs.Nodup) {e : BroadCastEvent E A P D}
    (h : step w e = some w') : w'.Delivered evbs := by
  have hsent := hw.sent.step hnodup h
  rcases hw.sent.step_cases h with ⟨pool, hpool, rfl⟩ | ⟨caller, data, rfl, rfl⟩ |
    ⟨n, c, k, evb, rfl, hc, hk, hposted, rfl⟩ | ⟨evb, n, c, i, v, loops, rfl, hc, hi, -, htake, rfl⟩
  · exact ⟨hsent, hw.received, hw.outside, hw.data⟩
  · refine ⟨hsent, hw.received, hw.outside, ?_⟩
    intro x hx
    obtain ⟨c, hc, hdata⟩ := hw.data x hx
    exact ⟨c, by rw [List.getElem?_append_left (List.getElem?_eq_some_iff.1 hc).1]; exact hc, hdata⟩
  · refine ⟨hsent, hw.received, hw.outside, ?_⟩
    intro x hx
    obtain ⟨c₁, hc₁, hdata⟩ := hw.data x hx
    obtain ⟨c₂, hc₂, -, hdata₂⟩ := getElem?_set_todo hc _ hc₁
    exact ⟨c₂, hc₂, hdata.trans hdata₂.symm⟩
  · refine ⟨hsent, ?_, ?_, ?_⟩
    · intro j evb' hj id
      exact received_taskRan hnodup hi v htake hw.received hj id
    · intro j hj id
      have hji : j ≠ i := by
        have := (List.getElem?_eq_some_iff.1 hi).1
        omega
      rw [BroadCasting.received, writesTo_taskRan, if_neg hji, List.append_nil]
      exact hw.outside j hj id
    · intro x hx
      obtain hx | hx := List.mem_append.1 hx
      · exact hw.data x hx
      · simp only [IOThreadConnManager.broadCast, List.map_map, List.mem_map] at hx
        obtain ⟨it, -, rfl⟩ := hx
        exact ⟨c, hc, rfl⟩

/-! ## One broadcast -/

/-- A call that was made, with the given data. -/
structure Made [DecidableEq E] [DecidableEq A] (evbs : List E) (n : ℕ) (data : D)
    (w : BroadCasting E A P D) : Prop where
  delivered : w.Delivered evbs
  made : ∃ c, w.calls[n]? = some c ∧ c.data = data

/-- What is written for a call is its data, to the pipeline that the table of the thread has under
the id. -/
def WritesOpen (n : ℕ) (data : D) (w : BroadCasting E A P D) (_ : BroadCastEvent E A P D)
    (w' : BroadCasting E A P D) : Prop :=
  ∀ x ∈ w'.written, x.call = n →
    x ∈ w.written ∨ x.data = data ∧ w.pool.pipelineAt x.conn x.connId = some x.pipeline

/-- Until the function of the call ran on the thread `i`, the table of the thread has `o` under the
id. -/
def TableHas (n : ℕ) (evb : E) (i : ℕ) (id : UInt32) (o : Option P) (w : BroadCasting E A P D)
    (_ : BroadCastEvent E A P D) (_ : BroadCasting E A P D) : Prop :=
  ¬w.Ran n evb → w.pool.pipelineAt i id = o

instance (n : ℕ) (evb : E) (i : ℕ) (id : UInt32) (o : Option P) (w : BroadCasting E A P D)
    (e : BroadCastEvent E A P D) (w' : BroadCasting E A P D) :
    Decidable (TableHas n evb i id o w e w') :=
  inferInstanceAs (Decidable (¬_ → _ = _))

variable {n i : ℕ} {evb : E} {data : D}

omit [DecidableEq P] in
theorem Delivered.writes_le (hw : w.Delivered evbs) (n i : ℕ) (id : UInt32) :
    (w.writes n i id).length ≤ 1 := by
  have hnodup : (w.received i id).Nodup := by
    cases hi : evbs[i]? with
    | none =>
      rw [hw.outside i (List.getElem?_eq_none_iff.1 hi) id]
      exact List.nodup_nil
    | some evb => exact (hw.received i evb hi id).nodup (hw.sent.nodup_ran evb)
  have hcount := List.nodup_iff_count_le_one.1 hnodup n
  rw [BroadCasting.received, List.count, List.countP_map] at hcount
  rw [writes, ← List.countP_eq_length_filter]
  refine le_of_eq_of_le (List.countP_congr ?_) hcount
  simp

omit [DecidableEq P] in
theorem Delivered.writes_eq_nil (hw : w.Delivered evbs) (hi : evbs[i]? = some evb)
    (hran : ¬w.Ran n evb) (id : UInt32) : w.writes n i id = [] := by
  rw [writes, List.filter_eq_nil_iff]
  intro x hx hn
  have hmem : n ∈ w.received i id := List.mem_map.2 ⟨x, hx, of_decide_eq_true hn⟩
  exact hran ((hw.received i evb hi id).subset hmem)

/-- What was written on a thread is decided by the table of the thread when the function of the call
runs there. -/
theorem Made.writes_cases (hw : w.Made evbs n data) (hnodup : evbs.Nodup) {e : BroadCastEvent E A P D}
    (h : step w e = some w') (hi : evbs[i]? = some evb) (id : UInt32) :
    (w'.Ran n evb ↔ w.Ran n evb) ∧ w'.writes n i id = w.writes n i id ∨
    ¬w.Ran n evb ∧ w'.writes n i id = (w.pool.pipelineAt i id).toList.map fun pipeline =>
      { call := n, conn := i, connId := id, pipeline, data } := by
  obtain ⟨c₁, hc₁, rfl⟩ := hw.made
  have hsent := hw.delivered.sent.step hnodup h
  rcases hw.delivered.sent.step_cases h with ⟨pool, hpool, rfl⟩ | ⟨caller, data', rfl, rfl⟩ |
    ⟨m, c, k, evb', rfl, hc, hk, hposted, rfl⟩ | ⟨evb', m, c, j, v, loops, rfl, hc, hj, hv, htake, rfl⟩
  · exact .inl ⟨Iff.rfl, rfl⟩
  · exact .inl ⟨Iff.rfl, rfl⟩
  · exact .inl ⟨Iff.rfl, rfl⟩
  · have hran : Ran (w.taskRan m { conn := j, data := c.data } v loops) n evb ↔
        w.Ran n evb ∨ evb = evb' ∧ n = m := by
      unfold Ran
      rw [taskRan, EventLoops.ran_take htake]
      by_cases he : evb = evb'
      · simp [he]
      · simp [he]
    rw [hran, writes, writesTo_taskRan, List.filter_append]
    by_cases hji : i = j ∧ n = m
    · obtain ⟨rfl, rfl⟩ := hji
      cases Option.some.inj (hi.symm.trans hj)
      cases Option.some.inj (hc.symm.trans hc₁)
      have hnot : ¬w.Ran n evb := by
        have honce := hsent.nodup_ran evb
        rw [taskRan, EventLoops.ran_take htake, if_pos rfl, List.map_append, List.nodup_append] at honce
        exact fun hn => honce.2.2 n hn n List.mem_cons_self rfl
      refine .inr ⟨hnot, ?_⟩
      have hnil := hw.delivered.writes_eq_nil hi hnot id
      rw [writes] at hnil
      rw [hnil, if_pos rfl, IOThreadPoolConnManager.pipelineAt, hv, Option.bind_some]
      cases v.findPipeline id <;> simp
    · refine .inl ⟨?_, ?_⟩
      · refine or_iff_left ?_
        rintro ⟨rfl, rfl⟩
        exact hji ⟨(List.getElem?_inj (List.getElem?_eq_some_iff.1 hi).1 hnodup).1 (hi.trans hj.symm),
          rfl⟩
      · refine (congrArg (w.writes n i id ++ ·) (List.filter_eq_nil_iff.2 ?_)).trans
          (List.append_nil _)
        intro x hx hn
        split at hx
        · next he =>
          obtain ⟨p, -, rfl⟩ := List.mem_map.1 hx
          exact hji ⟨he, (of_decide_eq_true hn).symm⟩
        · cases hx

theorem Made.step (hw : w.Made evbs n data) (hnodup : evbs.Nodup) {e : BroadCastEvent E A P D}
    (h : step w e = some w') : w'.Made evbs n data ∧ WritesOpen n data w e w' := by
  have hdelivered := hw.delivered.step hnodup h
  obtain ⟨c₁, hc₁, hdata⟩ := hw.made
  rcases hw.delivered.sent.step_cases h with ⟨pool, hpool, rfl⟩ | ⟨caller, data', rfl, rfl⟩ |
    ⟨m, c, k, evb, rfl, hc, hk, hposted, rfl⟩ | ⟨evb, m, c, i, v, loops, rfl, hc, hi, hv, htake, rfl⟩
  · exact ⟨⟨hdelivered, c₁, hc₁, hdata⟩, fun x hx _ => .inl hx⟩
  · refine ⟨⟨hdelivered, c₁, ?_, hdata⟩, fun x hx _ => .inl hx⟩
    rw [List.getElem?_append_left (List.getElem?_eq_some_iff.1 hc₁).1]
    exact hc₁
  · obtain ⟨c₂, hc₂, -, hdata₂⟩ := getElem?_set_todo hc _ hc₁
    exact ⟨⟨hdelivered, c₂, hc₂, hdata₂.trans hdata⟩, fun x hx _ => .inl hx⟩
  · refine ⟨⟨hdelivered, c₁, hc₁, hdata⟩, ?_⟩
    intro x hx hn
    obtain hx | hx := List.mem_append.1 hx
    · exact .inl hx
    · simp only [IOThreadConnManager.broadCast, List.map_map, List.mem_map] at hx
      obtain ⟨⟨id, p⟩, hit, rfl⟩ := hx
      cases hn
      cases Option.some.inj (hc.symm.trans hc₁)
      refine .inr ⟨hdata, ?_⟩
      simp only [IOThreadPoolConnManager.pipelineAt, Function.comp_apply, hv, Option.bind_some]
      exact Table.mem_ascending.1 hit

/-- A call whose functions have not all run can go on. -/
theorem Made.progress (hw : w.Made evbs n data) :
    (∀ evb ∈ evbs, w.Ran n evb) ∨ (BroadCasting.step w (.post n)).isSome ∨
      ∃ evb ∈ evbs, ∃ thread, ¬w.Ran n evb ∧ (BroadCasting.step w (.runTask evb thread)).isSome := by
  by_cases hall : ∀ evb ∈ evbs, w.Ran n evb
  · exact .inl hall
  push Not at hall
  obtain ⟨evb, hevb, hnot⟩ := hall
  obtain ⟨i, hi⟩ := List.mem_iff_getElem?.1 hevb
  obtain ⟨c, hc, -⟩ := hw.made
  obtain ⟨k, htodo, hposted⟩ := hw.delivered.sent.call n c hc
  refine .inr ?_
  by_cases hp : w.Posted n evb
  · -- the function is in the queue of the event base, so the queue is not empty
    obtain ⟨thread, hp⟩ := hp
    have hqueue : w.loops.queues evb thread ≠ [] := by
      intro hnil
      rw [EventLoops.posted, hnil, List.append_nil] at hp
      obtain ⟨t, ht, rfl⟩ := List.mem_map.1 hp
      exact hnot (List.mem_map.2 ⟨_, EventLoops.mem_ranFrom.1 ht, rfl⟩)
    obtain ⟨⟨m, task⟩, loops, htake⟩ := EventLoops.exists_take hqueue
    obtain ⟨c', j, hc', hj, -, rfl⟩ :=
      hw.delivered.sent.task evb thread _ (EventLoops.mem_posted_of_take htake)
    have hlt : j < w.pool.threadConnManagers.length := by
      rw [hw.delivered.sent.pool.length_eq]
      exact (List.getElem?_eq_some_iff.1 hj).1
    refine .inr ⟨evb, hevb, thread, hnot, ?_⟩
    simp [BroadCasting.step, htake, List.getElem?_eq_getElem hlt]
  · -- the loop of the call has not come to the event base
    have hlt : k < (IOThreadPoolConnManager.tasksOf evbs c.data).length := by
      rw [IOThreadPoolConnManager.length_tasksOf]
      have := (List.getElem?_eq_some_iff.1 hi).1
      have := mt (hposted i evb hi).2 hp
      omega
    obtain ⟨t, todo, ht⟩ : ∃ t todo, c.todo = t :: todo :=
      ⟨_, _, htodo.trans (List.drop_eq_getElem_cons hlt)⟩
    exact .inl (by simp [BroadCasting.step, hc, ht])

theorem Delivered.broadCast (hw : w.Delivered evbs) (caller : A) (data : D) :
    ∃ w', BroadCasting.step w (.broadCast caller data) = some w' ∧
      (∃ c, w'.calls[w.calls.length]? = some c ∧ c.caller = caller ∧ c.data = data) ∧
      w'.loops = w.loops ∧ w'.written = w.written := by
  refine ⟨{ w with calls := w.calls ++
    [{ caller, data, todo := IOThreadPoolConnManager.tasksOf evbs data }] }, ?_, ?_⟩
  · rw [BroadCasting.step, hw.sent.pool.broadCast_eq]
    rfl
  · exact ⟨⟨_, List.getElem?_concat_length, rfl, rfl⟩, rfl, rfl⟩

/-- **One broadcast.** Whatever opens, closes and broadcasts meanwhile on a pool whose threads have
different event bases, a broadcast writes at most once under each connection id, its thread data to the
pipeline that is in the table at that moment, and nothing on a thread before its function ran there.
What a thread's table has under an id until then is what is written, once: a connection that is open
all the while gets the data, one that is not open at any time does not. A broadcast whose functions
have not all run can always go on. -/
theorem broadcast_once {evbs : List E} (hnodup : evbs.Nodup) (es₁ : List (BroadCastEvent E A P D))
    {w₁ : BroadCasting E A P D} (h₁ : run BroadCasting.step (init evbs) es₁ = some w₁)
    (caller : A) (data : D) :
    ∃ w₂, BroadCasting.step w₁ (.broadCast caller data) = some w₂ ∧
      ∀ (es₂ : List (BroadCastEvent E A P D)) (w : BroadCasting E A P D),
        run BroadCasting.step w₂ es₂ = some w →
        Along BroadCasting.step (WritesOpen w₁.calls.length data) w₂ es₂ ∧
        ((∀ evb ∈ evbs, w.Ran w₁.calls.length evb) ∨
          (BroadCasting.step w (.post w₁.calls.length)).isSome ∨
          ∃ evb ∈ evbs, ∃ thread, ¬w.Ran w₁.calls.length evb ∧
            (BroadCasting.step w (.runTask evb thread)).isSome) ∧
        ∀ i id, (w.writes w₁.calls.length i id).length ≤ 1 ∧
          ∀ evb, evbs[i]? = some evb →
            (¬w.Ran w₁.calls.length evb → w.writes w₁.calls.length i id = []) ∧
            ∀ o, Along BroadCasting.step (TableHas w₁.calls.length evb i id o) w₂ es₂ →
              w.Ran w₁.calls.length evb →
                w.writes w₁.calls.length i id = o.toList.map fun pipeline =>
                  { call := w₁.calls.length, conn := i, connId := id, pipeline, data } := by
  have hw₁ : w₁.Delivered evbs :=
    run_invariant (fun _ _ _ hw h => hw.step hnodup h) (delivered_init evbs) h₁
  obtain ⟨w₂, h₂, ⟨c, hc, -, hdata⟩, hloops, -⟩ := hw₁.broadCast caller data
  have hw₂ : w₂.Made evbs w₁.calls.length data := ⟨hw₁.step hnodup h₂, c, hc, hdata⟩
  refine ⟨w₂, h₂, ?_⟩
  intro es₂ w h
  have hw : w.Made evbs w₁.calls.length data :=
    run_invariant (fun _ _ _ hw h => (Made.step hw hnodup h).1) hw₂ h
  refine ⟨?_, hw.progress, fun i id => ⟨hw.delivered.writes_le _ i id, fun evb hi => ⟨?_, ?_⟩⟩⟩
  · have hall : Along BroadCasting.step (fun _ _ _ => True) w₂ es₂ := .of_forall fun _ _ _ _ => trivial
    exact hall.imp (fun w e w' _ hw (h : BroadCasting.step w e = some w') => hw.step hnodup h) hw₂
  · exact fun hnot => hw.delivered.writes_eq_nil hi hnot id
  · intro o htable
    have hfinal : w.Made evbs w₁.calls.length data ∧ (w.Ran w₁.calls.length evb →
        w.writes w₁.calls.length i id = o.toList.map fun pipeline =>
          { call := w₁.calls.length, conn := i, connId := id, pipeline, data }) :=
      htable.invariant
        (P := fun w => w.Made evbs w₁.calls.length data ∧ (w.Ran w₁.calls.length evb →
          w.writes w₁.calls.length i id = o.toList.map fun pipeline =>
            { call := w₁.calls.length, conn := i, connId := id, pipeline, data }))
        (fun w e w' hq hw (h : BroadCasting.step w e = some w') => by
          refine ⟨(hw.1.step hnodup h).1, fun hran => ?_⟩
          rcases hw.1.writes_cases hnodup h hi id with ⟨hiff, hsame⟩ | ⟨hnot, hwrites⟩
          · rw [hsame]
            exact hw.2 (hiff.1 hran)
          · rw [hwrites, hq hnot])
        ⟨hw₂, fun hran => by
          rw [Ran, hloops] at hran
          exact absurd (hw₁.sent.posted_lt (Ran.posted hran)) (Nat.lt_irrefl _)⟩ h
    exact hfinal.2

def openThenBroadCast : List (BroadCastEvent ℕ ℕ ℕ ℕ) :=
  [.onNewConnection 7 1 "gate", .onNewConnection 8 0 "gate"]

/-- The second thread of the pool is the first to run, and the connection of the first one is closed by
then. -/
def postAndRun : List (BroadCastEvent ℕ ℕ ℕ ℕ) :=
  [.post 0, .post 0, .runTask 1 3, .onConnectionClosed 1 8 "gate", .runTask 0 3]

theorem broadcast_once_two_threads :
    ∃ w₁ w₂ w : BroadCasting ℕ ℕ ℕ ℕ,
      run BroadCasting.step (init [0, 1]) openThenBroadCast = some w₁ ∧
      BroadCasting.step w₁ (.broadCast 3 5) = some w₂ ∧
      run BroadCasting.step w₂ postAndRun = some w ∧
      w.writes 0 1 1 = [{ call := 0, conn := 1, connId := 1, pipeline := 7, data := 5 }] := by
  have hnodup : [0, 1].Nodup := by decide
  obtain ⟨w₂, h₂, hall⟩ := broadcast_once hnodup openThenBroadCast rfl 3 5
  obtain rfl := Option.some.inj h₂
  refine ⟨_, _, _, rfl, rfl, rfl, ?_⟩
  exact (((hall postAndRun _ rfl).2.2 1 1).2 1 rfl).2 (some 7) (by decide) (by decide)

/-! ## The order of two broadcasts -/

/-- Two lists that keep the order of a third one agree on the order of what both have. -/
theorem pair_sublist_of_nodup {α : Type} [DecidableEq α] {l l₁ l₂ : List α} (hl : l.Nodup)
    (h₁ : l₁.Sublist l) (h₂ : l₂.Sublist l) {a b : α} (h : [a, b].Sublist l₁) (ha : a ∈ l₂)
    (hb : b ∈ l₂) : [a, b].Sublist l₂ := by
  have hperm : (l.filter fun x => x ∈ l₂).Perm l₂ := by
    rw [List.perm_ext_iff_of_nodup (hl.filter _) (h₂.nodup hl)]
    intro x
    simpa using fun hx => h₂.subset hx
  have hfilter := (hl.perm_iff_eq_of_sublist List.filter_sublist h₂).1 hperm
  have hpair := (h.trans h₁).filter fun x => decide (x ∈ l₂)
  rw [hfilter] at hpair
  simpa [ha, hb] using hpair

/-- What a later state has of an earlier one: the calls with their callers, and what was passed to
the event bases. -/
structure Extends (w w' : BroadCasting E A P D) : Prop where
  caller : ∀ (n : ℕ) (c : BroadCastCall E A D), w.calls[n]? = some c →
    ∃ c' : BroadCastCall E A D, w'.calls[n]? = some c' ∧ c'.caller = c.caller
  posted : ∀ evb thread, w.loops.posted evb thread <+: w'.loops.posted evb thread

omit [DecidableEq E] [DecidableEq P] in
theorem Extends.refl (w : BroadCasting E A P D) : w.Extends w :=
  ⟨fun _ c hc => ⟨c, hc, rfl⟩, fun _ _ => List.prefix_rfl⟩

omit [DecidableEq E] [DecidableEq P] in
theorem Extends.trans {w'' : BroadCasting E A P D} (h : w.Extends w') (h' : w'.Extends w'') :
    w.Extends w'' where
  caller n c hc := by
    obtain ⟨c₁, hc₁, hcaller₁⟩ := h.caller n c hc
    obtain ⟨c₂, hc₂, hcaller₂⟩ := h'.caller n c₁ hc₁
    exact ⟨c₂, hc₂, hcaller₂.trans hcaller₁⟩
  posted evb thread := (h.posted evb thread).trans (h'.posted evb thread)

theorem Sent.extends (hw : w.Sent evbs) {e : BroadCastEvent E A P D}
    (h : BroadCasting.step w e = some w') : w.Extends w' := by
  rcases hw.step_cases h with ⟨pool, hpool, rfl⟩ | ⟨caller, data, rfl, rfl⟩ |
    ⟨n, c, k, evb', rfl, hc, hk, hposted, rfl⟩ | ⟨evb', n, c, i, v, loops, rfl, hc, hi, -, htake, rfl⟩
  · exact ⟨fun _ c hc => ⟨c, hc, rfl⟩, fun _ _ => List.prefix_rfl⟩
  · refine ⟨fun m c hc => ⟨c, ?_, rfl⟩, fun _ _ => List.prefix_rfl⟩
    rw [List.getElem?_append_left (List.getElem?_eq_some_iff.1 hc).1]
    exact hc
  · refine ⟨fun m c₁ hc₁ => ?_, fun evb thread => ?_⟩
    · obtain ⟨c₂, hc₂, hcaller, -⟩ := getElem?_set_todo hc _ hc₁
      exact ⟨c₂, hc₂, hcaller⟩
    · rw [EventLoops.posted_post]
      split
      · next he =>
        rw [he.1, he.2]
        exact List.prefix_append _ _
      · exact List.prefix_rfl
  · refine ⟨fun m c hc => ⟨c, hc, rfl⟩, fun evb thread => ?_⟩
    rw [taskRan, EventLoops.posted_take htake]

omit [DecidableEq P] in
/-- A call that returned has passed its function to every event base. -/
theorem Sent.posted_of_returned (hw : w.Sent evbs) {c : BroadCastCall E A D}
    (hc : w.calls[n]? = some c) (hnil : c.todo = []) (hi : evbs[i]? = some evb) :
    n ∈ (w.loops.posted evb c.caller).map Prod.fst := by
  obtain ⟨k, htodo, hposted⟩ := hw.call n c hc
  rw [hnil, eq_comm, List.drop_eq_nil_iff, IOThreadPoolConnManager.length_tasksOf] at htodo
  have := (List.getElem?_eq_some_iff.1 hi).1
  obtain ⟨thread, h⟩ := (hposted i evb hi).2 (by omega)
  exact hw.caller_eq hc h ▸ h

omit [DecidableEq P] in
/-- Two calls that an event base has in one queue ran there in the order in which they were passed
to it. -/
theorem Sent.pair_sublist_posted (hw : w.Sent evbs) {m : ℕ} {c c' : BroadCastCall E A D}
    (hc : w.calls[n]? = some c) (hc' : w.calls[m]? = some c') (hcaller : c.caller = c'.caller)
    (h : [n, m].Sublist ((w.loops.ran evb).map fun x => x.2.1)) :
    [n, m].Sublist ((w.loops.posted evb c.caller).map Prod.fst) := by
  obtain ⟨l, hl, he⟩ := List.sublist_map_iff.1 h
  obtain ⟨x, y, rfl⟩ : ∃ x y, l = [x, y] := by
    have hlen : l.length = 2 := by rw [← List.length_map, ← he]; rfl
    exact List.length_eq_two.1 hlen
  obtain ⟨rfl, hy⟩ := List.cons.inj he
  obtain ⟨rfl, -⟩ := List.cons.inj hy
  have hx : x.1 = c.caller :=
    hw.caller_eq hc (List.mem_map_of_mem (EventLoops.mem_posted_of_ran (hl.subset (by simp))))
  have hy : y.1 = c'.caller :=
    hw.caller_eq hc' (List.mem_map_of_mem (EventLoops.mem_posted_of_ran (hl.subset (by simp))))
  have hpair := (EventLoops.pair_sublist_posted hl (by rw [hx, hy, hcaller])).map Prod.fst
  rw [hx] at hpair
  exact hpair

/-- **The order of two broadcasts.** On a pool whose threads have different event bases, in every run
the connections of one thread that get the data of two broadcasts get it in the same order. The data
of a broadcast that returned before the same thread made the other one comes first on every
connection. -/
theorem broadcast_order {evbs : List E} (hnodup : evbs.Nodup)
    (es₁ es₂ : List (BroadCastEvent E A P D)) (caller : A) (data : D) {w₁ w : BroadCasting E A P D}
    (h₁ : run BroadCasting.step (init evbs) es₁ = some w₁)
    (h : run BroadCasting.step w₁ (.broadCast caller data :: es₂) = some w) :
    (∀ i id id' n m, [n, m].Sublist (w.received i id) → n ∈ w.received i id' →
      m ∈ w.received i id' → [n, m].Sublist (w.received i id')) ∧
    ∀ n c, w₁.calls[n]? = some c → c.todo = [] → c.caller = caller → ∀ i id,
      ¬[w₁.calls.length, n].Sublist (w.received i id) := by
  have hw₁ : w₁.Delivered evbs :=
    run_invariant (fun _ _ _ hw h => hw.step hnodup h) (delivered_init evbs) h₁
  obtain ⟨w₂, h₂, hrest⟩ := run_cons_eq_some.1 h
  obtain ⟨w₂', h₂', ⟨c', hc', hcaller', -⟩, -, -⟩ := hw₁.broadCast caller data
  obtain rfl : w₂ = w₂' := Option.some.inj (h₂.symm.trans h₂')
  have hw : w.Delivered evbs ∧ w₂.Extends w :=
    run_invariant (fun w _ w' hw (h : BroadCasting.step w _ = some w') =>
      ⟨hw.1.step hnodup h, hw.2.trans (hw.1.sent.extends h)⟩)
      (P := fun w => w.Delivered evbs ∧ w₂.Extends w) ⟨hw₁.step hnodup h₂, .refl w₂⟩ hrest
  refine ⟨?_, ?_⟩
  · intro i id id' n m hnm hn hm
    cases hi : evbs[i]? with
    | none =>
      rw [hw.1.outside i (List.getElem?_eq_none_iff.1 hi)] at hn
      cases hn
    | some evb =>
      exact pair_sublist_of_nodup (hw.1.sent.nodup_ran evb) (hw.1.received i evb hi id)
        (hw.1.received i evb hi id') hnm hn hm
  · intro n c hc hnil hcaller i id hsub
    cases hi : evbs[i]? with
    | none =>
      rw [hw.1.outside i (List.getElem?_eq_none_iff.1 hi)] at hsub
      cases hsub
    | some evb =>
      have hextends : w₁.Extends w := (hw₁.sent.extends h₂).trans hw.2
      obtain ⟨d, hd, hdcaller⟩ := hextends.caller n c hc
      obtain ⟨d', hd', hdcaller'⟩ := hw.2.caller _ c' hc'
      have hsame : d'.caller = d.caller := by rw [hdcaller, hdcaller', hcaller', hcaller]
      have hall := hw.1.sent.pair_sublist_posted hd' hd hsame (hsub.trans (hw.1.received i evb hi id))
      -- the function of the call `n` was posted before that of the new call
      have hposted : n ∈ (w₁.loops.posted evb d'.caller).map Prod.fst := by
        rw [hsame, hdcaller]
        exact hw₁.sent.posted_of_returned hc hnil hi
      have hfresh : ¬w₁.Posted w₁.calls.length evb := fun h =>
        absurd (hw₁.sent.posted_lt h) (Nat.lt_irrefl _)
      obtain ⟨later, hlater⟩ := hextends.posted evb d'.caller
      have honce := hw.1.sent.once evb d'.caller
      rw [← hlater, List.map_append] at hall honce
      obtain ⟨l₁, l₂, hl, hl₁, hl₂⟩ := List.sublist_append_iff.1 hall
      cases l₁ with
      | nil =>
        obtain rfl : [w₁.calls.length, n] = l₂ := hl
        exact (List.nodup_append.1 honce).2.2 n hposted n (hl₂.subset (by simp)) rfl
      | cons m l₁ =>
        obtain rfl := (List.cons.inj hl).1
        exact hfresh ⟨_, hl₁.subset List.mem_cons_self⟩

/-- Two broadcasts of different threads whose loops go round at the same time, on a pool of two threads
with a connection each, and a third one of the first of them, made when its broadcast has returned. -/
def overlapping : List (BroadCastEvent ℕ ℕ ℕ ℕ) :=
  [.onNewConnection 7 0 "gate", .onNewConnection 8 1 "gate", .broadCast 3 5, .broadCast 4 6, .post 0,
    .post 1, .post 1, .post 0]

def thirdRuns : List (BroadCastEvent ℕ ℕ ℕ ℕ) :=
  [.post 2, .post 2, .runTask 0 3, .runTask 0 3, .runTask 0 4, .runTask 1 4, .runTask 1 3,
    .runTask 1 3]

/-- The threads disagree on the order of the first two. The third one comes after the first on each. -/
theorem broadcast_order_overlapping :
    ∃ w₁ w : BroadCasting ℕ ℕ ℕ ℕ, run BroadCasting.step (init [0, 1]) overlapping = some w₁ ∧
      run BroadCasting.step w₁ (.broadCast 3 9 :: thirdRuns) = some w ∧
      w.received 0 1 = [0, 2, 1] ∧ w.received 1 1 = [1, 0, 2] ∧
      ∀ i id, ¬[2, 0].Sublist (w.received i id) := by
  have hnodup : [0, 1].Nodup := by decide
  refine ⟨_, _, rfl, rfl, by decide, by decide, ?_⟩
  exact (broadcast_order hnodup overlapping thirdRuns 3 9 rfl rfl).2 0 _ rfl rfl rfl

end Cases

end BroadCasting

end ServiceFramework.Net
