import ServiceFramework.Net.PoolConnIds
import ServiceFramework.Net.PoolSends
import Mathlib.Data.List.Infix

/-!
# The channels of a pool

What a thread sends to a connection, by dispatch or by broadcast, goes through one queue of one event
base. So the connection is given a block of it, in order and once (`pool_in_order`): all that ran
between its opening and its closing. What ran before it was opened can only be broadcasts, and while it
is open the rest is queued, or is still to be passed on by the loop of the thread's last broadcast.
-/

namespace ServiceFramework.Net

open BitField Transition

namespace PoolSending

variable {A E P D : Type}

/-! ## What a step does -/

section Step

variable [DecidableEq A] [DecidableEq E]

/-- All that a step can do on a pool with the event bases `evbs`. -/
inductive Moves (evbs : List E) (w : PoolSending A E P D) : PoolSending A E P D → Prop where
  | tables (pool : IOThreadPoolConnManager E P) (closed : List ℕ) (hclosed : w.closed ⊆ closed) :
    Moves evbs w { w with pool, closed }
  | opened (i : ℕ) (evb : E) (connId : UInt64) (pipeline : P) (serviceName : String)
    (pool : IOThreadPoolConnManager E P) (hevb : evbs[i]? = some evb)
    (hnew : ∀ c ∈ w.connections, c.connId ≠ connId) :
    Moves evbs w (w.opened i evb connId pipeline serviceName pool)
  | dispatch (thread : A) (connId : UInt64) (data : D) (evb : E) (hidle : w.todo thread = [])
    (hissued : ∃ c ∈ w.connections, c.connId = connId)
    (hevb : evbs[(high connId).toNat]? = some evb) :
    Moves evbs w { w with
      sent := w.sent ++ [(thread, .dispatch connId data)]
      loops := w.loops.post evb thread
        (.dispatch { evb, conn := (high connId).toNat, connId := low connId, data }) }
  | broadCast (thread : A) (data : D) (hidle : w.todo thread = []) :
    Moves evbs w { w with
      sent := w.sent ++ [(thread, .broadCast data)]
      todo := Function.update w.todo thread (IOThreadPoolConnManager.tasksOf evbs data) }
  | post (thread : A) (evb : E) (task : BroadCastTask D) (todo : List (E × BroadCastTask D))
    (htodo : w.todo thread = (evb, task) :: todo) :
    Moves evbs w { w with
      todo := Function.update w.todo thread todo
      loops := w.loops.post evb thread (.broadCast task) }
  | runTask (evb : E) (thread : A) (task : PoolTask E D) (v : IOThreadConnManager E P)
    (loops : EventLoops E A (PoolTask E D))
    (htake : w.loops.take evb thread = some (task, loops))
    (hv : w.pool.threadConnManagers[task.conn]? = some v) :
    Moves evbs w (w.taskRan thread task v loops)

variable {evbs : List E} {w w' : PoolSending A E P D}

omit [DecidableEq A] [DecidableEq E] in
/-- What holds of the tables does not depend on what is sent. -/
theorem Routed.of_eq (hw : w.Routed evbs) (hpool : w'.pool = w.pool)
    (hconnections : w'.connections = w.connections) (hclosed : w'.closed = w.closed) :
    w'.Routed evbs := by
  cases w
  cases w'
  cases hpool
  cases hconnections
  cases hclosed
  exact ⟨hw.pool, hw.evb, hw.connId, hw.counter, hw.key_le, hw.key_inj, hw.number_lt, hw.number_inj,
    hw.closed_lt, hw.table⟩

omit [DecidableEq A] [DecidableEq E] in
theorem Routed.conn_lt (hw : w.Routed evbs) (hlen : evbs.length ≤ 2 ^ 32) {c : PoolConnection E P}
    (hc : c ∈ w.connections) : c.conn < 2 ^ 32 :=
  Nat.lt_of_lt_of_le (List.getElem?_eq_some_iff.1 (hw.evb c hc)).1 hlen

omit [DecidableEq A] [DecidableEq E] in
/-- The high half of an id that was issued is the index of its thread. -/
theorem Routed.high_connId (hw : w.Routed evbs) (hlen : evbs.length ≤ 2 ^ 32)
    {c : PoolConnection E P} (hc : c ∈ w.connections) : (high c.connId).toNat = c.conn := by
  rw [hw.connId c hc, high_pair_ofNat_of_lt (hw.conn_lt hlen hc)]

omit [DecidableEq A] [DecidableEq E] in
/-- A message for a connection goes to its thread. -/
theorem Routed.goesTo_of_isFor (hw : w.Routed evbs) (hlen : evbs.length ≤ 2 ^ 32)
    {c : PoolConnection E P} (hc : c ∈ w.connections) {m : PoolMessage D}
    (h : m.isFor c.connId = true) : m.goesTo c.conn = true := by
  cases m with
  | dispatch connId data =>
    obtain rfl : connId = c.connId := of_decide_eq_true h
    exact decide_eq_true (hw.high_connId hlen hc)
  | broadCast data => rfl

variable [DecidableEq P]

theorem Routed.step (hw : w.Routed evbs) (hlen : evbs.length ≤ 2 ^ 32) {e : PoolEvent A E P D}
    (hl : Limited w e w') (h : step w e = some w') :
    w'.Routed evbs ∧ Moves evbs w w' := by
  cases e with
  | onNewConnection pipeline eventBase serviceName =>
    obtain ⟨⟨connId, pool⟩, hnew, h⟩ := Option.bind_eq_some_iff.1 h
    dsimp only at h
    unfold IOThreadPoolConnManager.onNewConnection at hnew
    cases hfind : w.pool.findThread eventBase with
    | none =>
      rw [hfind] at hnew h
      cases hnew
      cases h
      exact ⟨hw, .tables w.pool w.closed (List.Subset.refl _)⟩
    | some r =>
      obtain ⟨i, v⟩ := r
      rw [hfind] at hnew h
      obtain ⟨⟨lo, v'⟩, hopen, hr⟩ := Option.bind_eq_some_iff.1 hnew
      cases hr
      cases h
      have hv := IOThreadPoolConnManager.findThread_eq_some hfind
      have hevb : evbs[i]? = some eventBase := by
        obtain ⟨j, hj, hr⟩ := Option.bind_eq_some_iff.1 hfind
        obtain ⟨v₁, hv₁, hr⟩ := Option.bind_eq_some_iff.1 hr
        cases hr
        rw [hw.pool.findIdx?_eq, List.findIdx?_eq_some_iff_getElem] at hj
        obtain ⟨hlt, heq, -⟩ := hj
        rw [List.getElem?_eq_getElem hlt, of_decide_eq_true heq]
      have hfew : w.openedOn i + 1 < 2 ^ 32 - 1 := by
        have := hl _ List.mem_cons_self
        rw [openedOn_opened, if_pos rfl] at this
        exact this
      obtain ⟨hlo, hrouted⟩ := hw.opened hv hevb hfew hopen
      refine ⟨hrouted, .opened i eventBase _ pipeline serviceName _ hevb ?_⟩
      intro c hc he
      have hi : i < 2 ^ 32 := Nat.lt_of_lt_of_le (List.getElem?_eq_some_iff.1 hevb).1 hlen
      have hconn : c.conn = i := by
        rw [← hw.high_connId hlen hc, he, high_pair_ofNat_of_lt hi]
      refine hw.key_fresh hfew c hc hconn ?_
      rw [he, low_pair, hlo]
  | onServerRegister pipeline eventBase serverName serverNumber =>
    cases h
    exact ⟨hw.onServerRegister _ _ _ _, .tables _ w.closed (List.Subset.refl _)⟩
  | onConnectionClosed number =>
    obtain ⟨c, hfind, h⟩ := Option.bind_eq_some_iff.1 h
    obtain ⟨⟨rv, pool⟩, hclose, hr⟩ := Option.bind_eq_some_iff.1 h
    cases hr
    have hnumber : c.number = number := by simpa using List.find?_some hfind
    subst hnumber
    exact ⟨hw.closed hlen (List.mem_of_find?_eq_some hfind) hclose,
      .tables pool _ (List.subset_cons_self _ _)⟩
  | dispatchIOBufByConnID thread connId data =>
    unfold PoolSending.step at h
    dsimp only at h
    split at h
    · next hguard =>
      obtain ⟨⟨rv, task⟩, hdispatch, hr⟩ := Option.bind_eq_some_iff.1 h
      cases hr
      obtain ⟨v, hv, hr⟩ := Option.bind_eq_some_iff.1 hdispatch
      obtain ⟨evb, hevb, hr⟩ := Option.bind_eq_some_iff.1 hr
      cases hr
      refine ⟨hw.of_eq rfl rfl rfl, .dispatch thread connId data evb
        (List.isEmpty_iff.1 hguard.1) ?_ ?_⟩
      · obtain ⟨c, hc, hid⟩ := List.any_eq_true.1 hguard.2
        exact ⟨c, hc, of_decide_eq_true hid⟩
      · have hmap := congrArg (fun l => l[(high connId).toNat]?) hw.pool
        simp only [List.getElem?_map, hv, Option.map_some, hevb] at hmap
        obtain ⟨evb', hevb', heq⟩ := Option.map_eq_some_iff.1 hmap.symm
        cases heq
        exact hevb'
    · cases h
  | broadCast thread data =>
    unfold PoolSending.step at h
    dsimp only at h
    split at h
    · next hidle =>
      rw [hw.pool.broadCast_eq] at h
      cases h
      exact ⟨hw.of_eq rfl rfl rfl, .broadCast thread data (List.isEmpty_iff.1 hidle)⟩
    · cases h
  | post thread =>
    unfold PoolSending.step at h
    dsimp only at h
    split at h
    · cases h
    · next evb task todo htodo =>
      cases h
      exact ⟨hw.of_eq rfl rfl rfl, .post thread evb task todo htodo⟩
  | runTask evb thread =>
    obtain ⟨⟨task, loops⟩, htake, h⟩ := Option.bind_eq_some_iff.1 h
    obtain ⟨v, hv, hr⟩ := Option.bind_eq_some_iff.1 h
    cases hr
    exact ⟨hw.of_eq rfl rfl rfl, .runTask evb thread task v loops htake hv⟩

end Step

/-! ## Streams -/

section Streams

variable [DecidableEq A]

/-- What a thread sent to the thread `i`. -/
def sentOn (w : PoolSending A E P D) (thread : A) (i : ℕ) : List (PoolMessage D) :=
  (w.sent.filter fun x => x.1 = thread ∧ x.2.goesTo i).map Prod.snd

/-- What a thread sent to a connection. -/
def sentTo (w : PoolSending A E P D) (thread : A) (c : PoolConnection E P) : List (PoolMessage D) :=
  (w.sent.filter fun x => x.1 = thread ∧ x.2.isFor c.connId).map Prod.snd

/-- The messages for the thread `i` among what the loop of a broadcast has to do. -/
def broadCastsOn (i : ℕ) (todo : List (E × BroadCastTask D)) : List (PoolMessage D) :=
  (todo.filter fun x => x.2.conn = i).map fun x => .broadCast x.2.data

/-- What the loop of a thread has still to pass to the event base of the thread `i`. -/
def pendingOn (w : PoolSending A E P D) (thread : A) (i : ℕ) : List (PoolMessage D) :=
  broadCastsOn i (w.todo thread)

/-- What was written to a connection of what a thread sent. -/
def writtenBy (w : PoolSending A E P D) (thread : A) (c : PoolConnection E P) : List D :=
  (w.written.filter fun x =>
    x.thread = thread ∧ x.conn = c.conn ∧ x.connId = low c.connId).map PoolWrite.data

theorem sentOn_append (w : PoolSending A E P D) (thread thread' : A) (m : PoolMessage D) (i : ℕ) :
    sentOn { w with sent := w.sent ++ [(thread, m)] } thread' i =
      w.sentOn thread' i ++ if thread' = thread ∧ m.goesTo i = true then [m] else [] := by
  simp only [sentOn, List.filter_append, List.map_append]
  congr 1
  by_cases h : thread' = thread ∧ m.goesTo i = true
  · obtain ⟨rfl, hgoes⟩ := h
    simp [hgoes]
  · rw [if_neg h, List.filter_cons_of_neg]
    · rfl
    · rw [decide_eq_true_iff]
      exact fun ⟨hthread, hgoes⟩ => h ⟨hthread.symm, hgoes⟩

/-- What a thread sent to a connection and ran before that was opened. -/
def missedBy (w : PoolSending A E P D) (thread : A) (c : PoolConnection E P) :
    List (PoolMessage D) :=
  ((w.loops.ranBefore c.evb c.since thread).map PoolTask.message).filter
    (PoolMessage.isFor c.connId)

/-- What ran since. -/
def ranBy (w : PoolSending A E P D) (thread : A) (c : PoolConnection E P) : List (PoolMessage D) :=
  ((w.loops.ranSince c.evb c.since thread).map PoolTask.message).filter (PoolMessage.isFor c.connId)

/-- What is queued. -/
def queuedBy (w : PoolSending A E P D) (thread : A) (c : PoolConnection E P) :
    List (PoolMessage D) :=
  ((w.loops.queues c.evb thread).map PoolTask.message).filter (PoolMessage.isFor c.connId)

/-- The sends of a thread to a connection are a channel: the connection is given a block of them. -/
structure Channel [DecidableEq E] [DecidableEq P] (w : PoolSending A E P D) (thread : A)
    (c : PoolConnection E P) : Prop where
  in_order : c.number ∉ w.closed → (w.sentTo thread c).map PoolMessage.data =
    (w.missedBy thread c).map PoolMessage.data ++ w.writtenBy thread c ++
      (w.queuedBy thread c ++ w.pendingOn thread c.conn).map PoolMessage.data
  block : ∃ lost, (w.sentTo thread c).map PoolMessage.data =
    (w.missedBy thread c).map PoolMessage.data ++ w.writtenBy thread c ++ lost ++
      (w.queuedBy thread c ++ w.pendingOn thread c.conn).map PoolMessage.data
  missed : ∀ m ∈ w.missedBy thread c, ∃ data, m = .broadCast data
  pipeline : ∀ x ∈ w.written, x.conn = c.conn → x.connId = low c.connId → x.pipeline = c.pipeline
  closed : c.number ∈ w.closed → ∀ e w', step w e = some w' →
    w'.writtenBy thread c = w.writtenBy thread c

/-- What was passed to the queues, and is still to be, is what was sent. -/
structure Passed (evbs : List E) (w : PoolSending A E P D) : Prop where
  task : ∀ evb thread, ∀ task ∈ w.loops.posted evb thread, evbs[task.conn]? = some evb ∧
    ∀ connId data, task.message = .dispatch connId data → ∃ c ∈ w.connections, c.connId = connId
  todo : ∀ thread, ∀ x ∈ w.todo thread, evbs[x.2.conn]? = some x.1
  order : ∀ thread i evb, evbs[i]? = some evb → w.sentOn thread i =
    (w.loops.posted evb thread).map PoolTask.message ++ w.pendingOn thread i

/-- What a connection was given is what ran for it while it was open. -/
structure Given (w : PoolSending A E P D) : Prop where
  since_le : ∀ c ∈ w.connections, c.since ≤ (w.loops.ran c.evb).length
  missed : ∀ c ∈ w.connections, ∀ thread, ∀ m ∈ w.missedBy thread c,
    ∃ data, m = .broadCast data
  connection : ∀ x ∈ w.written, ∃ c ∈ w.connections, c.conn = x.conn ∧ low c.connId = x.connId ∧
    c.pipeline = x.pipeline
  ran : ∀ c ∈ w.connections, ∀ thread,
    w.writtenBy thread c <+: (w.ranBy thread c).map PoolMessage.data
  ran_open : ∀ c ∈ w.connections, c.number ∉ w.closed → ∀ thread,
    w.writtenBy thread c = (w.ranBy thread c).map PoolMessage.data

structure Ordered (evbs : List E) (w : PoolSending A E P D) : Prop where
  routed : w.Routed evbs
  passed : w.Passed evbs
  given : w.Given

variable {evbs : List E} {w w' : PoolSending A E P D}

theorem ordered_init (evbs : List E) : (init evbs : PoolSending A E P D).Ordered evbs where
  routed := routed_init evbs
  passed :=
    { task := fun _ _ x hx => by cases hx
      todo := fun _ x hx => by cases hx
      order := fun _ _ _ _ => rfl }
  given :=
    { since_le := fun c hc => by cases hc
      missed := fun c hc => by cases hc
      connection := fun x hx => by cases hx
      ran := fun c hc => by cases hc
      ran_open := fun c hc => by cases hc }

/-! ## What is passed to the queues -/

/-- One more message is posted: to the event base, from the thread. -/
theorem map_posted_post [DecidableEq E] (l : EventLoops E A (PoolTask E D)) (thread thread' : A)
    (evb evb' : E) (task : PoolTask E D) :
    ((l.post evb thread task).posted evb' thread').map PoolTask.message =
      (l.posted evb' thread').map PoolTask.message ++
        if thread' = thread ∧ evb' = evb then [task.message] else [] := by
  rw [EventLoops.posted_post]
  split
  · next h => rw [if_pos h.symm, List.map_append, h.1, h.2, List.map_singleton]
  · next h => rw [if_neg fun h' => h h'.symm, List.append_nil]

section Passing

variable {pool : IOThreadPoolConnManager E P} {connections : List (PoolConnection E P)}
  {closed : List ℕ} {written : List (PoolWrite A P D)}

/-- What is passed on does not depend on the tables, as long as the connections stay. -/
theorem Passed.of_connections (hw : w.Passed evbs) (h : w.connections ⊆ connections) :
    Passed evbs { w with pool, connections, closed, written } where
  task evb thread x hx := by
    obtain ⟨hevb, hissued⟩ := hw.task evb thread x hx
    refine ⟨hevb, fun connId data hm => ?_⟩
    obtain ⟨c, hc, hid⟩ := hissued connId data hm
    exact ⟨c, h hc, hid⟩
  todo := hw.todo
  order := hw.order

/-- A function runs after it was passed on. -/
theorem Passed.take [DecidableEq E] (hw : w.Passed evbs) {evb : E} {thread : A} {task : PoolTask E D}
    {loops : EventLoops E A (PoolTask E D)} (htake : w.loops.take evb thread = some (task, loops)) :
    Passed evbs { w with loops, written } := by
  have hposted := EventLoops.posted_take htake
  refine ⟨?_, hw.todo, ?_⟩
  · intro evb' k y hy
    rw [hposted] at hy
    exact hw.task evb' k y hy
  · intro thread i evb' hi
    rw [hposted]
    exact hw.order thread i evb' hi

/-- The threads have event bases of their own. -/
theorem evb_eq_iff (hnodup : evbs.Nodup) {i j : ℕ} {evb evb' : E} (hi : evbs[i]? = some evb)
    (hj : evbs[j]? = some evb') : evb' = evb ↔ i = j := by
  constructor
  · rintro rfl
    exact (List.getElem?_inj (List.getElem?_eq_some_iff.1 hi).1 hnodup).1 (hi.trans hj.symm)
  · rintro rfl
    exact Option.some.inj (hj.symm.trans hi)

omit [DecidableEq A] in
/-- No function is pending while a thread is in no loop. -/
theorem pendingOn_of_idle {thread : A} (hidle : w.todo thread = []) (i : ℕ) :
    w.pendingOn thread i = [] := by
  rw [pendingOn, hidle]
  rfl

/-- A dispatch is passed to the event base of the connection's thread, and is one message there. -/
theorem Passed.dispatch [DecidableEq E] (hw : w.Passed evbs) (hnodup : evbs.Nodup) {thread : A}
    {connId : UInt64} {evb : E} (data : D) (hidle : w.todo thread = [])
    (hissued : ∃ c ∈ w.connections, c.connId = connId)
    (hevb : evbs[(high connId).toNat]? = some evb) :
    Passed evbs { w with
      sent := w.sent ++ [(thread, .dispatch connId data)]
      loops := w.loops.post evb thread
        (.dispatch { evb, conn := (high connId).toNat, connId := low connId, data }) } := by
  have hmessage : (PoolTask.dispatch
      { evb, conn := (high connId).toNat, connId := low connId, data }).message =
        .dispatch connId data := by
    rw [PoolTask.message, UInt64.ofNat_toNat, pair_high_low]
  refine ⟨?_, hw.todo, ?_⟩
  · intro evb' k y hy
    rcases EventLoops.mem_posted_post hy with hy | ⟨rfl, rfl, rfl⟩
    · exact hw.task evb' k y hy
    · refine ⟨hevb, fun connId' data' hm => ?_⟩
      rw [hmessage] at hm
      cases hm
      exact hissued
  · intro thread' i evb' hi
    have hevb' := evb_eq_iff hnodup hevb hi
    have hsent := sentOn_append w thread thread' (.dispatch connId data) i
    have hposted := map_posted_post w.loops thread thread' evb evb'
      (.dispatch { evb, conn := (high connId).toNat, connId := low connId, data })
    rw [hmessage] at hposted
    change sentOn { w with sent := w.sent ++ [(thread, .dispatch connId data)] } thread' i =
      _ ++ w.pendingOn thread' i
    rw [hsent, hposted, hw.order thread' i evb' hi]
    by_cases hthread : thread' = thread
    · subst hthread
      rw [pendingOn_of_idle hidle]
      simp [PoolMessage.goesTo, hevb']
    · simp [hthread]

/-- What the loop of the thread has to do is replaced. -/
theorem todo_update {thread : A} {todo : List (E × BroadCastTask D)}
    (hw : ∀ thread, ∀ x ∈ w.todo thread, evbs[x.2.conn]? = some x.1)
    (htodo : ∀ x ∈ todo, evbs[x.2.conn]? = some x.1) :
    ∀ thread', ∀ x ∈ Function.update w.todo thread todo thread', evbs[x.2.conn]? = some x.1 := by
  intro thread' x hx
  by_cases hthread : thread' = thread
  · subst hthread
    rw [Function.update_self] at hx
    exact htodo x hx
  · rw [Function.update_of_ne hthread] at hx
    exact hw thread' x hx

/-- A broadcast has one function for each thread to pass on. -/
theorem Passed.broadCast (hw : w.Passed evbs) {thread : A} (data : D)
    (hidle : w.todo thread = []) :
    Passed evbs { w with
      sent := w.sent ++ [(thread, .broadCast data)]
      todo := Function.update w.todo thread (IOThreadPoolConnManager.tasksOf evbs data) } := by
  refine ⟨hw.task, todo_update hw.todo ?_, ?_⟩
  · intro x hx
    obtain ⟨i, hi, rfl⟩ := List.mem_mapIdx.1 hx
    exact List.getElem?_eq_getElem hi
  · intro thread' i evb hi
    have hsent := sentOn_append w thread thread' (.broadCast data) i
    have horder := hw.order thread' i evb hi
    refine hsent.trans ?_
    change _ = _ ++ broadCastsOn i (Function.update w.todo thread _ thread')
    by_cases hthread : thread' = thread
    · subst hthread
      rw [horder, pendingOn_of_idle hidle, Function.update_self, broadCastsOn,
        IOThreadPoolConnManager.filter_tasksOf hi, if_pos ⟨rfl, rfl⟩, List.append_nil]
      rfl
    · rw [horder, Function.update_of_ne hthread, if_neg fun h => hthread h.1, List.append_nil]
      rfl

/-- What the loop passed on is posted, and no longer to be passed on. -/
theorem Passed.post [DecidableEq E] (hw : w.Passed evbs) (hnodup : evbs.Nodup) {thread : A} {evb : E}
    {task : BroadCastTask D} {todo : List (E × BroadCastTask D)}
    (htodo : w.todo thread = (evb, task) :: todo) :
    Passed evbs { w with
      todo := Function.update w.todo thread todo
      loops := w.loops.post evb thread (.broadCast task) } := by
  have hall := hw.todo thread
  rw [htodo, List.forall_mem_cons] at hall
  obtain ⟨hevb, htail⟩ := hall
  refine ⟨?_, todo_update hw.todo htail, ?_⟩
  · intro evb' k y hy
    rcases EventLoops.mem_posted_post hy with hy | ⟨rfl, rfl, rfl⟩
    · exact hw.task evb' k y hy
    · exact ⟨hevb, fun connId data hm => by cases hm⟩
  · intro thread' i evb' hi
    have hevb' := evb_eq_iff hnodup hevb hi
    have hposted := map_posted_post w.loops thread thread' evb evb' (.broadCast task)
    refine (hw.order thread' i evb' hi).trans ?_
    change _ ++ broadCastsOn i (w.todo thread') =
      _ ++ broadCastsOn i (Function.update w.todo thread todo thread')
    rw [hposted]
    by_cases hthread : thread' = thread
    · subst hthread
      rw [htodo, Function.update_self, broadCastsOn, broadCastsOn]
      by_cases hconn : task.conn = i
      · simp [hevb', hconn, PoolTask.message]
      · simp [hevb', hconn]
    · simp [hthread]

end Passing

/-! ## What is written -/

section Writing

/-- What is written stays with the sends. -/
theorem Given.of_ran (hw : w.Given) {sent : List (A × PoolMessage D)}
    {todo : A → List (E × BroadCastTask D)} {loops : EventLoops E A (PoolTask E D)}
    (hran : loops.ran = w.loops.ran) : Given { w with sent, todo, loops } := by
  obtain ⟨queues, ran⟩ := loops
  cases hran
  exact ⟨hw.since_le, hw.missed, hw.connection, hw.ran, hw.ran_open⟩

theorem Given.of_closed (hw : w.Given) {pool : IOThreadPoolConnManager E P}
    {closed : List ℕ} (hclosed : w.closed ⊆ closed) :
    Given { w with pool, closed } where
  since_le := hw.since_le
  missed := hw.missed
  connection := hw.connection
  ran := hw.ran
  ran_open c hc hopen := hw.ran_open c hc fun h => hopen (hclosed h)

/-- Nothing was written under an id before it is issued. -/
theorem Given.writtenBy_eq_nil (hw : w.Given) {c : PoolConnection E P}
    (hids : ∀ c' ∈ c :: w.connections, c'.connId = pair (UInt64.ofNat c'.conn) (low c'.connId))
    (hnew : ∀ c' ∈ w.connections, c'.connId ≠ c.connId) (thread : A) : w.writtenBy thread c = [] := by
  rw [writtenBy, List.map_eq_nil_iff, List.filter_eq_nil_iff]
  intro x hx he
  obtain ⟨-, hconn, hlow⟩ := of_decide_eq_true he
  obtain ⟨c', hc', hconn', hlow', -⟩ := hw.connection x hx
  refine hnew c' hc' ?_
  rw [hids c' (List.mem_cons_of_mem _ hc'), hconn', hconn, hlow', hlow,
    ← hids c List.mem_cons_self]

/-- What ran before a connection is opened is not for its id, but for broadcasts. -/
theorem Passed.missed (hw : w.Passed evbs) {c : PoolConnection E P}
    (hnew : ∀ c' ∈ w.connections, c'.connId ≠ c.connId) (thread : A) :
    ∀ m ∈ w.missedBy thread c, ∃ data, m = .broadCast data := by
  intro m hm
  obtain ⟨hm, hfor⟩ := List.mem_filter.1 hm
  obtain ⟨task, htask, rfl⟩ := List.mem_map.1 hm
  have hposted := (EventLoops.ranFrom_prefix w.loops c.evb _).subset
    (EventLoops.mem_ranFrom_of_mem_ranBefore htask)
  cases hmessage : task.message with
  | dispatch connId data =>
    rw [hmessage] at hfor
    obtain rfl : connId = c.connId := of_decide_eq_true hfor
    obtain ⟨c', hc', hid⟩ := (hw.task c.evb _ task hposted).2 _ data hmessage
    exact absurd hid (hnew c' hc')
  | broadCast data => exact ⟨data, rfl⟩

theorem Given.opened (hw : w.Given) (hp : w.Passed evbs)
    {pool : IOThreadPoolConnManager E P} {c : PoolConnection E P}
    (hsince : c.since = (w.loops.ran c.evb).length)
    (hids : ∀ c' ∈ c :: w.connections, c'.connId = pair (UInt64.ofNat c'.conn) (low c'.connId))
    (hnew : ∀ c' ∈ w.connections, c'.connId ≠ c.connId) :
    Given { w with pool, connections := c :: w.connections } := by
  have hnone := hw.writtenBy_eq_nil hids hnew
  have hran : ∀ thread, w.ranBy thread c = [] := by
    intro thread
    rw [ranBy, hsince, EventLoops.ranSince_length]
    rfl
  refine ⟨List.forall_mem_cons.2 ⟨Nat.le_of_eq hsince, hw.since_le⟩,
    List.forall_mem_cons.2 ⟨hp.missed hnew, hw.missed⟩, ?_, ?_, ?_⟩
  · intro x hx
    obtain ⟨c', hc', hconn⟩ := hw.connection x hx
    exact ⟨c', List.mem_cons_of_mem _ hc', hconn⟩
  · refine List.forall_mem_cons.2 ⟨fun thread => ?_, hw.ran⟩
    change w.writtenBy thread c <+: _
    rw [hnone]
    exact List.nil_prefix
  · refine List.forall_mem_cons.2 ⟨fun _ thread => ?_, hw.ran_open⟩
    exact (hnone thread).trans (congrArg (List.map PoolMessage.data) (hran thread)).symm

/-- What a function writes to a connection: its data, if it is of the thread, for the connection, and
the connection is open. -/
theorem Routed.writtenBy_taskRan (hw : w.Routed evbs) {c : PoolConnection E P}
    (hc : c ∈ w.connections) {thread : A} {task : PoolTask E D} {v : IOThreadConnManager E P}
    (hv : w.pool.threadConnManagers[task.conn]? = some v)
    (loops : EventLoops E A (PoolTask E D)) (thread' : A) :
    (w.taskRan thread task v loops).writtenBy thread' c = w.writtenBy thread' c ++
      if thread' = thread ∧ task.conn = c.conn ∧ task.message.isFor c.connId = true ∧
        c.number ∉ w.closed then [task.message.data] else [] := by
  simp only [writtenBy, taskRan, List.filter_append, List.map_append, List.filter_map, List.map_map]
  congr 1
  by_cases h : thread' = thread ∧ task.conn = c.conn
  · obtain ⟨rfl, hconn⟩ := h
    have hwrites := congrArg (List.map Prod.snd) (hw.call_writes hc hv hconn)
    rw [List.map_map] at hwrites
    simp only [hconn, true_and, Function.comp_def] at hwrites ⊢
    rw [hwrites]
    split <;> rfl
  · rw [if_neg fun h' => h ⟨h'.1, h'.2.1⟩, List.map_eq_nil_iff, List.filter_eq_nil_iff]
    intro out _ he
    obtain ⟨hthread, hconn, -⟩ := of_decide_eq_true he
    exact h ⟨hthread.symm, hconn⟩

/-- What runs for a connection since it was opened: the message of the function, if it is of the thread
and for the connection. -/
theorem ranBy_take [DecidableEq E] {c : PoolConnection E P} (hsince : c.since ≤ (w.loops.ran c.evb).length)
    {thread : A} {evb : E} {task : PoolTask E D} {loops : EventLoops E A (PoolTask E D)}
    (htake : w.loops.take evb thread = some (task, loops))
    {written : List (PoolWrite A P D)} (thread' : A) :
    ranBy { w with loops, written } thread' c = w.ranBy thread' c ++
      if thread' = thread ∧ c.evb = evb ∧ task.message.isFor c.connId = true then [task.message]
      else [] := by
  unfold ranBy
  dsimp only
  rw [EventLoops.ranSince_take htake hsince, List.map_append, List.filter_append]
  congr 1
  by_cases h : thread' = thread ∧ c.evb = evb
  · rw [if_pos h.symm, List.map_singleton, List.filter_singleton]
    simp only [h, true_and]
    split <;> simp [*]
  · rw [if_neg fun h' => h h'.symm, if_neg fun h' => h ⟨h'.1, h'.2.1⟩]
    rfl

/-- While a connection is open it is given what runs for it. -/
theorem Given.taskRan [DecidableEq E] (hw : w.Given) (hr : w.Routed evbs) (hnodup : evbs.Nodup)
    {thread : A} {evb : E} {task : PoolTask E D} {v : IOThreadConnManager E P}
    {loops : EventLoops E A (PoolTask E D)}
    (htake : w.loops.take evb thread = some (task, loops))
    (hevb : evbs[task.conn]? = some evb) (hv : w.pool.threadConnManagers[task.conn]? = some v) :
    Given (w.taskRan thread task v loops) := by
  have hwritten : ∀ c ∈ w.connections, ∀ thread', (w.taskRan thread task v loops).writtenBy thread' c =
      w.writtenBy thread' c ++ if thread' = thread ∧ task.conn = c.conn ∧
        task.message.isFor c.connId = true ∧ c.number ∉ w.closed then [task.message.data] else [] :=
    fun c hc => hr.writtenBy_taskRan hc hv loops
  have hran : ∀ c ∈ w.connections, ∀ thread',
      (w.taskRan thread task v loops).ranBy thread' c =
        w.ranBy thread' c ++ if thread' = thread ∧ task.conn = c.conn ∧
          task.message.isFor c.connId = true then [task.message] else [] := by
    intro c hc thread'
    refine (ranBy_take (hw.since_le c hc) htake thread').trans ?_
    simp only [evb_eq_iff hnodup hevb (hr.evb c hc)]
  refine ⟨?_, ?_, ?_, ?_, ?_⟩
  · intro c hc
    refine Nat.le_trans (hw.since_le c hc) ?_
    rw [show (w.taskRan thread task v loops).loops = loops from rfl, EventLoops.ran_take htake]
    split
    · next he =>
      rw [he, List.length_append]
      exact Nat.le_add_right _ _
    · exact Nat.le_refl _
  · intro c hc thread' m hm
    refine hw.missed c hc thread' m ?_
    rw [missedBy, ← EventLoops.ranBefore_take htake (hw.since_le c hc)]
    exact hm
  · intro x hx
    rcases List.mem_append.1 hx with hx | hx
    · exact hw.connection x hx
    · obtain ⟨out, hout, rfl⟩ := List.mem_map.1 hx
      exact hr.call_connection hv hout
  · intro c hc thread'
    by_cases hclosed : c.number ∈ w.closed
    · rw [hwritten c hc, if_neg fun h => h.2.2.2 hclosed, List.append_nil, hran c hc, List.map_append]
      exact (hw.ran c hc thread').trans (List.prefix_append _ _)
    · rw [hwritten c hc, hran c hc, hw.ran_open c hc hclosed]
      simp only [hclosed, not_false_eq_true, and_true]
      split <;> simp
  · intro c hc hopen thread'
    have hopen' : c.number ∉ w.closed := hopen
    rw [hwritten c hc, hran c hc, hw.ran_open c hc hopen']
    simp only [hopen', not_false_eq_true, and_true]
    split <;> simp

end Writing

/-! ## Runs -/

/-- What a thread sent to a connection ran before the connection was opened, or since, or is queued, or
is still to be passed on. -/
theorem Ordered.sentTo_eq (hw : w.Ordered evbs) (hlen : evbs.length ≤ 2 ^ 32)
    {c : PoolConnection E P} (hc : c ∈ w.connections) (thread : A) :
    w.sentTo thread c = w.missedBy thread c ++ w.ranBy thread c ++
      (w.queuedBy thread c ++ w.pendingOn thread c.conn) := by
  have hfilter : w.sentTo thread c =
      (w.sentOn thread c.conn).filter (PoolMessage.isFor c.connId) := by
    rw [sentTo, sentOn, List.filter_map, List.filter_filter]
    congr 1
    refine List.filter_congr fun x _ => ?_
    rw [Function.comp_apply, Bool.eq_iff_iff, decide_eq_true_iff, Bool.and_eq_true,
      decide_eq_true_iff]
    constructor
    · rintro ⟨hthread, hfor⟩
      exact ⟨hfor, hthread, hw.routed.goesTo_of_isFor hlen hc hfor⟩
    · rintro ⟨hfor, hthread, -⟩
      exact ⟨hthread, hfor⟩
  have hpending : (w.pendingOn thread c.conn).filter (PoolMessage.isFor c.connId) =
      w.pendingOn thread c.conn := by
    refine List.filter_eq_self.2 fun m hm => ?_
    obtain ⟨x, -, rfl⟩ := List.mem_map.1 hm
    rfl
  rw [hfilter, hw.passed.order thread c.conn c.evb (hw.routed.evb c hc), List.filter_append, hpending]
  change ((w.loops.ranFrom _ _ ++ w.loops.queues _ _).map PoolTask.message).filter _ ++ _ = _
  rw [← w.loops.ranBefore_append_ranSince c.evb c.since, List.map_append, List.map_append,
    List.filter_append, List.filter_append, List.append_assoc]
  rfl

section Runs

variable [DecidableEq E] [DecidableEq P]

theorem Ordered.step (hw : w.Ordered evbs) (hnodup : evbs.Nodup)
    (hlen : evbs.length ≤ 2 ^ 32) {e : PoolEvent A E P D} (hl : Limited w e w')
    (h : step w e = some w') : w'.Ordered evbs := by
  obtain ⟨hrouted, hmoves⟩ := hw.routed.step hlen hl h
  refine ⟨hrouted, ?_, ?_⟩
  · cases hmoves with
    | tables pool closed hclosed => exact hw.passed.of_connections (List.Subset.refl _)
    | opened i evb connId pipeline serviceName pool hevb hnew =>
      exact hw.passed.of_connections (List.subset_cons_self _ _)
    | dispatch thread connId data evb hidle hissued hevb =>
      exact hw.passed.dispatch hnodup data hidle hissued hevb
    | broadCast thread data hidle => exact hw.passed.broadCast data hidle
    | post thread evb task todo htodo => exact hw.passed.post hnodup htodo
    | runTask evb thread task v loops htake hv => exact hw.passed.take htake
  · cases hmoves with
    | tables pool closed hclosed => exact hw.given.of_closed hclosed
    | opened i evb connId pipeline serviceName pool hevb hnew =>
      exact hw.given.opened hw.passed rfl hrouted.connId hnew
    | dispatch thread connId data evb hidle hissued hevb => exact hw.given.of_ran rfl
    | broadCast thread data hidle => exact hw.given.of_ran rfl
    | post thread evb task todo htodo => exact hw.given.of_ran rfl
    | runTask evb thread task v loops htake hv =>
      obtain ⟨hevb, -⟩ := hw.passed.task evb thread _ (EventLoops.mem_posted_of_take htake)
      exact hw.given.taskRan hw.routed hnodup htake hevb hv

/-- All that a step writes is written by a function that runs. -/
theorem step_written {e : PoolEvent A E P D} (h : step w e = some w') :
    w'.written = w.written ∨ ∃ thread task v loops,
      w.pool.threadConnManagers[PoolTask.conn task]? = some v ∧ w' = w.taskRan thread task v loops := by
  cases e with
  | onNewConnection pipeline eventBase serviceName =>
    obtain ⟨⟨connId, pool⟩, -, h⟩ := Option.bind_eq_some_iff.1 h
    dsimp only at h
    split at h <;> cases h <;> exact .inl rfl
  | onServerRegister pipeline eventBase serverName serverNumber =>
    cases h
    exact .inl rfl
  | onConnectionClosed number =>
    obtain ⟨c, -, h⟩ := Option.bind_eq_some_iff.1 h
    obtain ⟨⟨rv, pool⟩, -, hr⟩ := Option.bind_eq_some_iff.1 h
    cases hr
    exact .inl rfl
  | dispatchIOBufByConnID thread connId data =>
    unfold PoolSending.step at h
    dsimp only at h
    split at h
    · obtain ⟨⟨rv, task⟩, -, hr⟩ := Option.bind_eq_some_iff.1 h
      cases hr
      exact .inl rfl
    · cases h
  | broadCast thread data =>
    unfold PoolSending.step at h
    dsimp only at h
    split at h
    · obtain ⟨⟨rv, todo⟩, -, hr⟩ := Option.bind_eq_some_iff.1 h
      cases hr
      exact .inl rfl
    · cases h
  | post thread =>
    unfold PoolSending.step at h
    dsimp only at h
    split at h <;> cases h
    exact .inl rfl
  | runTask evb thread =>
    obtain ⟨⟨task, loops⟩, -, h⟩ := Option.bind_eq_some_iff.1 h
    obtain ⟨v, hv, hr⟩ := Option.bind_eq_some_iff.1 h
    cases hr
    exact .inr ⟨thread, task, v, loops, hv, rfl⟩

theorem Ordered.channel (hw : w.Ordered evbs) (hlen : evbs.length ≤ 2 ^ 32)
    {c : PoolConnection E P} (hc : c ∈ w.connections) (thread : A) :
    Channel w thread c := by
  have hsent := congrArg (List.map PoolMessage.data) (hw.sentTo_eq hlen hc thread)
  rw [List.map_append, List.map_append] at hsent
  refine ⟨?_, ?_, hw.given.missed c hc thread, ?_, ?_⟩
  · intro hopen
    rw [hsent, hw.given.ran_open c hc hopen]
  · obtain ⟨lost, hlost⟩ := hw.given.ran c hc thread
    refine ⟨lost, ?_⟩
    rw [hsent, ← hlost]
    simp only [List.append_assoc]
  · intro x hx hconn hlow
    obtain ⟨c', hc', hconn', hlow', hpipeline⟩ := hw.given.connection x hx
    rw [← hpipeline, hw.routed.key_inj c' hc' c hc (hconn'.trans hconn) (hlow'.trans hlow)]
  · intro hclosed e w' h
    rcases step_written h with hwritten | ⟨thread', task, v, loops, hv, rfl⟩
    · rw [writtenBy, hwritten]
      rfl
    · rw [hw.routed.writtenBy_taskRan hc hv, if_neg fun h' => h'.2.2.2 hclosed, List.append_nil]

/-- What is still to be passed on can be, and what is queued can run. -/
theorem Ordered.progress (hw : w.Ordered evbs) :
    (∀ thread, w.todo thread ≠ [] → (PoolSending.step w (.post thread)).isSome) ∧
      ∀ evb thread, w.loops.queues evb thread ≠ [] →
        (PoolSending.step w (.runTask evb thread)).isSome := by
  constructor
  · intro thread htodo
    obtain ⟨x, todo, hcons⟩ := List.exists_cons_of_ne_nil htodo
    rw [PoolSending.step, hcons]
    rfl
  · intro evb thread hqueue
    obtain ⟨task, loops, htake⟩ := EventLoops.exists_take hqueue
    obtain ⟨hevb, -⟩ := hw.passed.task evb thread _ (EventLoops.mem_posted_of_take htake)
    have hlt : task.conn < w.pool.threadConnManagers.length := by
      have hlen := congrArg List.length hw.routed.pool
      rw [List.length_map, List.length_map] at hlen
      rw [hlen]
      exact (List.getElem?_eq_some_iff.1 hevb).1
    rw [PoolSending.step, htake]
    simp only [Option.bind_eq_bind, Option.bind_some, List.getElem?_eq_getElem hlt]
    rfl

/-- **The channels of a pool.** On a pool whose threads have different event bases, whatever the threads
send while fewer than `2^32 - 1` connections are opened on each thread, and in whatever order the
functions run, the sends of a thread to a connection are a channel. All that is written goes to
connections, and no send is stuck. -/
theorem pool_in_order {evbs : List E} (hnodup : evbs.Nodup) (hlen : evbs.length ≤ 2 ^ 32)
    (es : List (PoolEvent A E P D)) (w : PoolSending A E P D)
    (h : run PoolSending.step (init evbs) es = some w)
    (hl : Along PoolSending.step Limited (init evbs) es) :
    (∀ c ∈ w.connections, ∀ thread, Channel w thread c) ∧
      (∀ x ∈ w.written, ∃ c ∈ w.connections, c.conn = x.conn ∧ low c.connId = x.connId) ∧
        (∀ thread, w.todo thread ≠ [] → (PoolSending.step w (.post thread)).isSome) ∧
          ∀ evb thread, w.loops.queues evb thread ≠ [] →
            (PoolSending.step w (.runTask evb thread)).isSome := by
  have hw : w.Ordered evbs :=
    hl.invariant (fun _ _ _ hq hw h => hw.step hnodup hlen hq h) (ordered_init evbs) h
  refine ⟨fun c hc thread => hw.channel hlen hc thread, fun x hx => ?_, hw.progress⟩
  obtain ⟨c, hc, hconn, hlow, -⟩ := hw.given.connection x hx
  exact ⟨c, hc, hconn, hlow⟩

/-- A second connection opens between the two functions of a broadcast. Its thread sends it data too,
and it closes. -/
def sendsToTwo : List (PoolEvent Bool ℕ ℕ ℕ) :=
  [.onNewConnection 7 10 "gate", .broadCast false 1, .post false, .runTask 10 false,
    .onNewConnection 8 10 "gate", .post false, .dispatchIOBufByConnID false 2 2,
    .dispatchIOBufByConnID true 2 3, .runTask 10 false, .broadCast false 4, .post false,
    .runTask 10 true, .onConnectionClosed 1, .runTask 10 false]

/-- The first thread was too early with a broadcast, and too late with the other one. -/
theorem pool_in_order_two_connections :
    ∃ (w : PoolSending Bool ℕ ℕ ℕ) (c : PoolConnection ℕ ℕ),
      run PoolSending.step (init [10, 20]) sendsToTwo = some w ∧
        w.connections.head? = some c ∧ Channel w false c ∧
          w.writtenBy false c = [2] ∧ w.writtenBy true c = [3] ∧
            (w.sentTo false c).map PoolMessage.data = [1, 2, 4] := by
  have hnodup : [10, 20].Nodup := by decide
  obtain ⟨hchannel, -⟩ := pool_in_order hnodup (by decide) sendsToTwo _ rfl (by decide)
  exact ⟨_, _, rfl, rfl, hchannel _ List.mem_cons_self false, by decide, by decide, by decide⟩

end Runs

end Streams

end PoolSending

end ServiceFramework.Net
