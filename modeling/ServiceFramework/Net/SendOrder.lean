import ServiceFramework.Lib.EventLoop
import ServiceFramework.Net.ServiceManager
import Mathlib.Data.List.Infix

/-!
# The order of sends

`Routing` lets the tasks of `SendIOBuf` run in any order. `runInEventBaseThread` keeps more: an event
base runs the functions that one thread passes to it first in first out. `Sending` has a queue for each
thread, and knows which thread sent what.

For one thread that sends and one connection these queues are a channel (`sends_in_order`): while
the connection is open, what the thread sent to it is what was written, in order and once, followed by
what is still queued; once it is closed nothing more is written, and what was written is the beginning
of what was sent. Every step but the running of a task is one of `Routing` (`step_toRouting`), whose
invariant tells which connection an id names.
-/

namespace ServiceFramework.Net

open Transition BitField

/-- What a pipeline was given: the thread that sent it, and the id it was sent to. -/
structure SendWrite (A P D : Type) where
  thread : A
  connId : UInt64
  pipeline : P
  data : D

/-- The threads and the connections, the tasks of all calls of `SendIOBuf` in order, each with the
thread that made the call, the queues of the event bases, one for each thread that sends, and what was
written. -/
structure Sending (A E P D : Type) where
  threads : IOThreads E P
  connections : List (Connection E P) := []
  closed : List ℕ := []
  sent : List (A × SendTask E D) := []
  loops : EventLoops E A (SendTask E D) := {}
  written : List (SendWrite A P D) := []

namespace Sending

variable {A E P D : Type}

/-- A thread starts, a connection opens or closes on its thread, a thread sends to an id that was
issued, an event base runs the first function of one of its queues. -/
inductive Event (A E P D : Type) where
  | threadStarted (threadType : ThreadType) (evb : E)
  | onNewConnection (evb : E) (pipeline : P)
  | onConnectionClosed (number : ℕ)
  | sendIOBuf (thread : A) (connId : UInt64) (data : D)
  | runTask (evb : E) (thread : A)

def init (options : List ThreadGroupOption) : Sending A E P D where
  threads := .init options

/-- What a thread sent to an id, in order. -/
def sentBy [DecidableEq A] (s : Sending A E P D) (thread : A) (connId : UInt64) : List D :=
  (s.sent.filter fun x => x.1 = thread ∧ x.2.connId = connId).map fun x => x.2.data

/-- What was written of it. -/
def writtenBy [DecidableEq A] (s : Sending A E P D) (thread : A) (connId : UInt64) : List D :=
  (s.written.filter fun x => x.thread = thread ∧ x.connId = connId).map SendWrite.data

section Step

variable [DecidableEq A] [DecidableEq E]

/-- What a thread sent to a connection and is still queued, in order. -/
def queuedBy (s : Sending A E P D) (thread : A) (c : Connection E P) : List D :=
  ((s.loops.queues c.evb thread).filter fun task => task.connId = c.connId).map SendTask.data

def step (s : Sending A E P D) : Event A E P D → Option (Sending A E P D)
  | .threadStarted threadType evb =>
    -- a thread is started once, with an event base of its own
    if s.threads.IsStarted evb then
      none
    else do
      let threads ← s.threads.threadStarted threadType evb
      return { s with threads }
  | .onNewConnection evb pipeline =>
    if s.threads.IsStarted evb then do
      let (connId, m) ← (s.threads.connManagers evb).onNewConnection pipeline
      return { s with
        threads.connManagers := Function.update s.threads.connManagers evb m
        connections := { number := s.connections.length, evb, connId, pipeline } :: s.connections }
    else
      none
  | .onConnectionClosed number => do
    let c ← s.connections.find? fun c => c.number = number
    let (_, m) := (s.threads.connManagers c.evb).onConnectionClosed c.connId c.pipeline
    return { s with
      threads.connManagers := Function.update s.threads.connManagers c.evb m
      closed := number :: s.closed }
  | .sendIOBuf thread connId data =>
    if s.connections.any fun c => c.connId = connId then do
      let (_, task) ← ServiceManager.sendIOBuf s.threads.groups connId data
      match task with
      | none => return s
      | some task =>
        return { s with
          sent := s.sent ++ [(thread, task)]
          loops := s.loops.post task.evb thread task }
    else
      none
  | .runTask evb thread => do
    let (task, loops) ← s.loops.take evb thread
    let (_, out) := (s.threads.connManagers evb).sendIOBufByConnID task.connId task.data
    return { s with
      loops
      written := s.written ++ out.toList.map fun out =>
        { thread, connId := task.connId, pipeline := out.1, data := out.2 } }

/-- At most `2^32` threads started and fewer than `2^32 - 1` connections opened on each. -/
def Limited (_ : Sending A E P D) (_ : Event A E P D) (s' : Sending A E P D) : Prop :=
  s'.threads.groups.threadDatas.length ≤ 2 ^ 32 ∧
    ∀ c ∈ s'.connections, (s'.connections.filter fun c' => c'.evb = c.evb).length < 2 ^ 32 - 1

instance (s : Sending A E P D) (e : Event A E P D) (s' : Sending A E P D) :
    Decidable (Limited s e s') :=
  inferInstanceAs (Decidable (_ ≤ 2 ^ 32 ∧ ∀ c ∈ s'.connections, _ < 2 ^ 32 - 1))

/-- The sends of a thread to a connection are a channel, which ends when the connection is closed. -/
structure Channel (s : Sending A E P D) (thread : A) (c : Connection E P) : Prop where
  in_order : c.number ∉ s.closed →
    s.sentBy thread c.connId = s.writtenBy thread c.connId ++ s.queuedBy thread c
  beginning : s.writtenBy thread c.connId <+: s.sentBy thread c.connId
  pipeline : ∀ x ∈ s.written, x.connId = c.connId → x.pipeline = c.pipeline
  closed : c.number ∈ s.closed → ∀ e s', step s e = some s' →
    s'.writtenBy thread c.connId = s.writtenBy thread c.connId

/-! ## As routing -/

/-- The threads and connections, with the tasks of all calls. -/
def toRouting (s : Sending A E P D) : Routing E P D where
  threads := s.threads
  connections := s.connections
  closed := s.closed
  queued := s.sent.map Prod.snd
  written := []

/-- The event of `Routing` that an event is, unless a task runs. -/
def Event.toRouting : Event A E P D → Option (Routing.Event E P D)
  | .threadStarted threadType evb => some (.threadStarted threadType evb)
  | .onNewConnection evb pipeline => some (.onNewConnection evb pipeline)
  | .onConnectionClosed number => some (.onConnectionClosed number)
  | .sendIOBuf _ connId data => some (.sendIOBuf connId data)
  | .runTask _ _ => none

variable {s s' : Sending A E P D}

/-- A step that runs no task is one of `Routing`. -/
theorem step_toRouting {e : Event A E P D} {f : Routing.Event E P D} (he : e.toRouting = some f)
    (h : step s e = some s') : Routing.step s.toRouting f = some s'.toRouting := by
  cases e with
  | threadStarted threadType evb =>
    cases he
    simp only [step] at h
    split at h
    · cases h
    · next hnew =>
      obtain ⟨threads, ht, hr⟩ := Option.bind_eq_some_iff.1 h
      cases hr
      simp only [Routing.step, toRouting, ht, if_neg hnew]
      rfl
  | onNewConnection evb pipeline =>
    cases he
    simp only [step] at h
    split at h
    · next hstarted =>
      obtain ⟨⟨connId, m⟩, ho, hr⟩ := Option.bind_eq_some_iff.1 h
      cases hr
      simp only [Routing.step, toRouting, if_pos hstarted, ho]
      rfl
    · cases h
  | onConnectionClosed number =>
    cases he
    obtain ⟨c, hfind, hr⟩ := Option.bind_eq_some_iff.1 h
    cases hr
    simp only [Routing.step, toRouting, hfind]
    rfl
  | sendIOBuf thread connId data =>
    cases he
    simp only [step] at h
    split at h
    · next hany =>
      obtain ⟨⟨rv, task⟩, hsend, hr⟩ := Option.bind_eq_some_iff.1 h
      simp only [Routing.step, toRouting, if_pos hany, hsend]
      cases task with
      | none =>
        cases hr
        simp
      | some task =>
        cases hr
        simp
    · cases h
  | runTask evb thread => cases he

theorem limited_toRouting {e : Event A E P D} {f : Routing.Event E P D} (he : e.toRouting = some f)
    (h : step s e = some s') (hl : Limited s e s') :
    Routing.Limited s.toRouting f s'.toRouting := by
  refine ⟨hl.1, ?_⟩
  cases e with
  | onNewConnection evb pipeline =>
    cases he
    simp only [step] at h
    split at h
    · obtain ⟨⟨connId, m⟩, ho, hr⟩ := Option.bind_eq_some_iff.1 h
      cases hr
      exact hl.2 _ List.mem_cons_self
    · cases h
  | runTask evb thread => cases he
  | threadStarted threadType evb =>
    cases he
    trivial
  | onConnectionClosed number =>
    cases he
    trivial
  | sendIOBuf thread connId data =>
    cases he
    trivial

omit [DecidableEq A] in
/-- The task of a call writes to the connection its id names, or nowhere when that one is closed. -/
theorem sendIOBufByConnID_eq (hs : s.toRouting.Routes) {x : A × SendTask E D} (hx : x ∈ s.sent)
    {c : Connection E P} (hc : c ∈ s.connections) (hid : c.connId = x.2.connId) :
    ((s.threads.connManagers x.2.evb).sendIOBufByConnID x.2.connId x.2.data).2 =
      if c.number ∈ s.closed then none else some (c.pipeline, x.2.data) := by
  obtain ⟨i, hi⟩ := List.mem_iff_getElem?.1 (List.mem_map_of_mem hx (f := Prod.snd))
  have h := hs.runTask (w := s.toRouting) hi hc hid
  have hqueued : s.toRouting.queued[i]? = some x.2 := hi
  simp only [Routing.step, hqueued, Option.bind_eq_bind, Option.bind_some] at h
  have hwritten : ((s.threads.connManagers x.2.evb).sendIOBufByConnID x.2.connId
      x.2.data).2.toList = if c.number ∈ s.closed then [] else [(c.pipeline, x.2.data)] :=
    congrArg Routing.written (Option.some.inj h)
  split
  · next hclosed =>
    rw [if_pos hclosed] at hwritten
    exact Option.toList_eq_nil_iff.1 hwritten
  · next hopen =>
    rw [if_neg hopen] at hwritten
    exact Option.toList_eq_singleton_iff.1 hwritten

/-! ## The channels -/

/-- The tasks of a thread for a connection that ran, in order. -/
def ranBy (s : Sending A E P D) (thread : A) (c : Connection E P) :
    List D :=
  ((s.loops.ranFrom c.evb thread).filter fun task => task.connId = c.connId).map SendTask.data

/-- What was passed to the queues is what was sent, and what a connection was given is what ran before
it was closed. -/
structure InOrder (s : Sending A E P D) : Prop where
  routes : s.toRouting.Routes
  posted : ∀ evb thread, s.loops.posted evb thread =
    (s.sent.filter fun x => x.1 = thread ∧ x.2.evb = evb).map Prod.snd
  written : ∀ x ∈ s.written, ∃ c ∈ s.connections, c.connId = x.connId ∧ c.pipeline = x.pipeline
  ran : ∀ c ∈ s.connections, ∀ thread,
    s.writtenBy thread c.connId <+: s.ranBy thread c
  ran_open : ∀ c ∈ s.connections, c.number ∉ s.closed → ∀ thread,
    s.writtenBy thread c.connId = s.ranBy thread c

/-- What a thread sent to a connection has run or is queued. -/
theorem InOrder.sentBy_eq (hs : InOrder s) {c : Connection E P} (hc : c ∈ s.connections)
    (thread : A) : s.sentBy thread c.connId =
      s.ranBy thread c ++ s.queuedBy thread c := by
  rw [ranBy, queuedBy, ← List.map_append, ← List.filter_append]
  change _ = ((s.loops.posted c.evb thread).filter _).map _
  rw [hs.posted, List.filter_map, List.map_map, List.filter_filter, sentBy]
  refine congrArg (List.map _) (List.filter_congr fun x hx => ?_)
  rw [Function.comp_apply, ← Bool.decide_and, decide_eq_decide]
  constructor
  · rintro ⟨rfl, hid⟩
    obtain ⟨c', hc', hid', hevb⟩ := hs.routes.task x.2 (List.mem_map_of_mem hx)
    have hevb' : c'.evb = c.evb := hs.routes.evb_eq hc' hc (hid'.trans hid)
    exact ⟨hid, rfl, hevb.symm.trans hevb'⟩
  · exact fun h => ⟨h.2.1, h.1⟩

theorem inOrder_init (options : List ThreadGroupOption) :
    InOrder (init options : Sending A E P D) where
  routes := Routing.routes_init options
  posted _ _ := rfl
  written x hx := by cases hx
  ran c hc := by cases hc
  ran_open c hc := by cases hc

/-- Nothing was sent under an id, or written, or ran, that was not issued. -/
theorem InOrder.not_issued (hs : InOrder s) {c : Connection E P}
    (hc : ∀ c' ∈ s.connections, c'.connId ≠ c.connId) (thread : A) :
    s.writtenBy thread c.connId = [] ∧ s.ranBy thread c = [] := by
  constructor
  · rw [writtenBy, List.map_eq_nil_iff, List.filter_eq_nil_iff]
    intro x hx he
    obtain ⟨c', hc', hid, -⟩ := hs.written x hx
    exact hc c' hc' (hid.trans (of_decide_eq_true he).2)
  · rw [ranBy, List.map_eq_nil_iff, List.filter_eq_nil_iff]
    intro x hx he
    have hposted := (s.loops.ranFrom_prefix _ _).subset hx
    rw [hs.posted] at hposted
    obtain ⟨y, hy, rfl⟩ := List.mem_map.1 hposted
    obtain ⟨c', hc', hid, -⟩ :=
      hs.routes.task y.2 (List.mem_map_of_mem (List.mem_filter.1 hy).1)
    exact hc c' hc' (hid.trans (of_decide_eq_true he))

/-- The task that runs was sent by its thread to a connection. Of what its thread sent to that
connection one more has run, and is written if the connection is open; of what others sent, or was sent
to others, no more. -/
theorem InOrder.runTask_cases (hs : InOrder s) {evb : E} {sender : A}
    (h : step s (.runTask evb sender) = some s') :
    ∃ task : SendTask E D, ∃ c ∈ s.connections, ∃ loops written, s' = { s with loops, written } ∧
      loops.posted = s.loops.posted ∧
      (∀ y ∈ written, y ∈ s.written ∨ y.connId = c.connId ∧ y.pipeline = c.pipeline) ∧
      (∀ c' ∈ s.connections, task.connId = c'.connId → c' = c) ∧
      (∀ c' ∈ s.connections, ∀ thread, s'.ranBy thread c' = s.ranBy thread c' ++
        if sender = thread ∧ task.connId = c'.connId then [task.data] else []) ∧
      ∀ thread connId, s'.writtenBy thread connId = s.writtenBy thread connId ++
        if c.number ∉ s.closed ∧ sender = thread ∧ task.connId = connId then [task.data] else [] := by
  obtain ⟨⟨task, loops⟩, htake, hr⟩ := Option.bind_eq_some_iff.1 h
  have hposted := EventLoops.mem_posted_of_take htake
  rw [hs.posted] at hposted
  obtain ⟨x, hx, rfl⟩ := List.mem_map.1 hposted
  rw [List.mem_filter, decide_eq_true_iff] at hx
  obtain ⟨hsent, rfl, rfl⟩ := hx
  obtain ⟨c, hc, hid, hevb⟩ := hs.routes.task x.2 (List.mem_map_of_mem hsent)
  have hs' : s' = { s with
      loops
      written := s.written ++ (if c.number ∈ s.closed then none else
        some (c.pipeline, x.2.data)).toList.map fun out =>
          { thread := x.1, connId := x.2.connId, pipeline := out.1, data := out.2 } } := by
    rw [← sendIOBufByConnID_eq hs.routes hsent hc hid]
    exact (Option.some.inj hr).symm
  refine ⟨x.2, c, hc, _, _, hs', EventLoops.posted_take htake, ?_, ?_, ?_, ?_⟩
  · intro y hy
    rcases List.mem_append.1 hy with hy | hy
    · exact .inl hy
    · split at hy
      · cases hy
      · obtain ⟨out, hout, rfl⟩ := List.mem_map.1 hy
        cases List.mem_singleton.1 hout
        exact .inr ⟨hid.symm, rfl⟩
  · intro c' hc' hx
    exact List.inj_on_of_nodup_map hs.routes.issued_once hc' hc (hx.symm.trans hid.symm)
  · intro c' hc' thread
    rw [hs', ranBy, EventLoops.ranFrom_take htake, ranBy]
    by_cases hx : x.1 = thread ∧ x.2.connId = c'.connId
    · obtain ⟨rfl, hid'⟩ := hx
      have hevb' : c'.evb = x.2.evb := (hs.routes.evb_eq hc' hc (hid'.symm.trans hid.symm)).trans hevb
      rw [if_pos ⟨hevb', rfl⟩, List.filter_append, List.map_append, hevb']
      simp [hid']
    · rw [if_neg hx, List.append_nil]
      split
      · next he =>
        obtain ⟨hevb', rfl⟩ := he
        have hother : ¬ x.2.connId = c'.connId := fun h => hx ⟨rfl, h⟩
        rw [hevb', List.filter_append, List.map_append]
        simp [hother]
      · rfl
  · intro thread connId
    rw [hs', writtenBy, List.filter_append, List.map_append]
    congr 1
    by_cases hclosed : c.number ∈ s.closed
    · simp [hclosed]
    · by_cases hx : x.1 = thread ∧ x.2.connId = connId
      · simp [hclosed, hx]
      · simp [hclosed, hx]

theorem InOrder.runTask (hs : InOrder s) {evb : E} {sender : A}
    (h : step s (.runTask evb sender) = some s') : InOrder s' := by
  obtain ⟨task, c, hc, loops, written, hs', hposted, hfrom, hsame, hran, hwritten⟩ :=
    hs.runTask_cases h
  have hconnections : s'.connections = s.connections := by rw [hs']
  have hclosed : s'.closed = s.closed := by rw [hs']
  refine ⟨?_, ?_, ?_, ?_, ?_⟩
  · rw [hs']
    exact hs.routes
  · intro evb thread
    rw [hs', hposted]
    exact hs.posted evb thread
  · intro y hy
    rw [hs'] at hy ⊢
    rcases hfrom y hy with hy | ⟨hid, hp⟩
    · exact hs.written y hy
    · exact ⟨c, hc, hid.symm, hp.symm⟩
  · intro c' hc' thread
    rw [hconnections] at hc'
    rw [hran c' hc', hwritten]
    by_cases hx : sender = thread ∧ task.connId = c'.connId
    · rw [if_pos hx]
      obtain rfl := hsame c' hc' hx.2
      by_cases hopen : c'.number ∈ s.closed
      · rw [if_neg fun h => h.1 hopen, List.append_nil]
        exact (hs.ran c' hc' thread).trans (List.prefix_append _ _)
      · rw [if_pos ⟨hopen, hx⟩, hs.ran_open c' hc' hopen]
    · rw [if_neg hx, if_neg fun h => hx h.2, List.append_nil, List.append_nil]
      exact hs.ran c' hc' thread
  · intro c' hc' hopen thread
    rw [hconnections] at hc'
    rw [hclosed] at hopen
    rw [hran c' hc', hwritten, hs.ran_open c' hc' hopen]
    congr 1
    by_cases hx : sender = thread ∧ task.connId = c'.connId
    · rw [if_pos hx, if_pos ⟨hsame c' hc' hx.2 ▸ hopen, hx⟩]
    · rw [if_neg hx, if_neg fun h => hx h.2]

theorem InOrder.step (hs : InOrder s) {e : Event A E P D}
    (h : step s e = some s') (hl : Limited s e s') : InOrder s' := by
  have hroutes : ∀ f, e.toRouting = some f → s'.toRouting.Routes := fun f hf =>
    Routing.routes_step (limited_toRouting hf h hl) hs.routes (step_toRouting hf h)
  cases e with
  | threadStarted threadType evb =>
    replace hroutes := hroutes _ rfl
    simp only [Sending.step] at h
    split at h
    · cases h
    · obtain ⟨threads, -, hr⟩ := Option.bind_eq_some_iff.1 h
      cases hr
      exact ⟨hroutes, hs.posted, hs.written, hs.ran, hs.ran_open⟩
  | onNewConnection evb pipeline =>
    replace hroutes := hroutes _ rfl
    simp only [Sending.step] at h
    split at h
    · obtain ⟨⟨connId, m⟩, -, hr⟩ := Option.bind_eq_some_iff.1 h
      cases hr
      have hnew : ∀ c' ∈ s.connections, c'.connId ≠ connId := fun c' hc' he =>
        (List.nodup_cons.1 hroutes.issued_once).1 (List.mem_map.2 ⟨c', hc', he⟩)
      refine ⟨hroutes, hs.posted, ?_, ?_, ?_⟩
      · intro x hx
        obtain ⟨c, hc, hrest⟩ := hs.written x hx
        exact ⟨c, List.mem_cons_of_mem _ hc, hrest⟩
      · intro c hc thread
        rcases List.mem_cons.1 hc with rfl | hc
        · obtain ⟨hwritten, hran⟩ := hs.not_issued
            (c := ⟨s.connections.length, evb, connId, pipeline⟩) hnew thread
          exact hwritten ▸ List.nil_prefix
        · exact hs.ran c hc thread
      · intro c hc hopen thread
        rcases List.mem_cons.1 hc with rfl | hc
        · obtain ⟨hwritten, hran⟩ := hs.not_issued
            (c := ⟨s.connections.length, evb, connId, pipeline⟩) hnew thread
          exact hwritten.trans hran.symm
        · exact hs.ran_open c hc hopen thread
    · cases h
  | onConnectionClosed number =>
    replace hroutes := hroutes _ rfl
    obtain ⟨c, -, hr⟩ := Option.bind_eq_some_iff.1 h
    cases hr
    exact ⟨hroutes, hs.posted, hs.written, hs.ran, fun c' hc' hopen thread =>
      hs.ran_open c' hc' (fun hclosed => hopen (List.mem_cons_of_mem _ hclosed)) thread⟩
  | sendIOBuf thread connId data =>
    replace hroutes := hroutes _ rfl
    simp only [Sending.step] at h
    split at h
    · obtain ⟨⟨rv, task⟩, -, hr⟩ := Option.bind_eq_some_iff.1 h
      cases task with
      | none =>
        cases hr
        exact hs
      | some task =>
        cases hr
        refine ⟨hroutes, ?_, hs.written, hs.ran, hs.ran_open⟩
        intro evb thread'
        rw [EventLoops.posted_post, List.filter_append, List.map_append, hs.posted, hs.posted]
        split
        · next he =>
          rw [he.1, he.2]
          simp
        · next he =>
          have hnot : ¬(thread = thread' ∧ task.evb = evb) := by
            rintro ⟨rfl, rfl⟩
            exact he ⟨rfl, rfl⟩
          simp [hnot]
    · cases h
  | runTask evb sender => exact hs.runTask h

/-- A connection that is closed is written to no more. -/
theorem InOrder.writtenBy_closed (hs : InOrder s) {e : Event A E P D}
    (h : Sending.step s e = some s') {c : Connection E P} (hc : c ∈ s.connections)
    (hclosed : c.number ∈ s.closed) (thread : A) :
    s'.writtenBy thread c.connId = s.writtenBy thread c.connId := by
  cases e with
  | runTask evb sender =>
    obtain ⟨task, c', hc', loops, written, -, -, -, hsame, -, hwritten⟩ := hs.runTask_cases h
    rw [hwritten, if_neg, List.append_nil]
    rintro ⟨hopen, hx⟩
    exact hopen (hsame c hc hx.2 ▸ hclosed)
  | threadStarted threadType evb =>
    simp only [Sending.step] at h
    split at h
    · cases h
    · obtain ⟨threads, -, hr⟩ := Option.bind_eq_some_iff.1 h
      cases hr
      rfl
  | onNewConnection evb pipeline =>
    simp only [Sending.step] at h
    split at h
    · obtain ⟨⟨connId, m⟩, -, hr⟩ := Option.bind_eq_some_iff.1 h
      cases hr
      rfl
    · cases h
  | onConnectionClosed number =>
    obtain ⟨c, -, hr⟩ := Option.bind_eq_some_iff.1 h
    cases hr
    rfl
  | sendIOBuf thread connId data =>
    simp only [Sending.step] at h
    split at h
    · obtain ⟨⟨rv, task⟩, -, hr⟩ := Option.bind_eq_some_iff.1 h
      cases task <;> cases hr <;> rfl
    · cases h

theorem InOrder.channel (hs : InOrder s) {c : Connection E P} (hc : c ∈ s.connections)
    (thread : A) : Channel s thread c where
  in_order hopen := by rw [hs.sentBy_eq hc, hs.ran_open c hc hopen]
  beginning := by
    rw [hs.sentBy_eq hc]
    exact (hs.ran c hc thread).trans (List.prefix_append _ _)
  pipeline x hx hid := by
    obtain ⟨c', hc', hid', hp⟩ := hs.written x hx
    rw [← hp, List.inj_on_of_nodup_map hs.routes.issued_once hc' hc (hid'.trans hid)]
  closed hclosed _ _ h := hs.writtenBy_closed h hc hclosed thread

/-- **Sends arrive in order, once.** After every run with at most `2^32` threads and fewer than
`2^32 - 1` connections opened on each: whatever is written goes to the connection its id was issued
for, and what a thread sent to a connection that is open is what was written to it, followed by what is
queued. To a connection that is closed the beginning of it was written, and no more is from then on. A
queue that is not empty can always be run from. -/
theorem sends_in_order (options : List ThreadGroupOption)
    (es : List (Event A E P D)) (h : run Sending.step (init options) es = some s)
    (hl : Along Sending.step Limited (init options) es) :
    (∀ c ∈ s.connections, ∀ thread, Channel s thread c) ∧
      (∀ x ∈ s.written, ∃ c ∈ s.connections, c.connId = x.connId) ∧
      ∀ evb thread, s.loops.queues evb thread ≠ [] →
        (Sending.step s (.runTask evb thread)).isSome := by
  have hs : InOrder s :=
    hl.invariant (fun _ _ _ hl hs h => hs.step h hl) (inOrder_init options) h
  refine ⟨fun c hc thread => hs.channel hc thread, ?_, ?_⟩
  · intro x hx
    obtain ⟨c, hc, hid, -⟩ := hs.written x hx
    exact ⟨c, hc, hid⟩
  · intro evb thread hqueue
    obtain ⟨t, loops, htake⟩ := EventLoops.exists_take hqueue
    simp [Sending.step, htake]

/-- Two threads send to a connection of the first one, which is closed while two of the four tasks are
queued. -/
def threeSends : List (Event Bool Bool ℕ ℕ) :=
  [.threadStarted .connAccept false, .threadStarted .connAccept true, .onNewConnection false 7,
    .sendIOBuf false 1 3, .sendIOBuf true 1 4, .sendIOBuf true 1 5, .sendIOBuf false 1 6,
    .runTask false true, .runTask false false, .onConnectionClosed 0, .runTask false true]

theorem sends_in_order_three_sends :
    ∃ s, run Sending.step (init [⟨.connAccept, 2⟩]) threeSends = some s ∧
      s.written.map SendWrite.data = [4, 3] ∧
      ∀ c ∈ s.connections, s.writtenBy true c.connId <+: s.sentBy true c.connId := by
  have hrun : (run Sending.step (init [⟨.connAccept, 2⟩]) threeSends).map
      (fun s => s.written.map SendWrite.data) = some [4, 3] := by decide +kernel
  obtain ⟨s, hs, hwritten⟩ := Option.map_eq_some_iff.1 hrun
  have hchannels := (sends_in_order [⟨.connAccept, 2⟩] threeSends hs (by decide +kernel)).1
  exact ⟨s, hs, hwritten, fun c hc => (hchannels c hc true).beginning⟩

end Step

end Sending

end ServiceFramework.Net
