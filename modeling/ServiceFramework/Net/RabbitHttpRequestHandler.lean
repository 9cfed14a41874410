import ServiceFramework.Lib.SharedCount
import ServiceFramework.Lib.Table
import ServiceFramework.Lib.Transition
import Mathlib

/-!
# One HTTP request

`RabbitHttpRequestHandler` (`net/rabbit_http_request_handler.cc`) collects a request, and when it is
complete queues a fiber task that has it handled and sends the response. The handler object owns
itself: `onEOM` makes the shared pointer `self`, and `onError` and `requestComplete` reset it.

The object is destroyed exactly once if `onEOM` found the fibers of the thread initialised, and
otherwise never (`released_once_iff`). The task asks its weak pointer before each use of the object
but the first, so it uses a destroyed object exactly if its first run comes after the end of the
request (`no_use_after_destroy_iff`).
-/

namespace ServiceFramework.Net

open Transition

/-! ## Handlers -/

/-- What the handlers read of `proxygen::HTTPMessage`. -/
structure HTTPMessage where
  path : String
  deriving DecidableEq

/-- The members of `RabbitHttpHandlerFactory`: the functions by path, a null pointer being
`none`. -/
structure RabbitHttpHandlerFactory (H : Type) where
  factories : Table String (Option H) := ∅

namespace RabbitHttpHandlerFactory

variable {H : Type}

/-- The constructor of `RegisterTemplate`. -/
def registerTemplate (f : RabbitHttpHandlerFactory H) (path : String) (func : Option H) :
    RabbitHttpHandlerFactory H where
  factories := f.factories.insertNew path func

/-- The function that `DispatchRabbitHttpHandler` calls; it returns at once if there is none. -/
def dispatchRabbitHttpHandler (f : RabbitHttpHandlerFactory H) (headers : HTTPMessage) : Option H :=
  (f.factories.find headers.path).bind id

end RabbitHttpHandlerFactory

/-- A call on a `proxygen::ResponseBuilder`. -/
inductive BuilderCall where
  | status (code : ℕ) (message : String)
  | header (name value : String)
  | body (data : ByteArray)
  deriving DecidableEq

/-- A builder, and the response it sends: the calls made on it. -/
abbrev ResponseBuilder := List BuilderCall

/-- How a run of a handler ends: in a suspension, or it returns, or it throws. `what` is that of a
`std::exception`. -/
inductive HandlerOutcome where
  | suspends
  | returns
  | throws (what : Option String)
  deriving DecidableEq

/-! ## The request -/

/-- Where a request is: constructed, being received, received, or over. -/
inductive RequestPhase where
  | constructed
  | receiving
  | received
  | over
  deriving DecidableEq

/-- The fiber task that `onEOM` queues. While it sends the response it owns the object. It is
`faulted` once it used a destroyed object. -/
inductive HttpTask where
  | notQueued
  | queued
  | suspended (r : ResponseBuilder)
  | sending
  | ended
  | faulted
  deriving DecidableEq

/-- The members of `RabbitHttpRequestHandler`. The others are not members: the control block of
`self`, what the server did so far, the task and the responses it sent, whether `onEOM` came and
found the fibers initialised, what `OnHttpHandler` was called with, and what the handler did to its
builder and how it ended. -/
structure RabbitHttpRequestHandler (D : Type) where
  request : Option HTTPMessage := none
  requestBody : List D := []
  self : Bool := false
  shared : SharedCount := {}
  phase : RequestPhase := .constructed
  errored : Bool := false
  task : HttpTask := .notQueued
  sent : List ResponseBuilder := []
  eom : Option Bool := none
  handed : Option (HTTPMessage × List D) := none
  calls : List BuilderCall := []
  outcome : Option HandlerOutcome := none

/-- What happens to a request. `inited` is `IsInited` of the thread's `FiberDataManager`. When the
task runs, the handler makes calls on its builder. -/
inductive HttpRequestEvent (D : Type) where
  | onRequest (headers : HTTPMessage)
  | onBody (body : D)
  | onEOM (inited : Bool)
  | onError
  | requestComplete
  | runTask (calls : List BuilderCall) (outcome : HandlerOutcome)
  | sentWithEOM

namespace RabbitHttpRequestHandler

variable {D H : Type}

def onRequest (x : RabbitHttpRequestHandler D) (headers : HTTPMessage) :
    RabbitHttpRequestHandler D :=
  { x with request := some headers }

def onBody (x : RabbitHttpRequestHandler D) (body : D) : RabbitHttpRequestHandler D :=
  { x with requestBody := x.requestBody ++ [body] }

/-- `onEOM`: `capture_ptr` is the first owner, `self` the second, and `capture_ptr` ends with the
function. -/
def onEOM (x : RabbitHttpRequestHandler D) (inited : Bool) : RabbitHttpRequestHandler D :=
  if inited then
    { x with self := true, shared := SharedCount.make.retain.release, task := .queued }
  else
    x

/-- `self.reset()`, all that `onError` and `requestComplete` do. -/
def resetSelf (x : RabbitHttpRequestHandler D) : RabbitHttpRequestHandler D :=
  if x.self then { x with self := false, shared := x.shared.release } else x

def onError (x : RabbitHttpRequestHandler D) : RabbitHttpRequestHandler D := x.resetSelf

def requestComplete (x : RabbitHttpRequestHandler D) : RabbitHttpRequestHandler D := x.resetSelf

/-- The builder that the task makes first. -/
def okBuilder : ResponseBuilder := [.status 200 "OK"]

/-- The response to an exception. -/
def errorBuilder (what : Option String) : ResponseBuilder :=
  [.status 500 "Internal Server Error", .body (what.getD "Unknown exception thrown").toUTF8]

/-- The task once the handler returned or threw: the weak pointer is locked, and `r` is sent. -/
def lockAndSend (x : RabbitHttpRequestHandler D) (r : ResponseBuilder) :
    RabbitHttpRequestHandler D :=
  match x.shared.lock with
  | none => { x with task := .ended }
  | some shared => { x with shared, sent := x.sent ++ [r], task := .sending }

/-- The task from a call or a resumption of the handler, with the builder `r`, until it is suspended
again or ends. -/
def runHandler (x : RabbitHttpRequestHandler D) (r : ResponseBuilder) (calls : List BuilderCall)
    (outcome : HandlerOutcome) : RabbitHttpRequestHandler D :=
  let x := { x with calls := x.calls ++ calls }
  match outcome with
  | .suspends => { x with task := .suspended (r ++ calls) }
  | .returns => { x with outcome := some .returns }.lockAndSend (r ++ calls)
  | .throws what => { x with outcome := some (.throws what) }.lockAndSend (errorBuilder what)

/-- A run of the task. Its first run uses `downstream_`, `request_` and `requestBody_` as they are;
`requestBody_.move()` leaves the body empty. -/
def runTask (x : RabbitHttpRequestHandler D) (calls : List BuilderCall) (outcome : HandlerOutcome) :
    Option (RabbitHttpRequestHandler D) :=
  match x.task with
  | .queued =>
    if x.shared.destroyed ≠ 0 then
      some { x with task := .faulted }
    else
      match x.request with
      | none => some { x with task := .faulted }
      | some headers =>
        some ({ x with requestBody := [], handed := some (headers, x.requestBody) }.runHandler
          okBuilder calls outcome)
  | .suspended r => some (x.runHandler r calls outcome)
  | _ => none

/-- The response is sent, and the task gives up its share. -/
def sentWithEOM (x : RabbitHttpRequestHandler D) : RabbitHttpRequestHandler D :=
  { x with shared := x.shared.release, task := .ended }

/-- Where no function is registered for the path, `OnHttpHandler` returns at once. -/
def CanRun (f : RabbitHttpHandlerFactory H) (x : RabbitHttpRequestHandler D)
    (calls : List BuilderCall) (outcome : HandlerOutcome) : Bool :=
  match x.request.bind f.dispatchRabbitHttpHandler with
  | some _ => true
  | none => calls = [] ∧ outcome = .returns

/-- The server delivers the request in order, and ends it once. -/
def step (f : RabbitHttpHandlerFactory H) (x : RabbitHttpRequestHandler D) :
    HttpRequestEvent D → Option (RabbitHttpRequestHandler D)
  | .onRequest headers =>
    if x.phase = .constructed then
      some ({ x with phase := .receiving }.onRequest headers)
    else
      none
  | .onBody body => if x.phase = .receiving then some (x.onBody body) else none
  | .onEOM inited =>
    if x.phase = .receiving then
      some ({ x with phase := .received, eom := some inited }.onEOM inited)
    else
      none
  | .onError =>
    if x.phase = .receiving ∨ x.phase = .received then
      some { x with phase := .over, errored := true }.onError
    else
      none
  | .requestComplete =>
    if x.phase = .receiving ∨ x.phase = .received then
      some { x with phase := .over }.requestComplete
    else
      none
  | .runTask calls outcome => if CanRun f x calls outcome then x.runTask calls outcome else none
  | .sentWithEOM => if x.task = .sending then some x.sentWithEOM else none

/-! ## All that a step can do -/

variable {f : RabbitHttpHandlerFactory H} {x x' : RabbitHttpRequestHandler D}

theorem step_cases {e : HttpRequestEvent D} (h : step f x e = some x') :
    match e with
    | .onRequest headers =>
      x.phase = .constructed ∧ x' = { x with phase := .receiving }.onRequest headers
    | .onBody body => x.phase = .receiving ∧ x' = x.onBody body
    | .onEOM inited => x.phase = .receiving ∧
        x' = { x with phase := .received, eom := some inited }.onEOM inited
    | .onError => (x.phase = .receiving ∨ x.phase = .received) ∧
        x' = { x with phase := .over, errored := true }.resetSelf
    | .requestComplete => (x.phase = .receiving ∨ x.phase = .received) ∧
        x' = { x with phase := .over }.resetSelf
    | .runTask calls outcome => x.runTask calls outcome = some x'
    | .sentWithEOM => x.task = .sending ∧ x' = x.sentWithEOM := by
  cases e with
  | runTask calls outcome =>
    rw [step] at h
    split at h
    · exact h
    · cases h
  | _ =>
    rw [step] at h
    split at h
    · next hphase =>
      cases h
      exact ⟨hphase, rfl⟩
    · cases h

/-! ## The owners of the object -/

/-- The owners that `self` and the task make. -/
def holders (x : RabbitHttpRequestHandler D) : ℕ :=
  (if x.self then 1 else 0) + if x.task = .sending then 1 else 0

/-- Once `onEOM` found the fibers initialised there is a task and `self` is set until the end of the
request, and the object has the owners there are. -/
structure Owned (x : RabbitHttpRequestHandler D) : Prop where
  request : x.phase ≠ .constructed → x.request.isSome = true
  eom_phase : x.eom ≠ none → x.phase = .received ∨ x.phase = .over
  task_iff : x.task = .notQueued ↔ x.eom ≠ some true
  self_iff : x.self = true ↔ x.eom = some true ∧ x.phase ≠ .over
  counts : x.eom = some true → x.shared.Counts x.holders
  destroyed : x.eom ≠ some true → x.shared.destroyed = 0

theorem owned_new : ({} : RabbitHttpRequestHandler D).Owned where
  request h := absurd rfl h
  eom_phase h := absurd rfl h
  task_iff := iff_of_true rfl nofun
  self_iff := iff_of_false nofun fun h => nomatch h.1
  counts h := nomatch h
  destroyed _ := rfl

/-- There is a task only after `onEOM` found the fibers initialised. -/
theorem Owned.eom_of_task (hx : x.Owned) (htask : x.task ≠ .notQueued) : x.eom = some true := by
  by_contra hne
  exact htask (hx.task_iff.2 hne)

theorem Owned.eom_none (hx : x.Owned) (hphase : x.phase = .receiving) : x.eom = none := by
  by_contra hne
  rcases hx.eom_phase hne with h | h <;> simp [hphase] at h

theorem Owned.onEOM (hx : x.Owned) (hphase : x.phase = .receiving) (inited : Bool) :
    Owned ({ x with phase := .received, eom := some inited }.onEOM inited) := by
  have hnone := hx.eom_none hphase
  have hrequest := hx.request (by simp [hphase])
  cases inited with
  | true =>
    refine ⟨fun _ => hrequest, fun _ => .inl rfl, iff_of_false nofun fun h => h rfl,
      iff_of_true rfl ⟨rfl, nofun⟩, ?_, fun h => absurd rfl h⟩
    intro _
    exact (SharedCount.counts_make.retain Nat.one_ne_zero).release
  | false =>
    have htask : x.task = .notQueued := hx.task_iff.2 (by simp [hnone])
    have hself : ¬x.self = true := fun h => by simp [hnone, hx.self_iff] at h
    refine ⟨fun _ => hrequest, fun _ => .inl rfl, iff_of_true htask nofun,
      iff_of_false hself (fun h => nomatch h.1), nofun, fun _ => hx.destroyed (by simp [hnone])⟩

/-- The end of a request. -/
theorem Owned.resetSelf (hx : x.Owned) (hphase : x.phase = .receiving ∨ x.phase = .received)
    (errored : Bool) : Owned { x with phase := .over, errored }.resetSelf := by
  have hover : x.phase ≠ .over := by rcases hphase with h | h <;> simp [h]
  have hrequest := hx.request (by rcases hphase with h | h <;> simp [h])
  unfold RabbitHttpRequestHandler.resetSelf
  cases hself : x.self with
  | true =>
    have heom := (hx.self_iff.1 hself).1
    refine ⟨fun _ => hrequest, fun _ => .inr rfl, hx.task_iff, iff_of_false nofun fun h => h.2 rfl,
      ?_, fun h => absurd heom h⟩
    intro h
    have hcounts := hx.counts heom
    rw [holders, hself, if_pos rfl, Nat.add_comm] at hcounts
    have hrelease := hcounts.release
    simpa [holders] using hrelease
  | false =>
    have heom : x.eom ≠ some true := fun h => by simp [hx.self_iff.2 ⟨h, hover⟩] at hself
    exact ⟨fun _ => hrequest, fun _ => .inr rfl, hx.task_iff,
      iff_of_false nofun fun h => h.2 rfl, fun h => absurd h heom, fun _ => hx.destroyed heom⟩

/-- What the handler does to its builder is not the object's. -/
theorem Owned.handled (hx : x.Owned) (requestBody : List D) (handed : Option (HTTPMessage × List D))
    (calls : List BuilderCall) (outcome : Option HandlerOutcome) :
    Owned { x with requestBody, handed, calls, outcome } :=
  ⟨hx.request, hx.eom_phase, hx.task_iff, hx.self_iff, hx.counts, hx.destroyed⟩

/-- A task that ran and does not send has no share. -/
theorem Owned.ran (hx : x.Owned) (heom : x.eom = some true) (hsending : x.task ≠ .sending)
    {task : HttpTask} (htask : task ≠ .notQueued) (hsending' : task ≠ .sending) :
    Owned { x with task } := by
  refine ⟨hx.request, hx.eom_phase, iff_of_false htask fun h => h heom, hx.self_iff, ?_,
    hx.destroyed⟩
  intro h
  have hcounts := hx.counts heom
  rw [holders, if_neg hsending] at hcounts
  simpa [holders, hsending'] using hcounts

/-- All that the end of the handler can do: the lock fails exactly after the end of the request. -/
theorem Owned.lockAndSend_cases (hx : x.Owned) (heom : x.eom = some true)
    (hsending : x.task ≠ .sending) (r : ResponseBuilder) :
    (x.phase = .over ∧ x.lockAndSend r = { x with task := .ended }) ∨
      (x.phase ≠ .over ∧ x.shared.retain.Counts 2 ∧
        x.lockAndSend r =
          { x with shared := x.shared.retain, sent := x.sent ++ [r], task := .sending }) := by
  have hcounts := hx.counts heom
  rw [holders, if_neg hsending, Nat.add_zero] at hcounts
  unfold RabbitHttpRequestHandler.lockAndSend
  by_cases hover : x.phase = .over
  · have hself : ¬x.self = true := fun h => (hx.self_iff.1 h).2 hover
    rw [if_neg hself] at hcounts
    rw [hcounts.lock_eq]
    exact .inl ⟨hover, rfl⟩
  · rw [if_pos (hx.self_iff.2 ⟨heom, hover⟩)] at hcounts
    rw [hcounts.lock_eq]
    exact .inr ⟨hover, hcounts.retain Nat.one_ne_zero, rfl⟩

theorem Owned.lockAndSend (hx : x.Owned) (heom : x.eom = some true) (hsending : x.task ≠ .sending)
    (r : ResponseBuilder) : (x.lockAndSend r).Owned := by
  rcases hx.lockAndSend_cases heom hsending r with ⟨-, hr⟩ | ⟨hover, hcounts, hr⟩
  · rw [hr]
    exact hx.ran heom hsending nofun nofun
  · have hself := hx.self_iff.2 ⟨heom, hover⟩
    rw [hr]
    refine ⟨hx.request, hx.eom_phase, iff_of_false nofun fun h => h heom, hx.self_iff, ?_,
      fun h => absurd heom h⟩
    intro _
    rw [holders, if_pos hself]
    exact hcounts

theorem Owned.runHandler (hx : x.Owned) (heom : x.eom = some true) (hsending : x.task ≠ .sending)
    (r : ResponseBuilder) (calls : List BuilderCall) (outcome : HandlerOutcome) :
    (x.runHandler r calls outcome).Owned := by
  have hhandled := hx.handled x.requestBody x.handed (x.calls ++ calls)
  cases outcome with
  | suspends => exact (hhandled x.outcome).ran heom hsending nofun nofun
  | returns => exact (hhandled (some .returns)).lockAndSend heom hsending _
  | throws what => exact (hhandled (some (.throws what))).lockAndSend heom hsending _

/-- The first run finds the object, unless it comes after the end of the request. -/
theorem Owned.destroyed_ne_zero_iff (hx : x.Owned) (htask : x.task = .queued) :
    x.shared.destroyed ≠ 0 ↔ x.phase = .over := by
  have heom := hx.eom_of_task (by simp [htask])
  have hcounts := hx.counts heom
  rw [hcounts.destroyed, holders, htask]
  by_cases hover : x.phase = .over
  · have hself : x.self = false := by simpa [heom, hover] using hx.self_iff
    simp [hself, hover]
  · have hself : x.self = true := hx.self_iff.2 ⟨heom, hover⟩
    simp [hself, hover]

/-- All that a run of the task can do. -/
theorem Owned.runTask_cases (hx : x.Owned) {calls : List BuilderCall} {outcome : HandlerOutcome}
    (h : x.runTask calls outcome = some x') :
    x.eom = some true ∧
      ((x.task = .queued ∧ x.phase = .over ∧ x' = { x with task := .faulted }) ∨
      (x.task = .queued ∧ x.phase ≠ .over ∧ ∃ headers, x.request = some headers ∧
        x' = { x with requestBody := [], handed := some (headers, x.requestBody) }.runHandler
          okBuilder calls outcome) ∨
      ∃ r, x.task = .suspended r ∧ x' = x.runHandler r calls outcome) := by
  unfold RabbitHttpRequestHandler.runTask at h
  split at h
  · next htask =>
    have heom := hx.eom_of_task (by simp [htask])
    refine ⟨heom, ?_⟩
    simp only [hx.destroyed_ne_zero_iff htask] at h
    split at h
    · next hover =>
      cases h
      exact .inl ⟨htask, hover, rfl⟩
    · next hover =>
      have hconstructed : x.phase ≠ .constructed := by
        rcases hx.eom_phase (by simp [heom]) with hp | hp <;> simp [hp]
      have hrequest := hx.request hconstructed
      split at h
      · next hnone =>
        rw [hnone] at hrequest
        cases hrequest
      · next headers hheaders =>
        cases h
        exact .inr (.inl ⟨htask, hover, headers, hheaders, rfl⟩)
  · next r htask =>
    cases h
    exact ⟨hx.eom_of_task (by simp [htask]), .inr (.inr ⟨r, htask, rfl⟩)⟩
  · cases h

theorem Owned.sentWithEOM (hx : x.Owned) (htask : x.task = .sending) : x.sentWithEOM.Owned := by
  have heom := hx.eom_of_task (by simp [htask])
  refine ⟨hx.request, hx.eom_phase, iff_of_false nofun fun h => h heom, hx.self_iff, ?_,
    fun h => absurd heom h⟩
  intro _
  have hcounts := hx.counts heom
  rw [holders, if_pos htask] at hcounts
  exact hcounts.release

theorem Owned.step (hx : x.Owned) {e : HttpRequestEvent D} (h : step f x e = some x') :
    x'.Owned := by
  have hcase := step_cases h
  cases e with
  | onRequest headers =>
    obtain ⟨hphase, rfl⟩ := hcase
    have hnone : x.eom = none := by
      by_contra hne
      rcases hx.eom_phase hne with hp | hp <;> simp [hphase] at hp
    have hself : ¬x.self = true := fun h => by simp [hnone, hx.self_iff] at h
    have heom : x.eom ≠ some true := by simp [hnone]
    exact ⟨fun _ => rfl, fun h => absurd hnone h, hx.task_iff, iff_of_false hself fun h => heom h.1,
      hx.counts, hx.destroyed⟩
  | onBody body =>
    obtain ⟨-, rfl⟩ := hcase
    exact hx.handled _ _ _ _
  | onEOM inited =>
    obtain ⟨hphase, rfl⟩ := hcase
    exact hx.onEOM hphase inited
  | onError =>
    obtain ⟨hphase, rfl⟩ := hcase
    exact hx.resetSelf hphase true
  | requestComplete =>
    obtain ⟨hphase, rfl⟩ := hcase
    exact hx.resetSelf hphase x.errored
  | runTask calls outcome =>
    obtain ⟨heom, ⟨htask, -, rfl⟩ | ⟨htask, -, headers, -, rfl⟩ | ⟨r, htask, rfl⟩⟩ :=
      hx.runTask_cases hcase
    · exact hx.ran heom (by simp [htask]) nofun nofun
    · have hhandled := hx.handled [] (some (headers, x.requestBody)) x.calls x.outcome
      exact hhandled.runHandler heom (by simp [htask]) _ _ _
    · exact hx.runHandler heom (by simp [htask]) _ _ _
  | sentWithEOM =>
    obtain ⟨htask, rfl⟩ := hcase
    exact hx.sentWithEOM htask

/-! ## A destroyed object -/

/-- `self.reset()` changes the owners only. -/
theorem resetSelf_frame (x : RabbitHttpRequestHandler D) :
    ∃ self shared, x.resetSelf = { x with self, shared } := by
  unfold RabbitHttpRequestHandler.resetSelf
  split
  · exact ⟨_, _, rfl⟩
  · exact ⟨x.self, x.shared, rfl⟩

theorem lockAndSend_frame (x : RabbitHttpRequestHandler D) (r : ResponseBuilder) :
    ∃ shared sent task, x.lockAndSend r = { x with shared, sent, task } := by
  unfold RabbitHttpRequestHandler.lockAndSend
  split
  · exact ⟨x.shared, x.sent, _, rfl⟩
  · exact ⟨_, _, _, rfl⟩

/-- The handler changes neither the request nor what the server did with it. -/
theorem runHandler_frame (x : RabbitHttpRequestHandler D) (r : ResponseBuilder)
    (calls : List BuilderCall) (outcome : HandlerOutcome) :
    ∃ shared sent task calls' outcome', x.runHandler r calls outcome =
      { x with shared, sent, task, calls := calls', outcome := outcome' } := by
  cases outcome with
  | suspends => exact ⟨x.shared, x.sent, _, _, x.outcome, rfl⟩
  | returns =>
    obtain ⟨shared, sent, task, hsend⟩ := lockAndSend_frame
      { x with calls := x.calls ++ calls, outcome := some .returns } (r ++ calls)
    exact ⟨shared, sent, task, x.calls ++ calls, some .returns, hsend⟩
  | throws what =>
    obtain ⟨shared, sent, task, hsend⟩ := lockAndSend_frame
      { x with calls := x.calls ++ calls, outcome := some (.throws what) } (errorBuilder what)
    exact ⟨shared, sent, task, x.calls ++ calls, some (.throws what), hsend⟩

/-- Nor does a run of the task, which takes the body. -/
theorem Owned.runTask_frame (hx : x.Owned) {calls : List BuilderCall} {outcome : HandlerOutcome}
    (h : x.runTask calls outcome = some x') :
    ∃ requestBody handed shared sent task calls' outcome', x' =
      { x with requestBody, handed, shared, sent, task, calls := calls', outcome := outcome' } := by
  obtain ⟨-, ⟨-, -, rfl⟩ | ⟨-, -, headers, -, rfl⟩ | ⟨r, -, rfl⟩⟩ := hx.runTask_cases h
  · exact ⟨_, _, _, _, _, _, _, rfl⟩
  · obtain ⟨shared, sent, task, calls', outcome', hr⟩ := runHandler_frame
      { x with requestBody := [], handed := some (headers, x.requestBody) } okBuilder calls outcome
    exact ⟨_, _, shared, sent, task, calls', outcome', hr⟩
  · obtain ⟨shared, sent, task, calls', outcome', hr⟩ := runHandler_frame x r calls outcome
    exact ⟨_, _, shared, sent, task, calls', outcome', hr⟩

theorem lockAndSend_not_faulted (x : RabbitHttpRequestHandler D) (r : ResponseBuilder) :
    (x.lockAndSend r).task ≠ .faulted := by
  unfold RabbitHttpRequestHandler.lockAndSend
  split <;> nofun

/-- After its first run the task uses the object only under the lock. -/
theorem runHandler_not_faulted (x : RabbitHttpRequestHandler D) (r : ResponseBuilder)
    (calls : List BuilderCall) (outcome : HandlerOutcome) :
    (x.runHandler r calls outcome).task ≠ .faulted := by
  cases outcome with
  | suspends => nofun
  | returns => exact lockAndSend_not_faulted _ _
  | throws what => exact lockAndSend_not_faulted _ _

/-- The task first runs before the end of the request. -/
def FirstRunInTime (x : RabbitHttpRequestHandler D) (e : HttpRequestEvent D)
    (_ : RabbitHttpRequestHandler D) : Prop :=
  match e with
  | .runTask _ _ => x.task = .queued → x.phase ≠ .over
  | _ => True

theorem Owned.step_not_faulted_iff (hx : x.Owned) {e : HttpRequestEvent D}
    (h : RabbitHttpRequestHandler.step f x e = some x') :
    x'.task ≠ .faulted ↔ x.task ≠ .faulted ∧ FirstRunInTime x e x' := by
  have hcase := step_cases h
  cases e with
  | onRequest headers =>
    obtain ⟨-, rfl⟩ := hcase
    exact (and_iff_left trivial).symm
  | onBody body =>
    obtain ⟨-, rfl⟩ := hcase
    exact (and_iff_left trivial).symm
  | onEOM inited =>
    obtain ⟨hphase, rfl⟩ := hcase
    have htask : x.task = .notQueued := hx.task_iff.2 (by simp [hx.eom_none hphase])
    refine iff_of_true ?_ ⟨by simp [htask], trivial⟩
    cases inited with
    | true => nofun
    | false =>
      change x.task ≠ .faulted
      simp [htask]
  | onError =>
    obtain ⟨-, rfl⟩ := hcase
    obtain ⟨self, shared, hreset⟩ := resetSelf_frame { x with phase := .over, errored := true }
    rw [hreset]
    exact (and_iff_left trivial).symm
  | requestComplete =>
    obtain ⟨-, rfl⟩ := hcase
    obtain ⟨self, shared, hreset⟩ := resetSelf_frame { x with phase := .over }
    rw [hreset]
    exact (and_iff_left trivial).symm
  | runTask calls outcome =>
    obtain ⟨-, ⟨htask, hover, rfl⟩ | ⟨htask, hover, headers, -, rfl⟩ | ⟨r, htask, rfl⟩⟩ :=
      hx.runTask_cases hcase
    · exact iff_of_false (fun hne => hne rfl) fun hin => hin.2 htask hover
    · exact iff_of_true (runHandler_not_faulted _ _ _ _) ⟨by simp [htask], fun _ => hover⟩
    · refine iff_of_true (runHandler_not_faulted _ _ _ _) ⟨by simp [htask], ?_⟩
      intro hqueued
      rw [htask] at hqueued
      cases hqueued
  | sentWithEOM =>
    obtain ⟨htask, rfl⟩ := hcase
    exact iff_of_true nofun ⟨by simp [htask], trivial⟩

/-- **No use of a destroyed object.** In every run of a request, the task never uses the object
after its destruction exactly if it first ran, if at all, before the end of the request. -/
theorem no_use_after_destroy_iff (f : RabbitHttpHandlerFactory H) (es : List (HttpRequestEvent D))
    (h : run (step f) {} es = some x) :
    x.task ≠ .faulted ↔ Along (step f) FirstRunInTime {} es := by
  have hiff : x.task ≠ .faulted ↔
      ({} : RabbitHttpRequestHandler D).task ≠ .faulted ∧ Along (step f) FirstRunInTime {} es :=
    run_iff_along (I := Owned) (P := fun x => x.task ≠ .faulted)
      (fun x e x' hx (hs : step f x e = some x') => ⟨hx.step hs, hx.step_not_faulted_iff hs⟩)
      owned_new h
  rw [hiff]
  exact and_iff_right nofun

/-- A request without a body, that a handler answers after a suspension. -/
def answeredRequest : List (HttpRequestEvent Unit) :=
  [.onRequest ⟨"/"⟩, .onEOM true, .runTask [] .suspends, .runTask [.body .empty] .returns,
    .requestComplete, .sentWithEOM]

/-- A function is registered for the path "/". -/
def rootHandler : RabbitHttpHandlerFactory Unit := .registerTemplate {} "/" (some ())

theorem no_use_after_destroy_iff_answered :
    ∃ x, run (step rootHandler) {} answeredRequest = some x ∧
      (x.task ≠ .faulted ↔ Along (step rootHandler) FirstRunInTime {} answeredRequest) :=
  ⟨_, rfl, no_use_after_destroy_iff rootHandler answeredRequest rfl⟩

/-- The task that `onEOM` queued first runs after `onError`. -/
def abortedRequest : List (HttpRequestEvent Unit) :=
  [.onRequest ⟨"/"⟩, .onEOM true, .onError, .runTask [] .returns]

theorem use_after_destroy :
    ¬ ∀ (f : RabbitHttpHandlerFactory Unit) (es : List (HttpRequestEvent Unit))
      (x : RabbitHttpRequestHandler Unit), run (step f) {} es = some x → x.task ≠ .faulted := by
  intro hall
  exact hall rootHandler abortedRequest _ rfl rfl

/-! ## The destruction of the object -/

theorem Owned.step_eom_iff (hx : x.Owned) {e : HttpRequestEvent D}
    (h : RabbitHttpRequestHandler.step f x e = some x') :
    x'.eom = some true ↔ x.eom = some true ∨ e = .onEOM true := by
  have hcase := step_cases h
  cases e with
  | onEOM inited =>
    obtain ⟨hphase, rfl⟩ := hcase
    have hnone := hx.eom_none hphase
    cases inited with
    | true => exact iff_of_true rfl (.inr rfl)
    | false => exact iff_of_false nofun (by simp [hnone])
  | runTask calls outcome =>
    have heom := (hx.runTask_cases hcase).1
    obtain ⟨_, _, _, _, _, _, _, rfl⟩ := hx.runTask_frame hcase
    exact iff_of_true heom (.inl heom)
  | onError =>
    obtain ⟨-, rfl⟩ := hcase
    obtain ⟨self, shared, hreset⟩ := resetSelf_frame { x with phase := .over, errored := true }
    rw [hreset]
    exact (or_iff_left nofun).symm
  | requestComplete =>
    obtain ⟨-, rfl⟩ := hcase
    obtain ⟨self, shared, hreset⟩ := resetSelf_frame { x with phase := .over }
    rw [hreset]
    exact (or_iff_left nofun).symm
  | _ =>
    obtain ⟨-, rfl⟩ := hcase
    exact (or_iff_left nofun).symm

/-- Where `onEOM` found the fibers initialised, the object is alive until the end of the request and
of the sending task. -/
theorem Owned.destroyed_iff (hx : x.Owned) (hover : x.phase = .over) (hsending : x.task ≠ .sending) :
    x.shared.destroyed = 1 ↔ x.eom = some true := by
  by_cases heom : x.eom = some true
  · have hself : ¬x.self = true := fun h => (hx.self_iff.1 h).2 hover
    have hcounts := hx.counts heom
    rw [holders, if_neg hself, if_neg hsending] at hcounts
    exact iff_of_true (hcounts.destroyed_iff.2 rfl) heom
  · refine iff_of_false ?_ heom
    intro h
    rw [hx.destroyed heom] at h
    cases h

/-- **The object is released.** In every run of a request, once it is over and its task does not
run, the object was destroyed exactly once if `onEOM` came while the fibers of the thread were
initialised, and is never destroyed otherwise. -/
theorem released_once_iff (f : RabbitHttpHandlerFactory H) (es : List (HttpRequestEvent D))
    (h : run (step f) {} es = some x) (hover : x.phase = .over) (hsending : x.task ≠ .sending) :
    x.shared.destroyed = 1 ↔ .onEOM true ∈ es := by
  have hx : x.Owned :=
    run_invariant (fun x e x' (hx : x.Owned) (hs : step f x e = some x') => hx.step hs) owned_new h
  have heom : x.eom = some true ↔ ({} : RabbitHttpRequestHandler D).eom = some true ∨
      ∃ e ∈ es, e = .onEOM true :=
    run_iff_exists (I := Owned) (P := fun x => x.eom = some true)
      (fun x e x' hx (hs : step f x e = some x') => ⟨hx.step hs, hx.step_eom_iff hs⟩) owned_new h
  rw [hx.destroyed_iff hover hsending, heom]
  simp

theorem released_once_iff_answered :
    ∃ x, run (step rootHandler) {} answeredRequest = some x ∧ x.shared.destroyed = 1 :=
  have heom : .onEOM true ∈ answeredRequest := .tail _ (.head _)
  ⟨_, rfl, (released_once_iff rootHandler answeredRequest rfl rfl nofun).2 heom⟩

/-- A request that ends before `onEOM`. -/
theorem never_released :
    ¬ ∀ (f : RabbitHttpHandlerFactory Unit) (es : List (HttpRequestEvent Unit))
      (x : RabbitHttpRequestHandler Unit), run (step f) {} es = some x → x.phase = .over →
        x.task ≠ .sending → x.shared.destroyed = 1 := by
  intro hall
  have hdestroyed := hall rootHandler [.onRequest ⟨"/"⟩, .onError] _ rfl rfl nofun
  cases hdestroyed

/-! ## The response -/

/-- The response for the way the handler ended. -/
def response (x : RabbitHttpRequestHandler D) : HandlerOutcome → ResponseBuilder
  | .throws what => errorBuilder what
  | _ => okBuilder ++ x.calls

/-- The handler ended, and its response is the only one sent. -/
def SentResponse (x : RabbitHttpRequestHandler D) : Prop :=
  ∃ outcome ≠ .suspends, x.outcome = some outcome ∧ x.sent = [x.response outcome]

/-- What was sent, by where the task is. A task that ended without sending did so after the end of
the request. -/
def Responded (x : RabbitHttpRequestHandler D) : Prop :=
  match x.task with
  | .notQueued => x.sent = [] ∧ x.calls = [] ∧ x.outcome = none
  | .queued => x.sent = [] ∧ x.calls = [] ∧ x.outcome = none
  | .suspended r => x.sent = [] ∧ r = okBuilder ++ x.calls ∧ x.outcome = none
  | .sending => x.SentResponse
  | .ended => x.SentResponse ∨ x.sent = [] ∧ x.phase = .over
  | .faulted => x.sent = [] ∧ x.phase = .over

/-- Nothing but the end of the request changes what `Responded` says. -/
theorem Responded.of_eq (hx : x.Responded) (htask : x'.task = x.task) (hsent : x'.sent = x.sent)
    (hcalls : x'.calls = x.calls) (houtcome : x'.outcome = x.outcome)
    (hover : x.phase = .over → x'.phase = .over) : x'.Responded := by
  have hresponse : x'.response = x.response := by
    funext outcome
    cases outcome <;> simp [response, hcalls]
  unfold Responded SentResponse at *
  rw [htask, hsent, hcalls, houtcome, hresponse]
  generalize x.task = task at hx
  cases task with
  | ended => exact hx.imp_right fun h => ⟨h.1, hover h.2⟩
  | faulted => exact ⟨hx.1, hover hx.2⟩
  | _ => exact hx

theorem Responded.resetSelf (hx : x.Responded) (errored : Bool) :
    Responded { x with phase := .over, errored }.resetSelf := by
  obtain ⟨self, shared, hreset⟩ := resetSelf_frame { x with phase := .over, errored }
  rw [hreset]
  exact hx.of_eq rfl rfl rfl rfl fun _ => rfl

/-- The end of the handler sends its response, or finds the request over. -/
theorem Owned.responded_lockAndSend (hx : x.Owned) (heom : x.eom = some true)
    (hsending : x.task ≠ .sending) (hsent : x.sent = []) (outcome : HandlerOutcome)
    (hne : outcome ≠ .suspends) (houtcome : x.outcome = some outcome) :
    (x.lockAndSend (x.response outcome)).Responded := by
  rcases hx.lockAndSend_cases heom hsending (x.response outcome) with ⟨hover, hr⟩ | ⟨-, -, hr⟩
  · rw [hr]
    exact .inr ⟨hsent, hover⟩
  · rw [hr, hsent]
    exact ⟨outcome, hne, houtcome, rfl⟩

theorem Owned.responded_runHandler (hx : x.Owned) (heom : x.eom = some true)
    (hsending : x.task ≠ .sending) (hsent : x.sent = []) (hnone : x.outcome = none)
    {r : ResponseBuilder} (hr : r = okBuilder ++ x.calls) (calls : List BuilderCall)
    (outcome : HandlerOutcome) : (x.runHandler r calls outcome).Responded := by
  have hhandled := hx.handled x.requestBody x.handed (x.calls ++ calls)
  have hbuilder : r ++ calls = okBuilder ++ (x.calls ++ calls) := by rw [hr, List.append_assoc]
  unfold RabbitHttpRequestHandler.runHandler
  rw [hbuilder]
  cases outcome with
  | suspends => exact ⟨hsent, rfl, hnone⟩
  | returns =>
    exact (hhandled (some .returns)).responded_lockAndSend heom hsending hsent .returns nofun rfl
  | throws what =>
    exact (hhandled (some (.throws what))).responded_lockAndSend heom hsending hsent (.throws what)
      nofun rfl

theorem Responded.step (hx : x.Owned) (hr : x.Responded) {e : HttpRequestEvent D}
    (h : RabbitHttpRequestHandler.step f x e = some x') : x'.Responded := by
  have hcase := step_cases h
  cases e with
  | onRequest headers =>
    obtain ⟨hphase, rfl⟩ := hcase
    exact hr.of_eq rfl rfl rfl rfl fun hover => by simp [hphase] at hover
  | onBody body =>
    obtain ⟨-, rfl⟩ := hcase
    exact hr.of_eq rfl rfl rfl rfl id
  | onEOM inited =>
    obtain ⟨hphase, rfl⟩ := hcase
    have htask : x.task = .notQueued := hx.task_iff.2 (by simp [hx.eom_none hphase])
    have hnew : x.sent = [] ∧ x.calls = [] ∧ x.outcome = none := by
      simpa [Responded, htask] using hr
    cases inited with
    | true => exact hnew
    | false => exact hr.of_eq rfl rfl rfl rfl fun hover => by simp [hphase] at hover
  | onError =>
    obtain ⟨-, rfl⟩ := hcase
    exact hr.resetSelf true
  | requestComplete =>
    obtain ⟨-, rfl⟩ := hcase
    exact hr.resetSelf x.errored
  | runTask calls outcome =>
    obtain ⟨heom, ⟨htask, hover, rfl⟩ | ⟨htask, -, headers, -, rfl⟩ | ⟨r, htask, rfl⟩⟩ :=
      hx.runTask_cases hcase
    · simp only [Responded, htask] at hr
      exact ⟨hr.1, hover⟩
    · simp only [Responded, htask] at hr
      have hhandled := hx.handled [] (some (headers, x.requestBody)) x.calls x.outcome
      exact hhandled.responded_runHandler heom (by simp [htask]) hr.1 hr.2.2 (by simp [hr.2.1]) _ _
    · simp only [Responded, htask] at hr
      exact hx.responded_runHandler heom (by simp [htask]) hr.1 hr.2.2 hr.2.1 _ _
  | sentWithEOM =>
    obtain ⟨htask, rfl⟩ := hcase
    simp only [Responded, htask] at hr
    exact .inl hr

end RabbitHttpRequestHandler

end ServiceFramework.Net
