import ServiceFramework.Net.FiberDataManager
import ServiceFramework.Net.RabbitHttpRequestHandler
import ServiceFramework.Net.ThreadStartup

/-!
# The HTTP server

A service of the type "http_server" (`net/service_manager.cc`, `net/server/http_server.cc`) runs on
the threads of the group `CONN_ACCEPT`. A request is answered by a fiber task, and `onEOM` queues
one only if the `FiberDataManager` of its thread is initialised. `MakeThreadGroup` starts the
threads without initialising it, and `onServerStart` does nothing.

So a complete request is answered exactly if something else initialised the fibers of its thread in
time, and none is where nothing does (`requests_answered_iff`).
-/

namespace ServiceFramework.Net

open RabbitHttpRequestHandler (rootHandler)
open Transition

/-! ## Requests on the threads -/

/-- The threads, the fiber managers of the threads of the event bases, the pool of the server once
it is started, and its requests, each on the thread of an event base. -/
structure HttpServer (E P F D : Type) where
  startup : ThreadStartup E P
  fibers : E → FiberDataManager F
  ioGroup : Option ThreadPoolExecutor := none
  requests : List (E × RabbitHttpRequestHandler D) := []

/-- Groups are made and threads start; the service is created and started; the application
initialises the fibers of a thread; a request comes in, and what comes next happens to it. -/
inductive HttpServerEvent (E D : Type) where
  | startup (e : StartupEvent E)
  | start
  | initializeFibers (evb : E) (threadId : UInt32)
  | onRequest (evb : E) (headers : HTTPMessage)
  | deliver (i : ℕ) (e : HttpRequestEvent D)

/-- `RegisterServiceFactory` of the service manager: the pool of the factory that it registers for
a type, if it does. -/
def registerServiceFactory {E : Type} (m : ThreadGroupListManager E) (type : String) :
    Option ThreadPoolExecutor :=
  if type = "tcp_server" then
    m.getIOThreadPoolExecutor .connAccept
  else if type = "tcp_client" then
    m.getIOThreadPoolExecutor .connClient
  else if type = "http_server" then
    m.getIOThreadPoolExecutor .connAccept
  else
    none

namespace HttpServer

variable {E P F D H : Type}

def init (options : List ThreadGroupOption) : HttpServer E P F D where
  startup := .init options
  fibers _ := {}

/-- Whether `evb` is the event base of a thread of the server's pool. -/
def IsServing [DecidableEq E] (w : HttpServer E P F D) (evb : E) : Bool :=
  w.ioGroup.isSome && w.startup.threads.groups.threadDatas.any fun d =>
    d.threadGroup = .connAccept ∧ d.evb = some evb

/-- `onEOM` asks the manager of its thread, and proxygen completes a request once its response was
sent. -/
def CanDeliver (w : HttpServer E P F D) (evb : E) (x : RabbitHttpRequestHandler D) :
    HttpRequestEvent D → Bool
  | .onEOM inited => inited = (w.fibers evb).inited
  | .requestComplete => !x.sent.isEmpty
  | _ => true

section Step

variable [DecidableEq E] (f : RabbitHttpHandlerFactory H)

def step (w : HttpServer E P F D) : HttpServerEvent E D → Option (HttpServer E P F D)
  | .startup e => do
    let startup ← w.startup.step e
    return { w with startup }
  | .start => do
    let ioGroup ← registerServiceFactory w.startup.threads.groups "http_server"
    return { w with ioGroup := some ioGroup }
  | .initializeFibers evb threadId =>
    some { w with
      fibers := Function.update w.fibers evb ((w.fibers evb).initializeWith threadId).2 }
  | .onRequest evb headers =>
    if w.IsServing evb then do
      let x ← RabbitHttpRequestHandler.step f {} (.onRequest headers)
      return { w with requests := w.requests ++ [(evb, x)] }
    else
      none
  | .deliver i e => do
    let (evb, x) ← w.requests[i]?
    if w.CanDeliver evb x e then do
      let x ← x.step f e
      return { w with requests := w.requests.set i (evb, x) }
    else
      none

end Step

/-! ## All that a step can do -/

variable [DecidableEq E] {f : RabbitHttpHandlerFactory H} {w w' : HttpServer E P F D}

theorem step_cases {e : HttpServerEvent E D} (h : step f w e = some w') :
    match e with
    | .startup _ => ∃ startup, w' = { w with startup }
    | .start => ∃ ioGroup, w' = { w with ioGroup }
    | .initializeFibers evb threadId => w' = { w with
        fibers := Function.update w.fibers evb ((w.fibers evb).initializeWith threadId).2 }
    | .onRequest evb headers => ∃ x, RabbitHttpRequestHandler.step f {} (.onRequest headers) = some x ∧
        w' = { w with requests := w.requests ++ [(evb, x)] }
    | .deliver i e => ∃ evb x x', w.requests[i]? = some (evb, x) ∧ w.CanDeliver evb x e = true ∧
        x.step f e = some x' ∧ w' = { w with requests := w.requests.set i (evb, x') } := by
  cases e with
  | startup e =>
    obtain ⟨startup, -, hr⟩ := Option.bind_eq_some_iff.1 h
    cases hr
    exact ⟨_, rfl⟩
  | start =>
    obtain ⟨ioGroup, -, hr⟩ := Option.bind_eq_some_iff.1 h
    cases hr
    exact ⟨_, rfl⟩
  | initializeFibers evb threadId =>
    cases h
    rfl
  | onRequest evb headers =>
    rw [step] at h
    split at h
    · obtain ⟨x, hx, hr⟩ := Option.bind_eq_some_iff.1 h
      cases hr
      exact ⟨x, hx, rfl⟩
    · cases h
  | deliver i e =>
    obtain ⟨⟨evb, x⟩, hi, h⟩ := Option.bind_eq_some_iff.1 h
    dsimp only at h
    split at h
    · next hdeliver =>
      obtain ⟨x', hx', hr⟩ := Option.bind_eq_some_iff.1 h
      cases hr
      exact ⟨evb, x, x', hi, hdeliver, hx', rfl⟩
    · cases h

/-- What new requests have and every delivery keeps, all requests have. -/
theorem forall_requests {R : RabbitHttpRequestHandler D → Prop} {e : HttpServerEvent E D}
    (h : step f w e = some w') (hw : ∀ q ∈ w.requests, R q.2)
    (hnew : ∀ headers x, RabbitHttpRequestHandler.step f {} (.onRequest headers) = some x → R x)
    (hstep : ∀ evb x e x', R x → w.CanDeliver evb x e = true →
      RabbitHttpRequestHandler.step f x e = some x' → R x') :
    ∀ q ∈ w'.requests, R q.2 := by
  have hcase := step_cases h
  cases e with
  | startup e =>
    obtain ⟨startup, rfl⟩ := hcase
    exact hw
  | start =>
    obtain ⟨ioGroup, rfl⟩ := hcase
    exact hw
  | initializeFibers evb threadId =>
    cases hcase
    exact hw
  | onRequest evb headers =>
    obtain ⟨x, hx, rfl⟩ := hcase
    intro q hq
    rcases List.mem_append.1 hq with hq | hq
    · exact hw q hq
    · rw [List.mem_singleton.1 hq]
      exact hnew headers x hx
  | deliver i e =>
    obtain ⟨evb, x, x', hi, hdeliver, hx', rfl⟩ := hcase
    intro q hq
    rcases List.mem_or_eq_of_mem_set hq with hq | rfl
    · exact hw q hq
    · exact hstep evb x e x' (hw (evb, x) (List.mem_of_getElem? hi)) hdeliver hx'

/-! ## One request -/

/-- No fiber task of the request is left to run. -/
def TaskOver (x : RabbitHttpRequestHandler D) : Prop :=
  x.task = .notQueued ∨ x.task = .ended ∨ x.task = .faulted

/-- A request that was complete and had no error has its response once its task is over. -/
def Answered (x : RabbitHttpRequestHandler D) : Prop :=
  x.eom ≠ none → x.errored = false → TaskOver x → x.SentResponse

/-- A request that is over had an error, or its response was sent. -/
structure Sound (x : RabbitHttpRequestHandler D) : Prop where
  owned : x.Owned
  responded : x.Responded
  of_over : x.phase = .over → x.errored = true ∨ x.sent ≠ []

variable {x x' : RabbitHttpRequestHandler D}

omit [DecidableEq E] in
theorem Sound.step (hx : Sound x) {e : HttpRequestEvent D}
    (hcomplete : e = .requestComplete → x.sent ≠ [])
    (h : RabbitHttpRequestHandler.step f x e = some x') : Sound x' := by
  refine ⟨hx.owned.step h, hx.responded.step hx.owned h, ?_⟩
  have hcase := RabbitHttpRequestHandler.step_cases h
  cases e with
  | onRequest headers =>
    obtain ⟨-, rfl⟩ := hcase
    nofun
  | onBody body =>
    obtain ⟨-, rfl⟩ := hcase
    exact hx.of_over
  | onEOM inited =>
    obtain ⟨-, rfl⟩ := hcase
    cases inited <;> nofun
  | onError =>
    obtain ⟨-, rfl⟩ := hcase
    obtain ⟨self, shared, hreset⟩ := RabbitHttpRequestHandler.resetSelf_frame
      { x with phase := .over, errored := true }
    rw [hreset]
    exact fun _ => .inl rfl
  | requestComplete =>
    obtain ⟨-, rfl⟩ := hcase
    obtain ⟨self, shared, hreset⟩ := RabbitHttpRequestHandler.resetSelf_frame
      { x with phase := .over }
    rw [hreset]
    exact fun _ => .inr (hcomplete rfl)
  | runTask calls outcome =>
    -- nothing was sent before, so a request that is over had an error
    have hsent : x.sent = [] := by
      have hr := hx.responded
      obtain ⟨-, ⟨htask, -⟩ | ⟨htask, -⟩ | ⟨r, htask, -⟩⟩ := hx.owned.runTask_cases hcase <;>
        simp only [RabbitHttpRequestHandler.Responded, htask] at hr <;> exact hr.1
    obtain ⟨_, _, _, _, _, _, _, rfl⟩ := hx.owned.runTask_frame hcase
    intro hover
    exact .inl ((hx.of_over hover).resolve_right fun hne => hne hsent)
  | sentWithEOM =>
    obtain ⟨-, rfl⟩ := hcase
    exact hx.of_over

theorem sound_onRequest {headers : HTTPMessage}
    (h : RabbitHttpRequestHandler.step f {} (.onRequest headers) = some x) : Sound x := by
  have hnew : Sound ({} : RabbitHttpRequestHandler D) :=
    ⟨RabbitHttpRequestHandler.owned_new, ⟨rfl, rfl, rfl⟩, nofun⟩
  exact hnew.step (e := .onRequest headers) nofun h

/-- A request is answered exactly if `onEOM` did not drop it. -/
theorem Sound.answered_iff (hx : Sound x) :
    Answered x ↔ (x.errored = false → x.eom ≠ some false) := by
  have hr := hx.responded
  constructor
  · intro hanswered herrored heom
    have htask : x.task = .notQueued := hx.owned.task_iff.2 (by simp [heom])
    obtain ⟨outcome, -, houtcome, -⟩ := hanswered (by simp [heom]) herrored (.inl htask)
    simp only [RabbitHttpRequestHandler.Responded, htask] at hr
    rw [hr.2.2] at houtcome
    cases houtcome
  · intro hinited heom herrored htask
    have hnot_over : x.sent = [] → x.phase ≠ .over := by
      intro hsent hover
      rcases hx.of_over hover with h | h
      · rw [herrored] at h
        cases h
      · exact h hsent
    rcases htask with htask | htask | htask
    · have hne := hx.owned.task_iff.1 htask
      cases hb : x.eom with
      | none => exact absurd hb heom
      | some b =>
        cases b with
        | true => exact absurd hb hne
        | false => exact absurd hb (hinited herrored)
    · simp only [RabbitHttpRequestHandler.Responded, htask] at hr
      exact hr.resolve_right fun h => hnot_over h.1 h.2
    · simp only [RabbitHttpRequestHandler.Responded, htask] at hr
      exact absurd hr.2 (hnot_over hr.1)

/-! ## All requests -/

omit [DecidableEq E] in
theorem sent_of_canDeliver {evb : E} {e : HttpRequestEvent D} (h : w.CanDeliver evb x e = true) :
    e = .requestComplete → x.sent ≠ [] := by
  rintro rfl
  simpa [CanDeliver] using h

theorem step_sound (hw : ∀ q ∈ w.requests, Sound q.2) {e : HttpServerEvent E D}
    (h : step f w e = some w') : ∀ q ∈ w'.requests, Sound q.2 := by
  apply forall_requests h hw (fun headers x hx => sound_onRequest hx)
  exact fun evb x e x' hx hdeliver hs => hx.step (sent_of_canDeliver hdeliver) hs

/-- No thread has its fibers initialised, and no request has a task. -/
structure Uninited (w : HttpServer E P F D) : Prop where
  fibers : ∀ evb, (w.fibers evb).inited = false
  eom : ∀ q ∈ w.requests, Sound q.2 ∧ q.2.eom ≠ some true

theorem Uninited.step (hw : w.Uninited) {e : HttpServerEvent E D}
    (he : ∀ evb threadId, e ≠ .initializeFibers evb threadId) (h : step f w e = some w') :
    w'.Uninited := by
  have hfibers : w'.fibers = w.fibers := by
    have hcase := step_cases h
    cases e with
    | startup e =>
      obtain ⟨startup, rfl⟩ := hcase
      rfl
    | start =>
      obtain ⟨ioGroup, rfl⟩ := hcase
      rfl
    | initializeFibers evb threadId => exact absurd rfl (he evb threadId)
    | onRequest evb headers =>
      obtain ⟨x, -, rfl⟩ := hcase
      rfl
    | deliver i e =>
      obtain ⟨evb, x, x', -, -, -, rfl⟩ := hcase
      rfl
  refine ⟨fun evb => hfibers ▸ hw.fibers evb, ?_⟩
  refine forall_requests (R := fun x => Sound x ∧ x.eom ≠ some true) h hw.eom
    (fun headers x hx => ⟨sound_onRequest hx, ?_⟩) ?_
  · obtain ⟨-, rfl⟩ := RabbitHttpRequestHandler.step_cases hx
    nofun
  · intro evb x e x' hx hdeliver hs
    refine ⟨hx.1.step (sent_of_canDeliver hdeliver) hs, ?_⟩
    intro heom
    rcases (hx.1.owned.step_eom_iff hs).1 heom with hold | rfl
    · exact hx.2 hold
    · simp [CanDeliver, hw.fibers] at hdeliver

/-- **Every request is answered.** In every run of a server, the complete requests without an error
all have exactly their response once their tasks are over if and only if `onEOM` found the fibers
initialised for each of them. Where the application initialises no fibers, that is if and only if
there is no such request. -/
theorem requests_answered_iff (f : RabbitHttpHandlerFactory H) (options : List ThreadGroupOption)
    (es : List (HttpServerEvent E D))
    (h : run (step f) (init options : HttpServer E P F D) es = some w) :
    ((∀ q ∈ w.requests, Answered q.2) ↔
      ∀ q ∈ w.requests, q.2.errored = false → q.2.eom ≠ some false) ∧
    ((∀ e ∈ es, ∀ evb threadId, e ≠ .initializeFibers evb threadId) →
      ((∀ q ∈ w.requests, Answered q.2) ↔
        ∀ q ∈ w.requests, q.2.errored = false → q.2.eom = none)) := by
  have hnone : ∀ q ∈ (init options : HttpServer E P F D).requests, Sound q.2 :=
    List.forall_mem_nil _
  have hsound : ∀ q ∈ w.requests, Sound q.2 :=
    run_invariant (fun w e w' (hw : ∀ q ∈ w.requests, Sound q.2) (hs : step f w e = some w') =>
      step_sound hw hs) hnone h
  have hiff : (∀ q ∈ w.requests, Answered q.2) ↔
      ∀ q ∈ w.requests, q.2.errored = false → q.2.eom ≠ some false :=
    forall₂_congr fun q hq => (hsound q hq).answered_iff
  refine ⟨hiff, fun hevents => hiff.trans (forall₂_congr fun q hq => imp_congr_right ?_)⟩
  intro _
  have hinit : (init options : HttpServer E P F D).Uninited :=
    ⟨fun _ => rfl, List.forall_mem_nil _⟩
  have halong : Along (step f) (fun _ e _ => ∀ evb threadId, e ≠ .initializeFibers evb threadId)
      (init options : HttpServer E P F D) es := .of_forall fun e he _ _ => hevents e he
  have hw : w.Uninited := halong.invariant
    (fun w e w' he (hw : w.Uninited) (hs : step f w e = some w') => hw.step he hs) hinit h
  have htrue := (hw.eom q hq).2
  cases heom : q.2.eom with
  | none => exact iff_of_true (by simp) rfl
  | some b =>
    cases b with
    | true => exact absurd heom htrue
    | false => exact iff_of_false (fun hne => hne rfl) nofun

/-- One accepting thread. -/
def oneThread : List (HttpServerEvent ℕ Unit) :=
  [.startup .makeThreadGroup, .startup (.threadStarted .connAccept 0), .start]

/-- A request on a thread whose fibers the application initialised. -/
def initialisedRequest : List (HttpServerEvent ℕ Unit) :=
  [.initializeFibers 0 0, .onRequest 0 ⟨"/"⟩, .deliver 0 (.onEOM true),
    .deliver 0 (.runTask [.header "a" "b"] .returns), .deliver 0 .sentWithEOM]

/-- A request that the client gives up. -/
def failedRequest : List (HttpServerEvent ℕ Unit) := [.onRequest 0 ⟨"/"⟩, .deliver 0 .onError]

theorem requests_answered_iff_one_thread :
    (∃ w : HttpServer ℕ Unit Unit Unit,
      run (step rootHandler) (init [⟨.connAccept, 1⟩]) (oneThread ++ initialisedRequest) = some w ∧
        ∀ q ∈ w.requests, Answered q.2) ∧
    ∃ w : HttpServer ℕ Unit Unit Unit,
      run (step rootHandler) (init [⟨.connAccept, 1⟩]) (oneThread ++ failedRequest) = some w ∧
        ∀ q ∈ w.requests, Answered q.2 := by
  constructor
  · have hiff := requests_answered_iff rootHandler [⟨.connAccept, 1⟩]
      (oneThread ++ initialisedRequest) (P := Unit) (F := Unit) rfl
    exact ⟨_, rfl, hiff.1.2 (by decide)⟩
  · have hiff := requests_answered_iff rootHandler [⟨.connAccept, 1⟩]
      (oneThread ++ failedRequest) (P := Unit) (F := Unit) rfl
    exact ⟨_, rfl, (hiff.2 (by simp [oneThread, failedRequest])).2 (by decide)⟩

/-- Nothing initialises the fibers, and `onEOM` drops the request. -/
theorem request_dropped :
    ¬ ∀ (f : RabbitHttpHandlerFactory Unit) (options : List ThreadGroupOption)
      (es : List (HttpServerEvent ℕ Unit)) (w : HttpServer ℕ Unit Unit Unit),
      run (step f) (init options) es = some w → ∀ q ∈ w.requests, Answered q.2 := by
  intro hall
  have hanswered := hall rootHandler [⟨.connAccept, 1⟩]
    (oneThread ++ [.onRequest 0 ⟨"/"⟩, .deliver 0 (.onEOM false)]) _ rfl _ (.head _)
  obtain ⟨outcome, -, houtcome, -⟩ := hanswered nofun rfl (.inl rfl)
  cases houtcome

end HttpServer

end ServiceFramework.Net
