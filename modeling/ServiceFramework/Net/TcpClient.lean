import ServiceFramework.Lib.Transition
import Mathlib.Data.Nat.Notation
import Mathlib.Tactic.Common

/-!
# The TCP client

`TcpClient` (`net/server/tcp_client.cc`) keeps one connection up over a `ClientBootstrap2`
(`net/base/client_bootstrap2.h`): a failed attempt and a deleted pipeline each set a timer that
connects again. What is under way (attempts, timers, managed pipelines, queued sends) is in no
member of the class; it is part of the state here.

Until `Stop` the client goes through three phases (`TcpPhase`), in each of which exactly one thing is
under way (`reconnects_single_flight`). `Stop` sets `client_` to null, which destroys the bootstrap and
the socket of an attempt in flight, and leaves the timers and the sends as they are, all of which use
`client_`: the client survives `Stop` exactly in the runs where no attempt is in flight at that moment
and nothing else comes to an end afterwards (`stop_clean_iff`).
-/

namespace ServiceFramework.Net

open Transition

/-! ## The client -/

/-- Where `client_` is dereferenced, or the bootstrap that it owns. -/
inductive TcpClientSite where
  | doConnect
  | connectSuccess
  | connectError
  | deletePipeline
  | sendIOBuf
  | sendTask
  | stop
  deriving DecidableEq

/-- What ends the process: a null `client_`, a null pipeline, or the `CHECK` of
`deletePipeline`. -/
inductive TcpClientFault where
  | nullClient (site : TcpClientSite)
  | nullPipeline
  | checkFailed
  deriving DecidableEq

/-- A timer that connects again: the one of a failed attempt, or of a deleted pipeline. -/
inductive TcpClientTimer where
  | connectError
  | deletePipeline
  deriving DecidableEq

/-- The timeout that the timer connects with. That of a failed attempt reads a variable after its
lifetime, whatever is there then; that of a deleted pipeline uses the default. -/
def TcpClientTimer.timeout : TcpClientTimer → Int32 → Int32
  | connectError, read => read
  | deletePipeline, _ => 0

/-- The members of `TcpClient` and of its bootstrap: `client` is whether `client_` is set, and
`pipeline` the bootstrap's `pipeline_`, by its number. The others are not members: the pipelines
made so far, the attempts without an outcome yet, the timeout of the last attempt, the timers and the
sends that have not run, the pipelines that have this client as their manager and have not reported
their deletion, the calls of `DoConnect` after `Stop`, and the end of the process. -/
structure TcpClient where
  client : Bool := true
  pipeline : Option ℕ := none
  connected : Bool := false
  stoped : Bool := false
  started : Bool := false
  pipelines : ℕ := 0
  connecting : List ℕ := []
  timeout : Int32 := 0
  timers : List TcpClientTimer := []
  sends : ℕ := 0
  managed : List ℕ := []
  attemptsAfterStop : ℕ := 0
  fault : Option TcpClientFault := none

/-- What happens to a client. `read` is what the timer of a failed attempt reads for its timeout, and
`closes` whether closing the pipeline in `Stop` reports its deletion before it returns. -/
inductive TcpClientEvent where
  | start
  | connectSuccess (pipeline : ℕ)
  | connectError (pipeline : ℕ)
  | deletePipeline (pipeline : ℕ)
  | timer (timer : TcpClientTimer) (read : Int32)
  | sendIOBuf
  | sendTask
  | stop (closes : Bool)
  deriving DecidableEq

namespace TcpClient

def crash (c : TcpClient) (fault : TcpClientFault) : TcpClient := { c with fault := some fault }

/-- `DoConnect`, with `connect` of the bootstrap, whose new pipeline replaces the last one. -/
def doConnect (c : TcpClient) (timeout : Int32) : TcpClient :=
  let c := { c with attemptsAfterStop := c.attemptsAfterStop + if c.stoped then 1 else 0 }
  if c.client then
    { c with
      pipeline := some c.pipelines
      pipelines := c.pipelines + 1
      connecting := c.pipelines :: c.connecting
      timeout }
  else
    c.crash (.nullClient .doConnect)

/-- `connectSuccess` of the bootstrap, which is there as long as `client_` is, then the continuation in
`DoConnect`. It gets the pipeline that the bootstrap has now. -/
def onConnectSuccess (c : TcpClient) : TcpClient :=
  if !c.client then
    c.crash (.nullClient .connectSuccess)
  else
    match c.pipeline with
    | none => c.crash .nullPipeline
    | some p => { c with managed := p :: c.managed, connected := true }

/-- `connectErr` of the bootstrap, then the error continuation in `DoConnect`. -/
def onConnectError (c : TcpClient) : TcpClient :=
  if c.client then { c with timers := .connectError :: c.timers }
  else c.crash (.nullClient .connectError)

def deletePipeline (c : TcpClient) (pipeline : ℕ) : TcpClient :=
  let c := { c with connected := false }
  if !c.client then
    c.crash (.nullClient .deletePipeline)
  else if c.pipeline ≠ some pipeline then
    c.crash .checkFailed
  else if !c.stoped then
    { c with timers := .deletePipeline :: c.timers }
  else
    c

/-- `SendIOBufThreadSafe` up to the task it queues; the second version does the same. -/
def sendIOBufThreadSafe (c : TcpClient) : TcpClient :=
  if c.client then { c with sends := c.sends + 1 } else c.crash (.nullClient .sendIOBuf)

/-- The task that `SendIOBufThreadSafe` queues. -/
def sendTask (c : TcpClient) : TcpClient :=
  if c.connected then
    if !c.client then
      c.crash (.nullClient .sendTask)
    else if c.pipeline.isNone then
      c.crash .nullPipeline
    else
      c
  else
    c

/-- The closing of the pipeline in `Stop`. -/
def closePipeline (c : TcpClient) (closes : Bool) : TcpClient :=
  if c.connected then
    match c.pipeline with
    | none => c.crash .nullPipeline
    | some p =>
      if closes ∧ p ∈ c.managed then
        { c with managed := c.managed.erase p }.deletePipeline p
      else
        c
  else
    c

/-- `client_.reset()`. It destroys the bootstrap with its pipeline and the socket of that, and a socket
that is destroyed while it connects fails the attempt: the error continuation runs, and `client_` is
null by then. -/
def resetClient (c : TcpClient) : TcpClient :=
  let c := { c with client := false }
  match c.pipeline with
  | none => c
  | some p =>
    if p ∈ c.connecting then { c with connecting := c.connecting.erase p }.onConnectError else c

def stop (c : TcpClient) (closes : Bool) : TcpClient :=
  if !c.client then
    c.crash (.nullClient .stop)
  else
    let c := { c with stoped := true }.closePipeline closes
    if c.fault.isSome then c else c.resetClient

/-- An event is possible only when what it ends is under way, and nothing is after a fault. -/
def step (c : TcpClient) (e : TcpClientEvent) : Option TcpClient :=
  if c.fault.isSome then
    none
  else
    match e with
    | .start => if c.started then none else some ({ c with started := true }.doConnect 0)
    | .connectSuccess p =>
      if p ∈ c.connecting then
        some { c with connecting := c.connecting.erase p }.onConnectSuccess
      else
        none
    | .connectError p =>
      if p ∈ c.connecting then
        some { c with connecting := c.connecting.erase p }.onConnectError
      else
        none
    | .deletePipeline p =>
      if p ∈ c.managed then
        some ({ c with managed := c.managed.erase p }.deletePipeline p)
      else
        none
    | .timer t read =>
      if t ∈ c.timers then
        some ({ c with timers := c.timers.erase t }.doConnect (t.timeout read))
      else
        none
    | .sendIOBuf => some c.sendIOBufThreadSafe
    | .sendTask => if c.sends = 0 then none else some { c with sends := c.sends - 1 }.sendTask
    | .stop closes => some (c.stop closes)

/-- The bootstrap's current pipeline is the established one, managed by this client. -/
def Established (c : TcpClient) : Prop :=
  c.connected = true ∧ ∃ p, c.pipeline = some p ∧ c.managed = [p]

/-- Exactly one thing is under way. -/
structure SingleFlight (c : TcpClient) : Prop where
  one : c.connecting.length = 1 ∧ c.timers.length = 0 ∧ ¬ c.Established ∨
    c.connecting.length = 0 ∧ c.timers.length = 1 ∧ ¬ c.Established ∨
    c.connecting.length = 0 ∧ c.timers.length = 0 ∧ c.Established
  connected_iff : c.connected = true ↔ c.Established
  fault : c.fault = none

/-- No attempt after `Stop`, and none of the continuations or sends has found `client_` null. -/
def Clean (c : TcpClient) : Prop :=
  c.attemptsAfterStop = 0 ∧ ∀ site ≠ .stop, c.fault ≠ some (.nullClient site)

/-- No attempt is in flight when `Stop` is called, and after it no attempt has an outcome, no timer
fires, no pipeline reports its deletion, nothing is sent, and no queued send finds the client
connected. -/
def Quiet (c : TcpClient) (e : TcpClientEvent) (_ : TcpClient) : Prop :=
  match e with
  | .start => True
  | .stop _ => c.stoped = false → c.connecting = []
  | .sendTask => c.stoped = true → c.connected = false
  | .connectSuccess _ => c.stoped = false
  | .connectError _ => c.stoped = false
  | .timer _ _ => c.stoped = false
  | .deletePipeline _ => c.stoped = false
  | .sendIOBuf => c.stoped = false

/-- All that a step can do. -/
theorem step_cases {c c' : TcpClient} {e : TcpClientEvent} (h : step c e = some c') :
    c.fault = none ∧
      match e with
      | .start => c.started = false ∧ c' = { c with started := true }.doConnect 0
      | .connectSuccess p => p ∈ c.connecting ∧
          c' = { c with connecting := c.connecting.erase p }.onConnectSuccess
      | .connectError p => p ∈ c.connecting ∧
          c' = { c with connecting := c.connecting.erase p }.onConnectError
      | .deletePipeline p => p ∈ c.managed ∧
          c' = { c with managed := c.managed.erase p }.deletePipeline p
      | .timer t read => t ∈ c.timers ∧
          c' = { c with timers := c.timers.erase t }.doConnect (t.timeout read)
      | .sendIOBuf => c' = c.sendIOBufThreadSafe
      | .sendTask => c.sends ≠ 0 ∧ c' = { c with sends := c.sends - 1 }.sendTask
      | .stop closes => c' = c.stop closes := by
  unfold step at h
  split at h
  · cases h
  · next hfault =>
    refine ⟨by simpa using hfault, ?_⟩
    cases e with
    | start =>
      dsimp only at h
      split at h
      · cases h
      · next hstarted =>
        cases h
        exact ⟨by simpa using hstarted, rfl⟩
    | connectSuccess p =>
      dsimp only at h
      split at h
      · next hp =>
        cases h
        exact ⟨hp, rfl⟩
      · cases h
    | connectError p =>
      dsimp only at h
      split at h
      · next hp =>
        cases h
        exact ⟨hp, rfl⟩
      · cases h
    | deletePipeline p =>
      dsimp only at h
      split at h
      · next hp =>
        cases h
        exact ⟨hp, rfl⟩
      · cases h
    | timer t read =>
      dsimp only at h
      split at h
      · next ht =>
        cases h
        exact ⟨ht, rfl⟩
      · cases h
    | sendIOBuf =>
      cases h
      rfl
    | sendTask =>
      dsimp only at h
      split at h
      · cases h
      · next hsends =>
        cases h
        exact ⟨hsends, rfl⟩
    | stop closes =>
      cases h
      rfl

/-! ## The phases of a client -/

end TcpClient

def TcpClientEvent.isStop : TcpClientEvent → Bool
  | .stop _ => true
  | _ => false

/-- What a client that is not stopped is doing. -/
inductive TcpPhase where
  | connecting
  | waiting
  | established
  deriving DecidableEq

/-- What ends a phase. -/
def TcpPhase.next : TcpPhase → TcpClientEvent → TcpPhase
  | .connecting, .connectSuccess _ => .established
  | .connecting, .connectError _ => .waiting
  | .waiting, .timer _ _ => .connecting
  | .established, .deletePipeline _ => .waiting
  | phase, _ => phase

namespace TcpClient

/-- What is under way in a phase. -/
def UnderWay (c : TcpClient) : TcpPhase → Prop
  | .connecting => ∃ p, c.connecting = [p] ∧ c.pipeline = some p ∧ c.timers = [] ∧
      c.managed = [] ∧ c.connected = false
  | .waiting => ∃ t, c.connecting = [] ∧ c.timers = [t] ∧ c.managed = [] ∧ c.connected = false
  | .established => ∃ p, c.connecting = [] ∧ c.pipeline = some p ∧ c.timers = [] ∧
      c.managed = [p] ∧ c.connected = true

/-- A client that runs, in a phase. -/
structure Live (c : TcpClient) (phase : TcpPhase) : Prop where
  client : c.client = true
  stoped : c.stoped = false
  started : c.started = true
  fault : c.fault = none
  attempts : c.attemptsAfterStop = 0
  underWay : c.UnderWay phase

variable {c c' : TcpClient} {phase : TcpPhase}

theorem live_start (h : step {} .start = some c) : Live c .connecting := by
  cases h
  exact ⟨rfl, rfl, rfl, rfl, rfl, 0, rfl, rfl, rfl, rfl, rfl⟩

theorem Live.doConnect (h : Live c .waiting) {t : TcpClientTimer} (ht : t ∈ c.timers)
    (timeout : Int32) :
    Live ({ c with timers := c.timers.erase t }.doConnect timeout) .connecting := by
  obtain ⟨hclient, hstoped, hstarted, hfault, hattempts, u, hconn, htimers, hmanaged, hconnected⟩ := h
  rw [htimers, List.mem_singleton] at ht
  subst ht
  unfold TcpClient.doConnect
  rw [if_pos hclient]
  exact ⟨hclient, hstoped, hstarted, hfault, by simp [hattempts, hstoped], c.pipelines, by rw [hconn],
    rfl, by simp [htimers], hmanaged, hconnected⟩

theorem Live.onConnectSuccess (h : Live c .connecting) {p : ℕ} (hp : p ∈ c.connecting) :
    Live { c with connecting := c.connecting.erase p }.onConnectSuccess .established := by
  obtain ⟨hclient, hstoped, hstarted, hfault, hattempts, q, hconn, hpipe, htimers, hmanaged, -⟩ := h
  rw [hconn, List.mem_singleton] at hp
  subst hp
  simp only [TcpClient.onConnectSuccess, hclient, hpipe, Bool.not_true, Bool.false_eq_true, if_false]
  exact ⟨rfl, hstoped, hstarted, hfault, hattempts, p, by simp [hconn], rfl, htimers, by rw [hmanaged],
    rfl⟩

theorem Live.onConnectError (h : Live c .connecting) {p : ℕ} (hp : p ∈ c.connecting) :
    Live { c with connecting := c.connecting.erase p }.onConnectError .waiting := by
  obtain ⟨hclient, hstoped, hstarted, hfault, hattempts, q, hconn, -, htimers, hmanaged, hconnected⟩ := h
  rw [hconn, List.mem_singleton] at hp
  subst hp
  simp only [TcpClient.onConnectError, hclient, if_true]
  exact ⟨rfl, hstoped, hstarted, hfault, hattempts, .connectError, by simp [hconn], by rw [htimers],
    hmanaged, hconnected⟩

/-- The `CHECK` holds: a managed pipeline is the current one. -/
theorem Live.deletePipeline (h : Live c .established) {p : ℕ} (hp : p ∈ c.managed) :
    Live ({ c with managed := c.managed.erase p }.deletePipeline p) .waiting := by
  obtain ⟨hclient, hstoped, hstarted, hfault, hattempts, q, hconn, hpipe, htimers, hmanaged, -⟩ := h
  rw [hmanaged, List.mem_singleton] at hp
  subst hp
  simp only [TcpClient.deletePipeline, hclient, hpipe, hstoped, Bool.not_true,
    Bool.false_eq_true, ne_eq, not_true_eq_false, Bool.not_false, if_true, if_false]
  exact ⟨rfl, rfl, hstarted, hfault, hattempts, .deletePipeline, hconn, by rw [htimers],
    by simp [hmanaged], rfl⟩

/-- Only a client with an attempt under way is connecting, and so on. -/
theorem UnderWay.eq_connecting (h : c.UnderWay phase) {p : ℕ} (hp : p ∈ c.connecting) :
    phase = .connecting := by
  cases phase with
  | connecting => rfl
  | waiting =>
    obtain ⟨t, hconn, -⟩ := h
    rw [hconn] at hp
    cases hp
  | established =>
    obtain ⟨-, hconn, -⟩ := h
    rw [hconn] at hp
    cases hp

theorem UnderWay.eq_waiting (h : c.UnderWay phase) {t : TcpClientTimer} (ht : t ∈ c.timers) :
    phase = .waiting := by
  cases phase with
  | connecting =>
    obtain ⟨-, -, -, htimers, -⟩ := h
    rw [htimers] at ht
    cases ht
  | waiting => rfl
  | established =>
    obtain ⟨-, -, -, htimers, -⟩ := h
    rw [htimers] at ht
    cases ht

theorem UnderWay.eq_established (h : c.UnderWay phase) {p : ℕ} (hp : p ∈ c.managed) :
    phase = .established := by
  cases phase with
  | connecting =>
    obtain ⟨-, -, -, -, hmanaged, -⟩ := h
    rw [hmanaged] at hp
    cases hp
  | waiting =>
    obtain ⟨-, -, -, hmanaged, -⟩ := h
    rw [hmanaged] at hp
    cases hp
  | established => rfl

theorem Live.sendTask (h : Live c phase) : c.sendTask = c := by
  unfold TcpClient.sendTask
  split
  · next hconnected =>
    cases phase with
    | connecting =>
      obtain ⟨-, -, -, -, -, hfalse⟩ := h.underWay
      rw [hfalse] at hconnected
      cases hconnected
    | waiting =>
      obtain ⟨-, -, -, -, hfalse⟩ := h.underWay
      rw [hfalse] at hconnected
      cases hconnected
    | established =>
      obtain ⟨p, -, hpipe, -⟩ := h.underWay
      simp [h.client, hpipe]
  · rfl

/-- The phases follow every event but `Stop`. -/
theorem Live.step (h : Live c phase) {e : TcpClientEvent} (he : e.isStop = false)
    (hs : step c e = some c') : Live c' (phase.next e) := by
  have hcase := (step_cases hs).2
  cases e with
  | start =>
    rw [h.started] at hcase
    cases hcase.1
  | connectSuccess p =>
    obtain ⟨hp, rfl⟩ := hcase
    obtain rfl := h.underWay.eq_connecting hp
    exact h.onConnectSuccess hp
  | connectError p =>
    obtain ⟨hp, rfl⟩ := hcase
    obtain rfl := h.underWay.eq_connecting hp
    exact h.onConnectError hp
  | deletePipeline p =>
    obtain ⟨hp, rfl⟩ := hcase
    obtain rfl := h.underWay.eq_established hp
    exact h.deletePipeline hp
  | timer t read =>
    obtain ⟨ht, rfl⟩ := hcase
    obtain rfl := h.underWay.eq_waiting ht
    exact h.doConnect ht _
  | sendIOBuf =>
    have hnext : phase.next .sendIOBuf = phase := by cases phase <;> rfl
    rw [hcase, hnext, TcpClient.sendIOBufThreadSafe, if_pos h.client]
    exact ⟨h.client, h.stoped, h.started, h.fault, h.attempts, h.underWay⟩
  | sendTask =>
    have hnext : phase.next .sendTask = phase := by cases phase <;> rfl
    have hlive : Live { c with sends := c.sends - 1 } phase :=
      ⟨h.client, h.stoped, h.started, h.fault, h.attempts, h.underWay⟩
    rw [hcase.2, hnext, hlive.sendTask]
    exact hlive
  | stop closes => cases he

/-- A run of the client is a run of the phases. -/
theorem Live.run {es : List TcpClientEvent} (hes : ∀ e ∈ es, e.isStop = false)
    (h : Live c phase) (hr : Transition.run TcpClient.step c es = some c') :
    Live c' (es.foldl TcpPhase.next phase) := by
  induction es generalizing c phase with
  | nil =>
    cases hr
    exact h
  | cons e es ih =>
    obtain ⟨c₁, h₁, h₂⟩ := run_cons_eq_some.1 hr
    exact ih (fun e' he' => hes e' (List.mem_cons_of_mem e he'))
      (h.step (hes e List.mem_cons_self) h₁) h₂

theorem Live.singleFlight (h : Live c phase) : SingleFlight c := by
  have hway := h.underWay
  cases phase with
  | connecting =>
    obtain ⟨p, hconn, -, htimers, -, hconnected⟩ := hway
    have hnot : ¬ c.Established := fun he => by simp [he.1] at hconnected
    exact ⟨.inl ⟨by rw [hconn]; rfl, by rw [htimers]; rfl, hnot⟩, by simp [hconnected, hnot], h.fault⟩
  | waiting =>
    obtain ⟨t, hconn, htimers, -, hconnected⟩ := hway
    have hnot : ¬ c.Established := fun he => by simp [he.1] at hconnected
    exact ⟨.inr (.inl ⟨by rw [hconn]; rfl, by rw [htimers]; rfl, hnot⟩), by simp [hconnected, hnot],
      h.fault⟩
  | established =>
    obtain ⟨p, hconn, hpipe, htimers, hmanaged, hconnected⟩ := hway
    have hest : c.Established := ⟨hconnected, p, hpipe, hmanaged⟩
    exact ⟨.inr (.inr ⟨by rw [hconn]; rfl, by rw [htimers]; rfl, hest⟩), by simp [hconnected, hest],
      h.fault⟩

/-- **One thing under way.** After `Start` and any events but `Stop`, exactly one of a connect
attempt, a reconnect timer and an established pipeline is under way, the client is connected in
the last case only, and nothing has failed. -/
theorem reconnects_single_flight (es : List TcpClientEvent) (hes : ∀ e ∈ es, e.isStop = false)
    (h : Transition.run TcpClient.step {} (.start :: es) = some c) : SingleFlight c := by
  obtain ⟨c₁, h₁, h₂⟩ := run_cons_eq_some.1 h
  exact ((live_start h₁).run hes h₂).singleFlight

theorem reconnects_single_flight_twice :
    ∃ c, Transition.run TcpClient.step {} [.start, .connectError 0, .timer .connectError (-7),
      .connectSuccess 1, .sendIOBuf, .deletePipeline 1, .sendTask, .timer .deletePipeline 5] = some c ∧
      SingleFlight c :=
  ⟨_, rfl, reconnects_single_flight [.connectError 0, .timer .connectError (-7), .connectSuccess 1,
    .sendIOBuf, .deletePipeline 1, .sendTask, .timer .deletePipeline 5] (by decide) rfl⟩

/-! ## Stopping -/

/-- A client after `Stop`. -/
structure Stopped (c : TcpClient) : Prop where
  client : c.client = false
  stoped : c.stoped = true
  started : c.started = true
  fault : c.fault = none
  attempts : c.attemptsAfterStop = 0

theorem not_clean_crash {site : TcpClientSite} (hsite : site ≠ .stop) :
    ¬ Clean (c.crash (.nullClient site)) :=
  fun h => h.2 site hsite rfl

theorem clean_of_fault (hattempts : c.attemptsAfterStop = 0) (hfault : c.fault = none) : c.Clean := by
  refine ⟨hattempts, ?_⟩
  intro site _ h
  rw [hfault] at h
  cases h

/-- `Stop` of a client with an attempt in flight finds `client_` null when the attempt fails. -/
theorem Live.stop_connecting (h : Live c .connecting) (closes : Bool) :
    (c.stop closes).fault = some (.nullClient .connectError) := by
  obtain ⟨p, hconn, hpipeline, -, -, hconnected⟩ := h.underWay
  simp [TcpClient.stop, closePipeline, resetClient, TcpClient.onConnectError, crash, h.client, h.fault,
    hconn, hpipeline, hconnected]

/-- Any other client is stopped. -/
theorem Live.stop (h : Live c phase) (hphase : phase ≠ .connecting) (closes : Bool) :
    Stopped (c.stop closes) ∧ (c.stop closes).connected = (c.connected && !closes) := by
  obtain ⟨hclient, hstoped, hstarted, hfault, hattempts, hway⟩ := h
  cases phase with
  | connecting => exact absurd rfl hphase
  | waiting =>
    obtain ⟨t, hconn, -, -, hconnected⟩ := hway
    have hreset : c.stop closes = { c with stoped := true, client := false } := by
      simp only [TcpClient.stop, closePipeline, resetClient, hclient, hfault, hconn, hconnected]
      cases c.pipeline <;> simp
    rw [hreset]
    exact ⟨⟨rfl, rfl, hstarted, hfault, hattempts⟩, by simp [hconnected]⟩
  | established =>
    obtain ⟨p, hconn, hpipeline, -, hmanaged, hconnected⟩ := hway
    cases closes with
    | true =>
      have hreset : c.stop true =
          { c with stoped := true, client := false, managed := [], connected := false } := by
        simp [TcpClient.stop, closePipeline, TcpClient.deletePipeline, resetClient, hclient, hfault,
          hconn, hpipeline, hmanaged, hconnected]
      rw [hreset]
      exact ⟨⟨rfl, rfl, hstarted, hfault, hattempts⟩, by simp⟩
    | false =>
      have hreset : c.stop false = { c with stoped := true, client := false } := by
        simp [TcpClient.stop, closePipeline, resetClient, hclient, hfault, hconn, hpipeline, hconnected]
      rw [hreset]
      exact ⟨⟨rfl, rfl, hstarted, hfault, hattempts⟩, by simp⟩

/-- Before a fault a client runs or is stopped. -/
def Guarded (c : TcpClient) : Prop := c.fault = none → (∃ phase, Live c phase) ∨ c.Stopped

theorem guarded_crash (c : TcpClient) (fault : TcpClientFault) : Guarded (c.crash fault) := nofun

theorem Live.guarded (h : Live c phase) : Guarded c ∧ Clean c :=
  ⟨fun _ => .inl ⟨phase, h⟩, clean_of_fault h.attempts h.fault⟩

theorem Stopped.guarded (h : c.Stopped) : Guarded c ∧ Clean c :=
  ⟨fun _ => .inr h, clean_of_fault h.attempts h.fault⟩

theorem crash_iff (c : TcpClient) (site : TcpClientSite) (hsite : site ≠ .stop) {Q : Prop} (hq : ¬ Q) :
    Guarded (c.crash (.nullClient site)) ∧ (Clean (c.crash (.nullClient site)) ↔ Q) :=
  ⟨guarded_crash c _, iff_of_false (not_clean_crash hsite) hq⟩

/-- Nothing uses a null `client_` before `Stop`, nor in a `Stop` without an attempt in flight. -/
theorem Live.step_clean (h : Live c phase) {e : TcpClientEvent} (hs : TcpClient.step c e = some c') :
    Guarded c' ∧ (Clean c' ↔ Quiet c e c') := by
  cases hstop : e.isStop with
  | false =>
    obtain ⟨hguarded, hclean⟩ := (h.step hstop hs).guarded
    refine ⟨hguarded, iff_of_true hclean ?_⟩
    cases e with
    | start => trivial
    | sendTask => exact fun hstoped => absurd hstoped (by simp [h.stoped])
    | stop closes => cases hstop
    | _ => exact h.stoped
  | true =>
    cases e with
    | stop closes =>
      obtain rfl : c' = c.stop closes := (step_cases hs).2
      by_cases hphase : phase = .connecting
      · subst hphase
        have hfault := h.stop_connecting closes
        refine ⟨fun hnone => ?_, iff_of_false (fun hclean => ?_) fun hquiet => ?_⟩
        · rw [hfault] at hnone
          cases hnone
        · exact hclean.2 .connectError nofun hfault
        · obtain ⟨p, hconn, -⟩ := h.underWay
          rw [hquiet h.stoped] at hconn
          cases hconn
      · obtain ⟨hguarded, hclean⟩ := (h.stop hphase closes).1.guarded
        refine ⟨hguarded, iff_of_true hclean fun _ => ?_⟩
        cases hconn : c.connecting with
        | nil => rfl
        | cons p ps => exact absurd (h.underWay.eq_connecting (hconn ▸ List.mem_cons_self)) hphase
    | _ => cases hstop

/-- After `Stop` the continuations that use `client_` find it null; a queued send that finds the client
not connected and another `Stop` are all that is left. -/
theorem Stopped.step_clean (h : c.Stopped) {e : TcpClientEvent} (hs : step c e = some c') :
    Guarded c' ∧ (Clean c' ↔ Quiet c e c') := by
  have hcase := (step_cases hs).2
  have hc : ¬ c.client = true := by rw [h.client]; nofun
  have hnull : (!c.client) = true := by rw [h.client]; rfl
  have hloud : ¬ c.stoped = false := by rw [h.stoped]; nofun
  cases e with
  | start =>
    rw [h.started] at hcase
    cases hcase.1
  | connectSuccess p =>
    obtain ⟨-, rfl⟩ := hcase
    rw [onConnectSuccess, if_pos hnull]
    exact crash_iff _ .connectSuccess nofun hloud
  | connectError p =>
    obtain ⟨-, rfl⟩ := hcase
    rw [onConnectError, if_neg hc]
    exact crash_iff _ .connectError nofun hloud
  | deletePipeline p =>
    obtain ⟨-, rfl⟩ := hcase
    rw [deletePipeline, if_pos hnull]
    exact crash_iff _ .deletePipeline nofun hloud
  | timer t read =>
    obtain ⟨-, rfl⟩ := hcase
    rw [doConnect, if_neg hc]
    exact crash_iff _ .doConnect nofun hloud
  | sendIOBuf =>
    cases hcase
    rw [sendIOBufThreadSafe, if_neg hc]
    exact crash_iff _ .sendIOBuf nofun hloud
  | sendTask =>
    obtain ⟨-, rfl⟩ := hcase
    by_cases hconnected : c.connected = true
    · have hq : ∀ d, ¬ Quiet c .sendTask d := fun _ hq => by simp [hq h.stoped] at hconnected
      rw [sendTask, if_pos hconnected, if_pos hnull]
      exact crash_iff _ .sendTask nofun (hq _)
    · rw [sendTask, if_neg hconnected]
      have hstopped : Stopped { c with sends := c.sends - 1 } :=
        ⟨h.client, h.stoped, h.started, h.fault, h.attempts⟩
      exact ⟨hstopped.guarded.1, iff_of_true hstopped.guarded.2 fun _ => by simpa using hconnected⟩
  | stop closes =>
    cases hcase
    rw [stop, if_pos hnull]
    refine ⟨guarded_crash c _, iff_of_true ⟨h.attempts, ?_⟩ fun hstoped => absurd hstoped hloud⟩
    intro site hsite hsame
    cases hsame
    exact hsite rfl

theorem Guarded.step (hg : Guarded c) {e : TcpClientEvent} (h : step c e = some c') :
    Guarded c' ∧ (Clean c' ↔ Quiet c e c') := by
  rcases hg (step_cases h).1 with ⟨phase, hlive⟩ | hstopped
  · exact hlive.step_clean h
  · exact hstopped.step_clean h

/-- **After `Stop`.** In a run from `Start`, no attempt is made after `Stop` and none of the
continuations and sends uses a null `client_` exactly if no attempt is in flight when `Stop` is called
and, once it has run, no attempt has an outcome, no timer fires, no pipeline reports its deletion,
nothing is sent, and no queued send finds the client connected. -/
theorem stop_clean_iff (es : List TcpClientEvent) :
    Along TcpClient.step (fun _ _ c' => Clean c') {} (.start :: es) ↔
      Along TcpClient.step Quiet {} (.start :: es) := by
  rw [along_cons, along_cons]
  refine forall₂_congr ?_
  intro c h
  obtain ⟨hg, hclean⟩ := (live_start h).guarded
  have hrest : Along TcpClient.step (fun _ _ c' => Clean c') c es ↔ Along TcpClient.step Quiet c es :=
    Along.congr (fun c e c' hg (hs : TcpClient.step c e = some c') => Guarded.step hg hs) hg
  rw [hrest, and_iff_right hclean]
  exact (and_iff_right trivial).symm

/-- The timer of a failed attempt fires after `Stop`. -/
theorem timer_after_stop :
    ¬ ∀ es : List TcpClientEvent, Along TcpClient.step (fun _ _ c' => Clean c') {} (.start :: es) := by
  intro h
  have hstart := h [.connectError 0, .stop true, .timer .connectError 0]
  have htimer := (((hstart _ rfl).2 _ rfl).2 _ rfl).2 _ rfl
  exact htimer.1.2 .doConnect nofun rfl

end TcpClient

end ServiceFramework.Net
