import ServiceFramework.Net.ServiceRegistry
import ServiceFramework.Net.TcpClientGroup

/-!
# Services that run

`ServiceManager` (`net/service_manager.cc`) after `Start`: its registry, with the clients of its groups
and the sends that are under way. A send by the name of a service looks the name up in `services_`;
where it is that of a group of clients, the group draws one of them, or for a broadcast goes through
all of them, and each client that is chosen queues a task. `Stop` goes through the entries, in the order
of the hash table.
-/

namespace ServiceFramework.Net

open Transition

/-! ## The clients -/

/-- What happens to a client apart from the calls of its group. -/
def TcpClientEvent.isOwn : TcpClientEvent → Bool
  | .sendIOBuf => false
  | .sendTask => false
  | .stop _ => false
  | _ => true

namespace TcpClient

/-- A client that is not started. -/
structure Idle (c : TcpClient) : Prop where
  client : c.client = true
  stoped : c.stoped = false
  started : c.started = false
  fault : c.fault = none
  attempts : c.attemptsAfterStop = 0
  connecting : c.connecting = []
  timers : c.timers = []
  managed : c.managed = []
  connected : c.connected = false

/-- A client that is not stopped. -/
def Ready (c : TcpClient) : Prop := c.Idle ∨ ∃ phase, Live c phase

variable {c c' : TcpClient}

theorem ready_new : ({} : TcpClient).Ready := .inl ⟨rfl, rfl, rfl, rfl, rfl, rfl, rfl, rfl, rfl⟩

theorem Ready.client (h : c.Ready) : c.client = true := by
  rcases h with h | ⟨phase, h⟩
  · exact h.client
  · exact h.client

theorem Idle.step (h : c.Idle) {e : TcpClientEvent} (he : e.isOwn = true)
    (hs : step c e = some c') : Live c' .connecting := by
  obtain ⟨-, hcase⟩ := step_cases hs
  cases e with
  | start =>
    obtain ⟨-, rfl⟩ := hcase
    unfold TcpClient.doConnect
    rw [if_pos h.client]
    exact ⟨h.client, h.stoped, rfl, h.fault, by simp [h.attempts, h.stoped], c.pipelines,
      by simp [h.connecting], rfl, h.timers, h.managed, h.connected⟩
  | connectSuccess p =>
    rw [h.connecting] at hcase
    cases hcase.1
  | connectError p =>
    rw [h.connecting] at hcase
    cases hcase.1
  | deletePipeline p =>
    rw [h.managed] at hcase
    cases hcase.1
  | timer t read =>
    rw [h.timers] at hcase
    cases hcase.1
  | sendIOBuf => cases he
  | sendTask => cases he
  | stop closes => cases he

theorem Ready.step (h : c.Ready) {e : TcpClientEvent} (he : e.isOwn = true)
    (hs : step c e = some c') : c'.Ready := by
  rcases h with h | ⟨phase, h⟩
  · exact .inr ⟨_, h.step he hs⟩
  · have hstop : e.isStop = false := by
      cases e with
      | stop closes => cases he
      | _ => rfl
    exact .inr ⟨_, h.step hstop hs⟩

/-- The sends of a client are no part of what it is doing. -/
theorem Ready.sends (h : c.Ready) (sends : ℕ) : Ready { c with sends } := by
  rcases h with h | ⟨phase, h⟩
  · exact .inl ⟨h.client, h.stoped, h.started, h.fault, h.attempts, h.connecting, h.timers, h.managed,
      h.connected⟩
  · exact .inr ⟨phase, h.client, h.stoped, h.started, h.fault, h.attempts, h.underWay⟩

theorem Ready.sendIOBufThreadSafe_eq (h : c.Ready) :
    c.sendIOBufThreadSafe = { c with sends := c.sends + 1 } :=
  if_pos h.client

theorem Ready.sendTask_eq (h : c.Ready) : c.sendTask = c := by
  rcases h with h | ⟨phase, h⟩
  · rw [sendTask, if_neg (by simp [h.connected])]
  · exact h.sendTask

/-- `Stop` of a client without an attempt in flight: it lets go of `client_`, and stays connected unless
closing the pipeline reports its deletion at once. -/
theorem Ready.stop (h : c.Ready) (hconn : c.connecting = []) (closes : Bool) :
    (c.stop closes).fault = none ∧ (c.stop closes).client = false ∧
      (c.stop closes).connected = (c.connected && !closes) := by
  rcases h with h | ⟨phase, h⟩
  · have hstop : c.stop closes = { c with stoped := true, client := false } := by
      simp only [TcpClient.stop, closePipeline, resetClient, h.client, h.fault, h.connected, hconn]
      cases c.pipeline <;> simp
    rw [hstop, h.connected]
    exact ⟨h.fault, rfl, rfl⟩
  · have hphase : phase ≠ .connecting := by
      rintro rfl
      obtain ⟨p, hp, -⟩ := h.underWay
      rw [hconn] at hp
      cases hp
    obtain ⟨hstopped, hconnected⟩ := h.stop hphase closes
    exact ⟨hstopped.fault, hstopped.client, hconnected⟩

/-- With an attempt in flight `Stop` ends the process. -/
theorem Ready.stop_connecting (h : c.Ready) (hconn : c.connecting ≠ []) (closes : Bool) :
    (c.stop closes).fault.isSome = true := by
  rcases h with h | ⟨phase, h⟩
  · exact absurd h.connecting hconn
  · obtain ⟨p, hp⟩ := List.exists_mem_of_ne_nil c.connecting hconn
    obtain rfl := h.underWay.eq_connecting hp
    rw [h.stop_connecting closes]
    rfl

/-- `Stop` of a client that is stopped finds `client_` null. -/
theorem stop_of_client (hc : c.client = false) (closes : Bool) :
    c.stop closes = c.crash (.nullClient .stop) := by
  rw [TcpClient.stop, if_pos (by simp [hc])]

end TcpClient

/-! ## The manager -/

/-- A call of `SendIOBuf` with the name of a service, whether it is to be broadcast, and what it
returns. -/
structure ServiceCall (D : Type) where
  serviceName : String
  data : D
  broadCast : Bool
  rv : Bool
  deriving DecidableEq

/-- A task that `SendIOBufThreadSafe` of a client queued: the number of the call, that of the client
among the services, the data, and whether there is a callback. -/
structure ServiceTask (D : Type) where
  call : ℕ
  client : ℕ
  data : D
  callback : Bool
  deriving DecidableEq

/-- What a client wrote, with the number of the call. -/
structure ServiceWrite (D : Type) where
  call : ℕ
  client : ℕ
  pipeline : ℕ
  data : D
  deriving DecidableEq

/-- The registry after `Start`, the clients by their numbers, the calls made, the clients that each
broadcast has still to come to, the tasks queued in no particular order, what was written, the calls
whose callback ran, and the services that `Stop` was called on. -/
structure RunningServices (D : Type) where
  registry : ServiceRegistry
  clients : ℕ → TcpClient := fun _ => {}
  piped : ∀ n, (clients n).Piped := by exact fun _ => nofun
  calls : List (ServiceCall D) := []
  todo : ℕ → List ℕ := fun _ => []
  tasks : List (ServiceTask D) := []
  written : List (ServiceWrite D) := []
  calledBack : List ℕ := []
  stopped : List ℕ := []

/-- Something happens to a client, some thread calls `SendIOBuf`, a broadcast comes to its next client,
an event base runs a task, or `Stop` is called: it walks the entries in the given order, and `closes`
tells of each client whether closing its pipeline reports the deletion at once. Nothing else happens
before `Stop` returns. -/
inductive ServicesEvent (D : Type) where
  | client (number : ℕ) (e : TcpClientEvent)
  | sendIOBuf (serviceName : String) (data : D) (dispatchStrategy : DispatchStrategy) (draw : UInt32)
  | sendIOBufWithCallback (serviceName : String) (data : D) (draw : UInt32)
  | visit (call : ℕ)
  | runTask (i : ℕ)
  | stop (names : List String) (closes : ℕ → Bool)

def ServicesEvent.isStop {D : Type} : ServicesEvent D → Bool
  | .stop _ _ => true
  | _ => false

namespace RunningServices

variable {D : Type}

/-- `Lookup`. -/
def lookup (w : RunningServices D) (serviceName : String) : Option RegisteredService :=
  w.registry.services.find serviceName

def setClient (w : RunningServices D) (number : ℕ) (c : TcpClient) (hc : c.Piped) :
    RunningServices D :=
  { w with
    clients := Function.update w.clients number c
    piped := fun n => by
      by_cases hn : n = number
      · subst hn
        rw [Function.update_self]
        exact hc
      · rw [Function.update_of_ne hn]
        exact w.piped n }

/-- The number is that of a client that was made. -/
def IsClient (w : RunningServices D) (number : ℕ) : Bool :=
  w.registry.created.any fun s => s.number = number ∧ s.config.serviceType = "tcp_client"

/-- A group, with its clients as they are. -/
def groupOf (w : RunningServices D) (group : ClientGroup) : TcpClientGroup where
  clients := group.clients.map fun c => w.clients c.client.number
  piped c hc := by
    obtain ⟨member, -, rfl⟩ := List.mem_map.1 hc
    exact w.piped _

/-- `SendIOBufThreadSafe` of a client; `none` if its `client_` is null. -/
def queueTask (w : RunningServices D) (call number : ℕ) (data : D) (callback : Bool) :
    Option (RunningServices D) := do
  let task ← TcpClientGroup.sendIOBufThreadSafe (w.clients number) number data callback
  return { w.setClient number (w.clients number).sendIOBufThreadSafe
      (w.piped number).sendIOBufThreadSafe with
    tasks := w.tasks ++ [{ call, client := task.client, data := task.data, callback := task.callback }] }

/-- A call that draws a client of a group, by what the group does with it. -/
def sendToDrawnClient (w : RunningServices D) (group : ClientGroup) (serviceName : String) (data : D)
    (r : Option (Bool × List (ClientSendTask D))) : Option (RunningServices D) := do
  let (rv, tasks) ← r
  let w' ← run (fun w' task => do
    let c ← group.clients[task.client]?
    queueTask w' w.calls.length c.client.number task.data task.callback) w tasks
  return { w' with calls := w.calls ++ [{ serviceName, data, broadCast := false, rv }] }

/-- The case `kBroadCast` of `SendIOBuf`, up to its loop. -/
def broadCast (w : RunningServices D) (group : ClientGroup) (serviceName : String) (data : D) :
    RunningServices D :=
  let onlines := group.clients.map fun c => c.client.number
  { w with
    calls := w.calls ++ [{ serviceName, data, broadCast := true, rv := !onlines.isEmpty }]
    todo := Function.update w.todo w.calls.length onlines }

/-- Both versions of `SendIOBuf`, by what is done with a group. A service that is no group has no
clients, so its class decides nothing but the log line. -/
def sendByName (w : RunningServices D) (serviceName : String) (data : D) (broadCast : Bool)
    (send : ClientGroup → Option (RunningServices D)) : Option (RunningServices D) :=
  let notSent := { w with calls := w.calls ++ [{ serviceName, data, broadCast, rv := false }] }
  match w.lookup serviceName with
  | some (.tcpClientGroup group) => send group
  | some (.single _) => some notSent
  | none => some notSent

/-- `SendIOBuf` with a strategy. -/
def sendIOBuf (w : RunningServices D) (serviceName : String) (data : D)
    (dispatchStrategy : DispatchStrategy) (draw : UInt32) : Option (RunningServices D) :=
  w.sendByName serviceName data (dispatchStrategy = .kBroadCast) fun group =>
    match dispatchStrategy with
    | .kBroadCast => some (w.broadCast group serviceName data)
    | _ => w.sendToDrawnClient group serviceName data
        ((w.groupOf group).sendIOBuf data dispatchStrategy draw)

/-- `SendIOBuf` with a callback. -/
def sendIOBufWithCallback (w : RunningServices D) (serviceName : String) (data : D) (draw : UInt32) :
    Option (RunningServices D) :=
  w.sendByName serviceName data false fun group =>
    w.sendToDrawnClient group serviceName data
      ((w.groupOf group).sendIOBufWithCallback data draw)

/-- The loop of a broadcast comes to a client. -/
def visit (w : RunningServices D) (n : ℕ) : Option (RunningServices D) := do
  let call ← w.calls[n]?
  match w.todo n with
  | [] => none
  | number :: todo =>
    let w := { w with todo := Function.update w.todo n todo }
    if (w.clients number).connected then
      w.queueTask n number call.data false
    else
      some w

/-- The task `i` runs on the event base of its client. -/
def runTask (w : RunningServices D) (i : ℕ) : Option (RunningServices D) := do
  let task ← w.tasks[i]?
  let c := w.clients task.client
  let (out, calledBack) ← TcpClientGroup.runSendTask c
    { client := task.client, data := task.data, callback := task.callback }
  return { w.setClient task.client { c with sends := c.sends - 1 }.sendTask
      (TcpClient.Piped.sendTask (c := { c with sends := c.sends - 1 }) (w.piped task.client)) with
    tasks := w.tasks.eraseIdx i
    written := w.written ++ out.toList.map fun out =>
      { call := task.call, client := task.client, pipeline := out.1, data := out.2 }
    calledBack := w.calledBack ++ if calledBack then [task.call] else [] }

/-- `Stop` of a client. -/
def stopClient (closes : ℕ → Bool) (w : RunningServices D) (number : ℕ) :
    Option (RunningServices D) :=
  let c := (w.clients number).stop (closes number)
  if c.fault.isSome then
    none
  else
    some { w.setClient number c ((w.piped number).stop (closes number)) with
      stopped := w.stopped ++ [number] }

/-- `Stop` of an entry. That of a server is taken to return. -/
def stopService (closes : ℕ → Bool) (w : RunningServices D) :
    RegisteredService → Option (RunningServices D)
  | .tcpClientGroup group => run (stopClient closes) w (group.clients.map fun c => c.client.number)
  | .single service => some { w with stopped := w.stopped ++ [service.number] }

/-- `Stop`, for the names in the order in which the loop comes to their entries. -/
def stop (closes : ℕ → Bool) (w : RunningServices D) (names : List String) :
    Option (RunningServices D) :=
  run (fun w name => do stopService closes w (← w.lookup name)) w names

def step (w : RunningServices D) : ServicesEvent D → Option (RunningServices D)
  | .client number e =>
    if w.IsClient number ∧ e.isOwn then
      match h : TcpClient.step (w.clients number) e with
      | some c => if c.fault.isSome then none else some (w.setClient number c ((w.piped number).step h))
      | none => none
    else
      none
  | .sendIOBuf serviceName data dispatchStrategy draw =>
    w.sendIOBuf serviceName data dispatchStrategy draw
  | .sendIOBufWithCallback serviceName data draw => w.sendIOBufWithCallback serviceName data draw
  | .visit n => w.visit n
  | .runTask i => w.runTask i
  | .stop names closes =>
    if names.Perm w.registry.services.keys then w.stop closes names else none

end RunningServices

end ServiceFramework.Net
