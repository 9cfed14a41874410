import ServiceFramework.Net.TcpClient
import ServiceFramework.Net.ThreadGroupListManager

/-!
# Groups of TCP clients

`TcpClientGroup` (`net/server/tcp_client_group.cc`) sends to one client drawn from those
registered. `GetOnlineClients` returns all of them, and a client that is not connected drops what
it is given, so a call is right exactly if the client drawn is connected, or there is none at all
(`sendIOBuf_picks_online_iff`).
-/

namespace ServiceFramework.Net

/-! ## Clients of a group -/

/-- A connected client has a pipeline. -/
def TcpClient.Piped (c : TcpClient) : Prop := c.connected = true → c.pipeline.isSome = true

namespace TcpClient

variable {c c' : TcpClient}

theorem Piped.doConnect (hc : c.Piped) (timeout : Int32) : (c.doConnect timeout).Piped := by
  unfold TcpClient.doConnect
  by_cases hclient : c.client = true
  · rw [if_pos hclient]
    exact fun _ => rfl
  · rw [if_neg hclient]
    exact hc

theorem Piped.onConnectSuccess (hc : c.Piped) : c.onConnectSuccess.Piped := by
  unfold TcpClient.onConnectSuccess
  split
  · exact hc
  · split
    · exact hc
    · next p hp => exact fun _ => congrArg Option.isSome hp

theorem Piped.onConnectError (hc : c.Piped) : c.onConnectError.Piped := by
  unfold TcpClient.onConnectError
  split <;> exact hc

theorem piped_deletePipeline (c : TcpClient) (p : ℕ) : (c.deletePipeline p).Piped := by
  have hconnected : (c.deletePipeline p).connected = false := by
    unfold TcpClient.deletePipeline
    dsimp only
    split
    · rfl
    · split
      · rfl
      · split <;> rfl
  intro h
  rw [hconnected] at h
  cases h

theorem Piped.sendIOBufThreadSafe (hc : c.Piped) : c.sendIOBufThreadSafe.Piped := by
  unfold TcpClient.sendIOBufThreadSafe
  split <;> exact hc

theorem Piped.sendTask (hc : c.Piped) : c.sendTask.Piped := by
  unfold TcpClient.sendTask
  split
  · split
    · exact hc
    · split <;> exact hc
  · exact hc

theorem Piped.closePipeline (hc : c.Piped) (closes : Bool) : (c.closePipeline closes).Piped := by
  unfold TcpClient.closePipeline
  split
  · split
    · exact hc
    · next p _ =>
      split
      · exact piped_deletePipeline _ p
      · exact hc
  · exact hc

theorem Piped.resetClient (hc : c.Piped) : c.resetClient.Piped := by
  have hreset : Piped { c with client := false } := hc
  unfold TcpClient.resetClient
  dsimp only
  split
  · exact hreset
  · next p _ =>
    split
    · have hbooks : Piped { c with client := false, connecting := c.connecting.erase p } := hc
      exact hbooks.onConnectError
    · exact hreset

theorem Piped.stop (hc : c.Piped) (closes : Bool) : (c.stop closes).Piped := by
  unfold TcpClient.stop
  split
  · exact hc
  · have hclosed : ({ c with stoped := true }.closePipeline closes).Piped :=
      Piped.closePipeline (c := { c with stoped := true }) hc closes
    dsimp only
    split
    · exact hclosed
    · exact hclosed.resetClient

theorem Piped.step (hc : c.Piped) {e : TcpClientEvent} (h : step c e = some c') : c'.Piped := by
  obtain ⟨-, hcase⟩ := step_cases h
  cases e with
  | start =>
    obtain ⟨-, rfl⟩ := hcase
    exact Piped.doConnect (c := { c with started := true }) hc 0
  | connectSuccess p =>
    obtain ⟨-, rfl⟩ := hcase
    exact Piped.onConnectSuccess (c := { c with connecting := c.connecting.erase p }) hc
  | connectError p =>
    obtain ⟨-, rfl⟩ := hcase
    exact Piped.onConnectError (c := { c with connecting := c.connecting.erase p }) hc
  | deletePipeline p =>
    obtain ⟨-, rfl⟩ := hcase
    exact piped_deletePipeline _ p
  | timer t read =>
    obtain ⟨-, rfl⟩ := hcase
    exact Piped.doConnect (c := { c with timers := c.timers.erase t }) hc _
  | sendIOBuf =>
    cases hcase
    exact hc.sendIOBufThreadSafe
  | sendTask =>
    obtain ⟨-, rfl⟩ := hcase
    exact Piped.sendTask (c := { c with sends := c.sends - 1 }) hc
  | stop closes =>
    cases hcase
    exact hc.stop closes

end TcpClient

/-! ## The group -/

/-- `DispatchStrategy`. -/
inductive DispatchStrategy where
  | kDefault
  | kRandom
  | kRoundRobin
  | kConsistencyHash
  | kBroadCast
  deriving DecidableEq

/-- A task that `SendIOBufThreadSafe` queues, for the client of the given number. The second
version of the function has a callback. -/
structure ClientSendTask (D : Type) where
  client : ℕ
  data : D
  callback : Bool

/-- The members of `TcpClientGroup`, with what holds of every client. -/
structure TcpClientGroup where
  clients : List TcpClient := []
  piped : ∀ c ∈ clients, c.Piped := by exact nofun

namespace TcpClientGroup

variable {D : Type}

/-- `RegisterTcpClient`. -/
def registerTcpClient (g : TcpClientGroup) (client : TcpClient) (hclient : client.Piped) :
    TcpClientGroup where
  clients := g.clients ++ [client]
  piped c hc := by
    rcases List.mem_append.1 hc with hc | hc
    · exact g.piped c hc
    · rw [List.mem_singleton.1 hc]
      exact hclient

/-- `GetOnlineClients`. -/
def getOnlineClients (g : TcpClientGroup) : List TcpClient := g.clients

/-- `SendIOBufThreadSafe` of the client of the given number: the task it queues, `none` if
`client_` is null. -/
def sendIOBufThreadSafe (c : TcpClient) (client : ℕ) (data : D) (callback : Bool) :
    Option (ClientSendTask D) :=
  if c.client then some { client, data, callback } else none

/-- A task that `SendIOBufThreadSafe` queued, run on its client: what it writes, with the pipeline,
and whether it calls back; `none` if `client_` or the pipeline is null. -/
def runSendTask (c : TcpClient) (task : ClientSendTask D) : Option (Option (ℕ × D) × Bool) :=
  if c.connected then
    if !c.client then none else c.pipeline.map fun p => (some (p, task.data), task.callback)
  else
    some (none, false)

/-- The part of both versions of `SendIOBuf` that draws a client: the result and the tasks queued,
`none` if `client_` of the client is null. -/
def sendToDrawnClient (g : TcpClientGroup) (data : D) (callback : Bool) (draw : UInt32) :
    Option (Bool × List (ClientSendTask D)) :=
  let onlines := g.getOnlineClients
  if onlines.isEmpty then
    some (false, [])
  else do
    let idx := rand32 (UInt32.ofNat onlines.length) draw
    let client ← onlines[idx.toNat]?
    let task ← sendIOBufThreadSafe client idx.toNat data callback
    return (true, [task])

/-- The case `kBroadCast` of `SendIOBuf`. -/
def broadCast (g : TcpClientGroup) (data : D) : Option (Bool × List (ClientSendTask D)) :=
  let onlines := g.getOnlineClients
  if onlines.isEmpty then
    some (false, [])
  else do
    let tasks ← (onlines.zipIdx.filter fun c => c.1.connected).mapM fun c =>
      sendIOBufThreadSafe c.1 c.2 data false
    return (true, tasks)

/-- `SendIOBuf` with a strategy. -/
def sendIOBuf (g : TcpClientGroup) (data : D) (dispatchStrategy : DispatchStrategy)
    (draw : UInt32) : Option (Bool × List (ClientSendTask D)) :=
  match dispatchStrategy with
  | .kBroadCast => g.broadCast data
  | _ => g.sendToDrawnClient data false draw

/-- `SendIOBuf` with a callback. -/
def sendIOBufWithCallback (g : TcpClientGroup) (data : D) (draw : UInt32) :
    Option (Bool × List (ClientSendTask D)) :=
  g.sendToDrawnClient data true draw

/-! ## The client drawn -/

/-- The number of the client drawn. -/
def drawn (g : TcpClientGroup) (draw : UInt32) : ℕ :=
  (rand32 (UInt32.ofNat g.clients.length) draw).toNat

/-- A call returns true only if its data goes to a connected client, whose task then writes it and
calls back if it has a callback; where some client is connected the one chosen is; and where none is
the call returns false. -/
structure PicksOnline (g : TcpClientGroup) (data : D) (callback : Bool)
    (r : Option (Bool × List (ClientSendTask D))) : Prop where
  returns_true : ∀ tasks, r = some (true, tasks) → ∃ task c p, tasks = [task] ∧
    g.clients[task.client]? = some c ∧ c.connected = true ∧
      runSendTask c task = some (some (p, data), callback)
  chosen : (∃ c ∈ g.clients, c.connected = true) → ∃ rv task c, r = some (rv, [task]) ∧
    g.clients[task.client]? = some c ∧ c.connected = true
  returns_false : (∀ c ∈ g.clients, c.connected = false) → ∃ tasks, r = some (false, tasks)

/-- No client is registered, or the one drawn is connected and has not been stopped. -/
def DrawsOnline (g : TcpClientGroup) (draw : UInt32) : Prop :=
  g.clients = [] ∨
    ∃ c, g.clients[g.drawn draw]? = some c ∧ c.connected = true ∧ c.client = true

/-- A client is drawn from those registered. -/
theorem drawn_lt (g : TcpClientGroup) (hg : g.clients ≠ []) (draw : UInt32) :
    g.drawn draw < g.clients.length :=
  rand32_length_lt (List.length_pos_iff.2 hg) le_rfl draw

theorem sendToDrawnClient_nil {g : TcpClientGroup} (hg : g.clients = []) (data : D) (callback : Bool)
    (draw : UInt32) : g.sendToDrawnClient data callback draw = some (false, []) := by
  simp [sendToDrawnClient, getOnlineClients, hg]

theorem sendToDrawnClient_eq {g : TcpClientGroup} {draw : UInt32} {c : TcpClient}
    (hc : g.clients[g.drawn draw]? = some c) (data : D) (callback : Bool) :
    g.sendToDrawnClient data callback draw =
      if c.client then some (true, [{ client := g.drawn draw, data, callback }]) else none := by
  have hne : g.clients.isEmpty = false := by
    cases hclients : g.clients with
    | nil =>
      rw [hclients] at hc
      cases hc
    | cons _ _ => rfl
  unfold sendToDrawnClient getOnlineClients
  simp only [hne, Bool.false_eq_true, if_false]
  change (g.clients[g.drawn draw]?.bind fun client =>
    (sendIOBufThreadSafe client (g.drawn draw) data callback).bind fun task =>
      some (true, [task])) = _
  rw [hc, Option.bind_some, sendIOBufThreadSafe]
  split <;> rfl

theorem picksOnline_iff (g : TcpClientGroup) (data : D) (callback : Bool) (draw : UInt32) :
    g.PicksOnline data callback (g.sendToDrawnClient data callback draw) ↔ g.DrawsOnline draw := by
  by_cases hg : g.clients = []
  · rw [sendToDrawnClient_nil hg]
    refine iff_of_true ⟨?_, ?_, fun _ => ⟨_, rfl⟩⟩ (.inl hg)
    · intro tasks h
      cases h
    · intro h
      obtain ⟨c, hc, -⟩ := h
      rw [hg] at hc
      cases hc
  · obtain ⟨c, hc⟩ : ∃ c, g.clients[g.drawn draw]? = some c :=
      ⟨_, List.getElem?_eq_getElem (g.drawn_lt hg draw)⟩
    have hmem : c ∈ g.clients := List.mem_of_getElem? hc
    rw [sendToDrawnClient_eq hc]
    constructor
    · intro h
      refine .inr ⟨c, hc, ?_⟩
      cases hclient : c.client with
      | true =>
        obtain ⟨task, c', p, htask, hc', hconnected, -⟩ := h.returns_true _ (if_pos hclient)
        cases htask
        rw [hc] at hc'
        cases hc'
        exact ⟨hconnected, rfl⟩
      | false =>
        -- the call does not return, whether or not a client is connected
        exfalso
        by_cases hsome : ∃ d ∈ g.clients, d.connected = true
        · obtain ⟨rv, task, d, hr, -⟩ := h.chosen hsome
          simp [hclient] at hr
        · obtain ⟨tasks, hr⟩ := h.returns_false (by simpa using hsome)
          simp [hclient] at hr
    · rintro (hnil | ⟨d, hd, hconnected, hclient⟩)
      · exact absurd hnil hg
      rw [hc] at hd
      cases hd
      rw [if_pos hclient]
      obtain ⟨p, hp⟩ := Option.isSome_iff_exists.1 (g.piped c hmem hconnected)
      refine ⟨?_, fun _ => ⟨_, _, c, rfl, hc, hconnected⟩, ?_⟩
      · intro tasks h
        cases h
        exact ⟨_, c, p, rfl, hc, hconnected, by simp [runSendTask, hconnected, hclient, hp]⟩
      · intro hnone
        rw [hnone c hmem] at hconnected
        cases hconnected

/-- **A client that is online.** For every group and every draw, both versions of `SendIOBuf` pick
a connected client whenever there is one, and only such a client, exactly if there is no client at
all or the one drawn is connected and not stopped. -/
theorem sendIOBuf_picks_online_iff (g : TcpClientGroup) (data : D) (draw : UInt32) :
    (∀ dispatchStrategy ≠ .kBroadCast,
      g.PicksOnline data false (g.sendIOBuf data dispatchStrategy draw) ↔ g.DrawsOnline draw) ∧
      (g.PicksOnline data true (g.sendIOBufWithCallback data draw) ↔ g.DrawsOnline draw) := by
  refine ⟨?_, g.picksOnline_iff data true draw⟩
  intro dispatchStrategy hstrategy
  cases dispatchStrategy with
  | kBroadCast => exact absurd rfl hstrategy
  | _ => exact g.picksOnline_iff data false draw

/-- A group of three clients, of which the second has connected. -/
def secondConnected : TcpClientGroup :=
  let client : TcpClient :=
    { pipeline := some 0, connected := true, started := true, pipelines := 1, managed := [0] }
  (TcpClientGroup.registerTcpClient (TcpClientGroup.registerTcpClient {} {} nofun) client
    fun _ => rfl).registerTcpClient {} nofun

/-- The draw decides. -/
theorem sendIOBuf_picks_online_iff_second :
    secondConnected.PicksOnline () false (secondConnected.sendIOBuf () .kRandom 4) ∧
      ¬ secondConnected.PicksOnline () true (secondConnected.sendIOBufWithCallback () 5) := by
  refine ⟨((sendIOBuf_picks_online_iff secondConnected () 4).1 .kRandom nofun).2
    (.inr ⟨_, rfl, rfl, rfl⟩), ?_⟩
  rw [(sendIOBuf_picks_online_iff secondConnected () 5).2]
  rintro (hnil | ⟨c, hc, hconnected, -⟩)
  · cases hnil
  · obtain rfl := Option.some.inj hc
    cases hconnected

/-- A group of one client that has not connected. -/
def oneDisconnected : TcpClientGroup := TcpClientGroup.registerTcpClient {} {} nofun

/-- The data for a client that is not connected is lost, and the call returns true. -/
theorem sends_to_disconnected_client :
    ¬ ∀ (g : TcpClientGroup) (data : Unit) (draw : UInt32), ∀ dispatchStrategy ≠ .kBroadCast,
      g.PicksOnline data false (g.sendIOBuf data dispatchStrategy draw) := by
  intro hall
  have hnone : ∀ c ∈ oneDisconnected.clients, c.connected = false := by decide
  obtain ⟨tasks, hfalse⟩ := (hall oneDisconnected () 0 .kDefault nofun).returns_false hnone
  have htrue : oneDisconnected.sendIOBuf () .kDefault 0 = some (true, [⟨0, (), false⟩]) := rfl
  rw [htrue] at hfalse
  cases hfalse

end TcpClientGroup

end ServiceFramework.Net
