import ServiceFramework.Lib.Transition
import ServiceFramework.Net.ThreadLocalConnManager
import Mathlib.Logic.Function.Basic

/-!
# Connection handlers and the tables of their threads

`ConnHandler` (`net/conn_handler.cc`) keeps a connection's state and reports its opening and its
closing to its service; `TcpServer` and `TcpClient` forward both to the manager of the thread the
handler runs on. `World` is any number of threads and handlers, `step` one event delivered to one
handler.

The tables and the handlers' private states agree after every event (`Agree`): an entry exists
exactly for a connected handler, under the low half of its id. The argument is one invariant over
the three things an event can do (`step_cases`): open under a key that was free, close a connected
handler, or leave the tables alone.
-/

namespace ServiceFramework.Net

open BitField Transition

/-! ## The handler -/

/-- `ConnHandler::ConnState`. -/
inductive ConnState where
  | kNone
  | kConnected
  | kConnectedButDisable
  | kClosed
  | kError
  deriving DecidableEq

/-- The services a `ConnHandler` is built for. -/
inductive TcpService where
  | tcpServer
  | tcpClient
  deriving DecidableEq

/-- The calls a handler makes: to its service, and `ctx->fireClose()`. -/
inductive ConnCall where
  | onNewConnection (connId : UInt64)
  | onConnectionClosed (connId : UInt64)
  | fireClose
  deriving DecidableEq

/-- The members of `ConnHandler`, a null `service_` being `none`. -/
structure ConnHandler where
  service : Option TcpService
  connId : UInt64 := 0
  connState : ConnState := .kNone
  remoteAddress : String := ""
  deriving DecidableEq

variable {P : Type}

namespace TcpService

/-- `TcpServer::OnNewConnection` and `TcpClient::OnNewConnection`. -/
def onNewConnection (s : TcpService) (m : ThreadLocalConnManager P) (pipeline : P) :
    Option (UInt64 × ThreadLocalConnManager P) :=
  match s with
  | tcpServer => m.onNewConnection pipeline
  | tcpClient => m.onNewConnection pipeline

/-- `TcpServer::OnConnectionClosed` and `TcpClient::OnConnectionClosed`. -/
def onConnectionClosed (s : TcpService) (m : ThreadLocalConnManager P) (connId : UInt64)
    (pipeline : P) : Bool × ThreadLocalConnManager P :=
  match s with
  | tcpServer => m.onConnectionClosed connId pipeline
  | tcpClient => m.onConnectionClosed connId pipeline

theorem onNewConnection_eq (s : TcpService) (m : ThreadLocalConnManager P) (pipeline : P) :
    s.onNewConnection m pipeline = m.onNewConnection pipeline := by
  cases s <;> rfl

theorem onConnectionClosed_eq (s : TcpService) (m : ThreadLocalConnManager P) (connId : UInt64)
    (pipeline : P) : s.onConnectionClosed m connId pipeline = m.onConnectionClosed connId pipeline := by
  cases s <;> rfl

end TcpService

namespace ConnHandler

/-- What an event of a handler leaves: the handler, its thread's manager and the calls made. -/
abbrev Result (P : Type) := ConnHandler × ThreadLocalConnManager P × List ConnCall

/-- `close`. It can be called any number of times; only a connected handler reports. -/
def close (h : ConnHandler) (m : ThreadLocalConnManager P) (pipeline : P) : Result P :=
  if h.connState = .kConnected then
    match h.service with
    | some service =>
      ({ h with connState := .kClosed, remoteAddress := "" },
        (service.onConnectionClosed m h.connId pipeline).2,
        [.onConnectionClosed h.connId, .fireClose])
    | none => ({ h with connState := .kClosed, remoteAddress := "" }, m, [.fireClose])
  else
    (h, m, [.fireClose])

/-- `read`: a null or empty buffer closes, any other is left to a decoder. -/
def read (h : ConnHandler) (m : ThreadLocalConnManager P) (pipeline : P)
    (msg : Option (List UInt8)) : Result P :=
  match msg with
  | none => h.close m pipeline
  | some buf => if buf.length ≤ 0 then h.close m pipeline else (h, m, [])

/-- `readEOF`. The log line reads the configuration of `service_`: `none` for a null pointer. -/
def readEOF (h : ConnHandler) (m : ThreadLocalConnManager P) (pipeline : P) : Option (Result P) :=
  h.service.map fun _ => h.close m pipeline

/-- `readException`, which logs as `readEOF` does. -/
def readException (h : ConnHandler) (m : ThreadLocalConnManager P) (pipeline : P) :
    Option (Result P) :=
  h.service.map fun _ => h.close m pipeline

/-- `transportActive`. It does not return when the service's id loop does not end or when the log
line reads the configuration of a null `service_`. -/
def transportActive (h : ConnHandler) (m : ThreadLocalConnManager P) (pipeline : P)
    (remoteAddr : String) : Option (Result P) := do
  let service ← h.service
  let (connId, m) ← service.onNewConnection m pipeline
  return ({ h with connState := .kConnected, remoteAddress := remoteAddr, connId }, m,
    [.onNewConnection connId])

/-- The events a pipeline delivers to its handler. -/
inductive Event where
  | transportActive (remoteAddr : String)
  | read (msg : Option (List UInt8))
  | readEOF
  | readException
  | close
  deriving DecidableEq

/-- Delivery of one event. -/
def handle (h : ConnHandler) (m : ThreadLocalConnManager P) (pipeline : P) :
    Event → Option (Result P)
  | .transportActive remoteAddr => h.transportActive m pipeline remoteAddr
  | .read msg => some (h.read m pipeline msg)
  | .readEOF => h.readEOF m pipeline
  | .readException => h.readException m pipeline
  | .close => some (h.close m pipeline)

/-- `transportActive`. -/
def Event.isTransportActive : Event → Bool
  | .transportActive _ => true
  | _ => false

theorem close_connected {h : ConnHandler} {service : TcpService} (hs : h.service = some service)
    (hc : h.connState = .kConnected) (m : ThreadLocalConnManager P) (pipeline : P) :
    h.close m pipeline = ({ h with connState := .kClosed, remoteAddress := "" },
      { m with pipelines := m.pipelines.erase (low h.connId) },
      [.onConnectionClosed h.connId, .fireClose]) := by
  unfold close
  simp only [hc, if_true, hs, TcpService.onConnectionClosed_eq,
    ThreadLocalConnManager.onConnectionClosed_eq]

theorem close_not_connected {h : ConnHandler} (hc : h.connState ≠ .kConnected)
    (m : ThreadLocalConnManager P) (pipeline : P) :
    h.close m pipeline = (h, m, [.fireClose]) := by
  unfold close
  rw [if_neg hc]

theorem transportActive_cases {h : ConnHandler} {m : ThreadLocalConnManager P} {pipeline : P}
    {addr : String} {r : Result P} (hr : h.transportActive m pipeline addr = some r) :
    ∃ k c, k ∉ m.pipelines ∧
      r = ({ h with connState := .kConnected, remoteAddress := addr, connId := pair m.threadId k },
        { m with currentConnId := c, pipelines := m.pipelines.insert k pipeline },
        [.onNewConnection (pair m.threadId k)]) := by
  unfold transportActive at hr
  obtain ⟨service, -, hr⟩ := Option.bind_eq_some_iff.1 hr
  obtain ⟨⟨id, m'⟩, ho, hr⟩ := Option.bind_eq_some_iff.1 hr
  rw [TcpService.onNewConnection_eq] at ho
  obtain ⟨k, c, hk, rfl, rfl⟩ := ThreadLocalConnManager.onNewConnection_cases ho
  cases hr
  exact ⟨k, c, hk, rfl⟩

/-- An event other than `transportActive` closes the handler or does nothing. -/
theorem handle_of_not_active {h : ConnHandler} {m : ThreadLocalConnManager P} {pipeline : P}
    {e : Event} {r : Result P} (he : e.isTransportActive = false)
    (hr : h.handle m pipeline e = some r) : r = h.close m pipeline ∨ r = (h, m, []) := by
  cases e with
  | transportActive addr => cases he
  | read msg =>
    cases hr
    unfold read
    split
    · exact Or.inl rfl
    · split
      · exact Or.inl rfl
      · exact Or.inr rfl
  | readEOF =>
    obtain ⟨_, -, rfl⟩ := Option.map_eq_some_iff.1 hr
    exact Or.inl rfl
  | readException =>
    obtain ⟨_, -, rfl⟩ := Option.map_eq_some_iff.1 hr
    exact Or.inl rfl
  | close =>
    cases hr
    exact Or.inl rfl

end ConnHandler

/-! ## Threads and handlers -/

/-- Which thread, pipeline and service each handler has, and each thread's id. -/
structure Layout (T H P : Type) where
  threadId : T → UInt64
  threadOf : H → T
  pipelineOf : H → P
  service : H → Option TcpService

/-- The managers of all threads, all handlers, and the calls made so far in order. -/
structure World (T H P : Type) where
  managers : T → ThreadLocalConnManager P
  handlers : H → ConnHandler
  calls : List ConnCall

namespace World

variable {T H : Type}

/-- Fresh managers with their thread ids set, and fresh handlers. -/
def init (L : Layout T H P) : World T H P where
  managers t := { threadId := L.threadId t }
  handlers h := { service := L.service h }
  calls := []

/-- The manager `GetConnManagerByThreadLocal` answers to the handler `h`. -/
def managerOf (w : World T H P) (L : Layout T H P) (h : H) : ThreadLocalConnManager P :=
  w.managers (L.threadOf h)

/-- `h` is in `kConnected`. -/
def Connected (w : World T H P) (h : H) : Prop := (w.handlers h).connState = .kConnected

/-- The id `h` caches. -/
def connIdOf (w : World T H P) (h : H) : UInt64 := (w.handlers h).connId

section Step

variable [DecidableEq T] [DecidableEq H] (L : Layout T H P)

/-- The world after handler `h` ends an event with the result `r`. -/
def commit (w : World T H P) (h : H) (r : ConnHandler.Result P) : World T H P where
  managers := Function.update w.managers (L.threadOf h) r.2.1
  handlers := Function.update w.handlers h r.1
  calls := w.calls ++ r.2.2

/-- One event delivered to one handler on the handler's own thread. -/
def step (w : World T H P) : H × ConnHandler.Event → Option (World T H P)
  | (h, e) => ((w.handlers h).handle (w.managerOf L h) (L.pipelineOf h) e).map (w.commit L h)

end Step

section Invariant

variable (L : Layout T H P)

/-- What the callers promise of an event: `transportActive` reaches no handler that is connected,
and finds fewer than `2^32 - 1` connections open on the thread. -/
def Legal (w : World T H P) (he : H × ConnHandler.Event) (_ : World T H P) : Prop :=
  he.2.isTransportActive = true →
    ¬ w.Connected he.1 ∧ (w.managerOf L he.1).pipelines.size < 2 ^ 32 - 1

instance (w : World T H P) (he : H × ConnHandler.Event) (w' : World T H P) :
    Decidable (Legal L w he w') :=
  inferInstanceAs (Decidable (_ = true → ¬ _ = ConnState.kConnected ∧ _ < 2 ^ 32 - 1))

/-- The calls made for one id: a connection is open or not, an open one can be closed and a closed
one opened, and nothing else is accepted. -/
def track (id : UInt64) (isOpen : Bool) : ConnCall → Option Bool
  | .onNewConnection id' => if id' = id then (if isOpen then none else some true) else some isOpen
  | .onConnectionClosed id' => if id' = id then (if isOpen then some false else none) else some isOpen
  | .fireClose => some isOpen

/-- The tables and the handlers agree. -/
structure Agree (w : World T H P) : Prop where
  threadId : ∀ t, (w.managers t).threadId = L.threadId t
  service : ∀ h, (w.handlers h).service = L.service h
  entry : ∀ h, w.Connected h → w.connIdOf h = pair (L.threadId (L.threadOf h)) (low (w.connIdOf h)) ∧
    (w.managerOf L h).pipelines.find (low (w.connIdOf h)) = some (L.pipelineOf h)
  owner : ∀ t k, k ∈ (w.managers t).pipelines →
    ∃ h, L.threadOf h = t ∧ w.Connected h ∧ low (w.connIdOf h) = k
  distinct : ∀ h h', w.Connected h → w.Connected h' → w.connIdOf h = w.connIdOf h' → h = h'
  tracked : ∀ id, ∃ isOpen, run (track id) false w.calls = some isOpen ∧
    (isOpen = true ↔ ∃ h, w.Connected h ∧ w.connIdOf h = id)

variable {L}

theorem agree_init : Agree L (init L) where
  threadId _ := rfl
  service _ := rfl
  entry h hc := by
    cases hc
  owner t k hk := absurd hk (AList.notMem_empty k)
  distinct h h' hc := by
    cases hc
  tracked id := ⟨false, rfl, by simp [init, Connected]⟩

/-- The key of a connected handler is taken on its thread. -/
theorem Agree.taken {w : World T H P} (hw : Agree L w) {h : H} (hc : w.Connected h) :
    low (w.connIdOf h) ∈ (w.managers (L.threadOf h)).pipelines :=
  Table.mem_iff.2 ⟨_, (hw.entry h hc).2⟩

/-- The id drawn under a free key is cached by no connected handler. -/
theorem Agree.fresh_connId (hinj : Function.Injective L.threadId)
    (hlt : ∀ t, (L.threadId t).toNat < 2 ^ 32) {w : World T H P} (hw : Agree L w) {h : H}
    {k : UInt32} (hk : k ∉ (w.managerOf L h).pipelines) {h' : H} (hc : w.Connected h') :
    w.connIdOf h' ≠ pair (w.managerOf L h).threadId k := by
  intro he
  have hid := (hw.entry h' hc).1
  have htid : (w.managerOf L h).threadId = L.threadId (L.threadOf h) := hw.threadId _
  rw [he, htid, pair_inj (hlt _) (hlt _)] at hid
  have hthread : L.threadOf h = L.threadOf h' := hinj hid.1
  have hlow : low (w.connIdOf h') = k := by rw [he, low_pair]
  apply hk
  unfold managerOf
  rw [hthread, ← hlow]
  exact hw.taken hc

end Invariant

/-! ## What an event does -/

variable [DecidableEq T] [DecidableEq H] {L : Layout T H P}

/-- The world after `h` opened under the key `k`. -/
def opened (w : World T H P) (L : Layout T H P) (h : H) (addr : String) (k c : UInt32) :
    World T H P :=
  w.commit L h ({ w.handlers h with
      connState := .kConnected, remoteAddress := addr,
      connId := pair (w.managerOf L h).threadId k },
    { w.managerOf L h with
      currentConnId := c, pipelines := (w.managerOf L h).pipelines.insert k (L.pipelineOf h) },
    [.onNewConnection (pair (w.managerOf L h).threadId k)])

/-- The world after the connected handler `h` closed. -/
def closed (w : World T H P) (L : Layout T H P) (h : H) : World T H P :=
  w.commit L h ({ w.handlers h with connState := .kClosed, remoteAddress := "" },
    { w.managerOf L h with pipelines := (w.managerOf L h).pipelines.erase (low (w.connIdOf h)) },
    [.onConnectionClosed (w.connIdOf h), .fireClose])

/-- The world after an event that only forwards. -/
def forwarded (w : World T H P) (calls : List ConnCall) : World T H P :=
  { w with calls := w.calls ++ calls }

theorem commit_self (w : World T H P) (h : H) (calls : List ConnCall) :
    w.commit L h (w.handlers h, w.managerOf L h, calls) = w.forwarded calls := by
  simp [commit, forwarded, managerOf]

/-- All that an event can do: open under a free key, close a connected handler, or forward. -/
theorem step_cases (hsvc : ∀ h, (L.service h).isSome) {w w' : World T H P} (hw : Agree L w)
    {h : H} {e : ConnHandler.Event} (hs : step L w (h, e) = some w') :
    (e.isTransportActive = true ∧ ∃ addr k c, k ∉ (w.managerOf L h).pipelines ∧
        w' = w.opened L h addr k c) ∨
      (e.isTransportActive = false ∧ w.Connected h ∧ w' = w.closed L h) ∨
      (e.isTransportActive = false ∧
        ∃ calls, (∀ c ∈ calls, c = .fireClose) ∧ w' = w.forwarded calls) := by
  obtain ⟨service, hservice⟩ := Option.isSome_iff_exists.1 (hsvc h)
  have hserv : (w.handlers h).service = some service := by rw [hw.service, hservice]
  obtain ⟨r, hr, rfl⟩ := Option.map_eq_some_iff.1 hs
  cases he : e.isTransportActive with
  | true =>
    left
    refine ⟨rfl, ?_⟩
    cases e with
    | transportActive addr =>
      obtain ⟨k, c, hk, rfl⟩ := ConnHandler.transportActive_cases hr
      exact ⟨addr, k, c, hk, rfl⟩
    | _ => cases he
  | false =>
    right
    rcases ConnHandler.handle_of_not_active he hr with rfl | rfl
    · by_cases hc : w.Connected h
      · left
        refine ⟨rfl, hc, ?_⟩
        rw [ConnHandler.close_connected hserv hc]
        rfl
      · right
        refine ⟨rfl, [.fireClose], by simp, ?_⟩
        rw [ConnHandler.close_not_connected hc, commit_self]
    · right
      exact ⟨rfl, [], by simp, commit_self w h []⟩

/-! ## Reading the world after an event -/

section Reading

variable (w : World T H P) (h : H)

theorem opened_find (addr : String) (k c : UInt32) (t : T) (k' : UInt32) :
    ((w.opened L h addr k c).managers t).pipelines.find k' =
      if t = L.threadOf h ∧ k' = k then some (L.pipelineOf h) else (w.managers t).pipelines.find k' := by
  by_cases ht : t = L.threadOf h
  · subst ht
    simp [opened, commit, Table.find_insert, managerOf]
  · simp [opened, commit, ht]

theorem closed_find (t : T) (k' : UInt32) :
    ((w.closed L h).managers t).pipelines.find k' =
      if t = L.threadOf h ∧ k' = low (w.connIdOf h) then none
      else (w.managers t).pipelines.find k' := by
  by_cases ht : t = L.threadOf h
  · subst ht
    simp [closed, commit, Table.find_erase, managerOf]
  · simp [closed, commit, ht]

theorem opened_connected (addr : String) (k c : UInt32) (h' : H) :
    (w.opened L h addr k c).Connected h' ↔ h' = h ∨ w.Connected h' := by
  by_cases hh : h' = h
  · subst hh
    simp [Connected, opened, commit]
  · simp [Connected, opened, commit, hh]

theorem closed_connected (h' : H) :
    (w.closed L h).Connected h' ↔ h' ≠ h ∧ w.Connected h' := by
  by_cases hh : h' = h
  · subst hh
    simp [Connected, closed, commit]
  · simp [Connected, closed, commit, hh]

theorem opened_connIdOf (addr : String) (k c : UInt32) (h' : H) :
    (w.opened L h addr k c).connIdOf h' =
      if h' = h then pair (w.managerOf L h).threadId k else w.connIdOf h' := by
  by_cases hh : h' = h
  · subst hh
    simp [connIdOf, opened, commit]
  · simp [connIdOf, opened, commit, hh]

theorem closed_connIdOf (h' : H) : (w.closed L h).connIdOf h' = w.connIdOf h' := by
  by_cases hh : h' = h
  · subst hh
    simp [connIdOf, closed, commit]
  · simp [connIdOf, closed, commit, hh]

theorem opened_threadId (addr : String) (k c : UInt32) (t : T) :
    ((w.opened L h addr k c).managers t).threadId = (w.managers t).threadId := by
  by_cases ht : t = L.threadOf h
  · subst ht
    simp [opened, commit, managerOf]
  · simp [opened, commit, ht]

theorem closed_threadId (t : T) : ((w.closed L h).managers t).threadId = (w.managers t).threadId := by
  by_cases ht : t = L.threadOf h
  · subst ht
    simp [closed, commit, managerOf]
  · simp [closed, commit, ht]

theorem opened_service (addr : String) (k c : UInt32) (h' : H) :
    ((w.opened L h addr k c).handlers h').service = (w.handlers h').service := by
  by_cases hh : h' = h
  · subst hh
    simp [opened, commit]
  · simp [opened, commit, hh]

theorem closed_service (h' : H) :
    ((w.closed L h).handlers h').service = (w.handlers h').service := by
  by_cases hh : h' = h
  · subst hh
    simp [closed, commit]
  · simp [closed, commit, hh]

end Reading

/-! ## Every event keeps the agreement -/

/-- Opening adds one id to those of the connected handlers. -/
theorem opened_open_iff {w : World T H P} {h : H} (hnc : ¬ w.Connected h) (addr : String)
    (k c : UInt32) (id : UInt64) :
    (∃ h', (w.opened L h addr k c).Connected h' ∧ (w.opened L h addr k c).connIdOf h' = id) ↔
      pair (w.managerOf L h).threadId k = id ∨ ∃ h', w.Connected h' ∧ w.connIdOf h' = id := by
  constructor
  · intro hex
    obtain ⟨h', hc, he⟩ := hex
    rw [opened_connIdOf] at he
    by_cases hh : h' = h
    · rw [if_pos hh] at he
      exact Or.inl he
    · rw [if_neg hh] at he
      exact Or.inr ⟨h', ((opened_connected w h addr k c h').1 hc).resolve_left hh, he⟩
  · intro hor
    rcases hor with he | ⟨h', hc, he⟩
    · exact ⟨h, (opened_connected w h addr k c h).2 (Or.inl rfl), by rw [opened_connIdOf, if_pos rfl, he]⟩
    · have hh : h' ≠ h := fun e => hnc (e ▸ hc)
      exact ⟨h', (opened_connected w h addr k c h').2 (Or.inr hc),
        by rw [opened_connIdOf, if_neg hh, he]⟩

/-- Closing takes the handler's id away. -/
theorem closed_open_iff {w : World T H P} (hw : Agree L w) {h : H} (hc : w.Connected h)
    (id : UInt64) :
    (∃ h', (w.closed L h).Connected h' ∧ (w.closed L h).connIdOf h' = id) ↔
      w.connIdOf h ≠ id ∧ ∃ h', w.Connected h' ∧ w.connIdOf h' = id := by
  simp only [closed_connIdOf, closed_connected]
  constructor
  · intro hex
    obtain ⟨h', ⟨hne, hc'⟩, he⟩ := hex
    exact ⟨fun hid => hne (hw.distinct h' h hc' hc (he.trans hid.symm)), h', hc', he⟩
  · intro hand
    obtain ⟨hid, h', hc', he⟩ := hand
    exact ⟨h', ⟨fun e => hid (e ▸ he), hc'⟩, he⟩

theorem Agree.tracked_opened {w : World T H P} (hw : Agree L w) {h : H} (hnc : ¬ w.Connected h)
    {k : UInt32}
    (hfresh : ∀ h', w.Connected h' → w.connIdOf h' ≠ pair (w.managerOf L h).threadId k)
    (addr : String) (c : UInt32) (id : UInt64) :
    ∃ isOpen, run (track id) false (w.opened L h addr k c).calls = some isOpen ∧
      (isOpen = true ↔ ∃ h', (w.opened L h addr k c).Connected h' ∧
        (w.opened L h addr k c).connIdOf h' = id) := by
  obtain ⟨isOpen, hrun, hopen⟩ := hw.tracked id
  rw [opened_open_iff hnc, ← hopen]
  have hsome : ∀ b, track id isOpen (.onNewConnection (pair (w.managerOf L h).threadId k)) = some b →
      run (track id) false (w.opened L h addr k c).calls = some b :=
    fun b hb => run_concat_of_eq_some hrun hb
  by_cases hid : pair (w.managerOf L h).threadId k = id
  · have hclosed : isOpen = false := by
      cases isOpen with
      | false => rfl
      | true =>
        obtain ⟨h', hc, he⟩ := hopen.1 rfl
        exact absurd (he.trans hid.symm) (hfresh h' hc)
    exact ⟨true, hsome true (by simp [track, hid, hclosed]), by simp [hid]⟩
  · exact ⟨isOpen, hsome isOpen (by simp [track, hid]), by simp [hid]⟩

theorem Agree.tracked_closed {w : World T H P} (hw : Agree L w) {h : H} (hc : w.Connected h)
    (id : UInt64) :
    ∃ isOpen, run (track id) false (w.closed L h).calls = some isOpen ∧
      (isOpen = true ↔ ∃ h', (w.closed L h).Connected h' ∧ (w.closed L h).connIdOf h' = id) := by
  obtain ⟨isOpen, hrun, hopen⟩ := hw.tracked id
  rw [closed_open_iff hw hc, ← hopen]
  have hsome : ∀ b, track id isOpen (.onConnectionClosed (w.connIdOf h)) = some b →
      run (track id) false (w.closed L h).calls = some b := by
    intro b hb
    have hcalls : (w.closed L h).calls =
        w.calls ++ [.onConnectionClosed (w.connIdOf h)] ++ [.fireClose] := by
      simp [closed, commit]
    rw [hcalls]
    exact run_concat_of_eq_some (run_concat_of_eq_some hrun hb) rfl
  by_cases hid : w.connIdOf h = id
  · have hwas : isOpen = true := hopen.2 ⟨h, hc, hid⟩
    exact ⟨false, hsome false (by simp [track, hid, hwas]), by simp [hid]⟩
  · exact ⟨isOpen, hsome isOpen (by simp [track, hid]), by simp [hid]⟩

theorem agree_opened (hinj : Function.Injective L.threadId) (hlt : ∀ t, (L.threadId t).toNat < 2 ^ 32)
    {w : World T H P} (hw : Agree L w) {h : H} (hnc : ¬ w.Connected h) (addr : String)
    {k : UInt32} (c : UInt32) (hk : k ∉ (w.managerOf L h).pipelines) :
    Agree L (w.opened L h addr k c) := by
  have htid : (w.managerOf L h).threadId = L.threadId (L.threadOf h) := hw.threadId _
  have hne : ∀ h', w.Connected h' → h' ≠ h := fun h' hc e => hnc (e ▸ hc)
  have hfresh : ∀ h', w.Connected h' → w.connIdOf h' ≠ pair (w.managerOf L h).threadId k :=
    fun h' hc => hw.fresh_connId hinj hlt hk hc
  refine ⟨?_, ?_, ?_, ?_, ?_, ?_⟩
  · intro t
    rw [opened_threadId, hw.threadId]
  · intro h'
    rw [opened_service, hw.service]
  · intro h' hc
    simp only [opened_connIdOf, managerOf, opened_find]
    rcases (opened_connected w h addr k c h').1 hc with rfl | hc'
    · have htid' : (w.managers (L.threadOf h')).threadId = L.threadId (L.threadOf h') := htid
      simp [htid']
    · obtain ⟨hid, hentry⟩ := hw.entry h' hc'
      rw [if_neg (hne h' hc')]
      refine ⟨hid, ?_⟩
      rw [if_neg]
      · exact hentry
      · -- an old entry under `k` on this thread would make `k` taken
        rintro ⟨ht, hkey⟩
        apply hk
        unfold managerOf
        rw [← ht, ← hkey]
        exact hw.taken hc'
  · intro t k' hk'
    rw [Table.mem_iff, opened_find] at hk'
    by_cases hkey : t = L.threadOf h ∧ k' = k
    · obtain ⟨rfl, rfl⟩ := hkey
      exact ⟨h, rfl, (opened_connected w h addr k' c h).2 (Or.inl rfl), by simp [opened_connIdOf]⟩
    · rw [if_neg hkey, ← Table.mem_iff] at hk'
      obtain ⟨h', ht, hc, hlow⟩ := hw.owner t k' hk'
      refine ⟨h', ht, (opened_connected w h addr k c h').2 (Or.inr hc), ?_⟩
      rw [opened_connIdOf, if_neg (hne h' hc), hlow]
  · intro h' h'' hc hc' he
    rw [opened_connIdOf, opened_connIdOf] at he
    rcases (opened_connected w h addr k c h').1 hc with rfl | hc1 <;>
      rcases (opened_connected w _ addr k c h'').1 hc' with rfl | hc2
    · rfl
    · rw [if_pos rfl, if_neg (hne h'' hc2)] at he
      exact absurd he.symm (hfresh h'' hc2)
    · rw [if_pos rfl, if_neg (hne h' hc1)] at he
      exact absurd he (hfresh h' hc1)
    · rw [if_neg (hne h' hc1), if_neg (hne h'' hc2)] at he
      exact hw.distinct h' h'' hc1 hc2 he
  · intro id
    exact hw.tracked_opened hnc hfresh addr c id

theorem agree_closed {w : World T H P} (hw : Agree L w) {h : H} (hc : w.Connected h) : Agree L (w.closed L h) := by
  obtain ⟨hidh, -⟩ := hw.entry h hc
  refine ⟨?_, ?_, ?_, ?_, ?_, ?_⟩
  · intro t
    rw [closed_threadId, hw.threadId]
  · intro h'
    rw [closed_service, hw.service]
  · intro h' hc'
    obtain ⟨hne, hc'⟩ := (closed_connected w h h').1 hc'
    obtain ⟨hid, hentry⟩ := hw.entry h' hc'
    simp only [closed_connIdOf, managerOf, closed_find]
    refine ⟨hid, ?_⟩
    rw [if_neg]
    · exact hentry
    · -- the same thread and the same key would be the same id
      rintro ⟨ht, hkey⟩
      apply hne
      apply hw.distinct h' h hc' hc
      rw [hid, hidh, ht, hkey]
  · intro t k hk
    rw [Table.mem_iff, closed_find] at hk
    by_cases hkey : t = L.threadOf h ∧ k = low (w.connIdOf h)
    · rw [if_pos hkey] at hk
      obtain ⟨_, hk⟩ := hk
      cases hk
    · rw [if_neg hkey, ← Table.mem_iff] at hk
      obtain ⟨h', ht, hc', hlow⟩ := hw.owner t k hk
      refine ⟨h', ht, (closed_connected w h h').2 ⟨?_, hc'⟩, by rw [closed_connIdOf, hlow]⟩
      rintro rfl
      exact hkey ⟨ht.symm, hlow.symm⟩
  · intro h' h'' hc1 hc2 he
    rw [closed_connIdOf, closed_connIdOf] at he
    exact hw.distinct h' h'' ((closed_connected w h h').1 hc1).2 ((closed_connected w h h'').1 hc2).2 he
  · intro id
    exact hw.tracked_closed hc id

omit [DecidableEq T] [DecidableEq H] in
theorem agree_forwarded {w : World T H P} (hw : Agree L w) {calls : List ConnCall}
    (hcalls : ∀ c ∈ calls, c = .fireClose) : Agree L (w.forwarded calls) := by
  refine ⟨hw.threadId, hw.service, hw.entry, hw.owner, hw.distinct, ?_⟩
  intro id
  obtain ⟨isOpen, hrun, hopen⟩ := hw.tracked id
  refine ⟨isOpen, ?_, hopen⟩
  have hskip : ∀ cs : List ConnCall, (∀ c ∈ cs, c = .fireClose) →
      run (track id) isOpen cs = some isOpen := by
    intro cs
    induction cs with
    | nil => intro _; rfl
    | cons c cs ih =>
      intro hcs
      obtain rfl := hcs c List.mem_cons_self
      exact ih fun c hc => hcs c (List.mem_cons_of_mem _ hc)
  simp only [forwarded, run_append, hrun, Option.bind_some]
  exact hskip calls hcalls

/-! ## Every run keeps the agreement -/

/-- What a caller can see of the agreement: the entries of each table are those of the thread's
connected handlers, under distinct keys; all connected handlers have distinct ids; and for each
id the openings and closings alternate, beginning with an opening. -/
structure Consistent (L : Layout T H P) (w : World T H P) : Prop where
  entries : ∀ t k p, (w.managers t).pipelines.find k = some p ↔
    ∃ h, L.threadOf h = t ∧ w.Connected h ∧ low (w.connIdOf h) = k ∧ L.pipelineOf h = p
  keys : ∀ h h', w.Connected h → w.Connected h' → L.threadOf h = L.threadOf h' →
    low (w.connIdOf h) = low (w.connIdOf h') → h = h'
  distinct : ∀ h h', w.Connected h → w.Connected h' → w.connIdOf h = w.connIdOf h' → h = h'
  alternate : ∀ id, ∃ isOpen, run (track id) false w.calls = some isOpen

omit [DecidableEq T] [DecidableEq H] in
theorem Agree.consistent {w : World T H P} (hw : Agree L w) : Consistent L w where
  entries t k p := by
    constructor
    · intro hfind
      obtain ⟨h, rfl, hc, rfl⟩ := hw.owner t k (Table.mem_iff.2 ⟨p, hfind⟩)
      refine ⟨h, rfl, hc, rfl, ?_⟩
      have hentry := (hw.entry h hc).2
      unfold managerOf at hentry
      rw [hfind] at hentry
      exact (Option.some.inj hentry).symm
    · rintro ⟨h, rfl, hc, rfl, rfl⟩
      exact (hw.entry h hc).2
  keys h h' hc hc' ht hk := by
    apply hw.distinct h h' hc hc'
    rw [(hw.entry h hc).1, (hw.entry h' hc').1, ht, hk]
  distinct := hw.distinct
  alternate id := by
    obtain ⟨isOpen, hrun, -⟩ := hw.tracked id
    exact ⟨isOpen, hrun⟩

section Runs

variable (hinj : Function.Injective L.threadId) (hlt : ∀ t, (L.threadId t).toNat < 2 ^ 32)
  (hsvc : ∀ h, (L.service h).isSome)

include hinj hlt hsvc in
theorem agree_step {w w' : World T H P} {he : H × ConnHandler.Event} (hl : Legal L w he w')
    (hw : Agree L w) (hs : step L w he = some w') : Agree L w' := by
  obtain ⟨h, e⟩ := he
  rcases step_cases hsvc hw hs with ⟨he, addr, k, c, hk, rfl⟩ | ⟨-, hc, rfl⟩ | ⟨-, calls, hcalls, rfl⟩
  · exact agree_opened hinj hlt hw (hl he).1 addr c hk
  · exact agree_closed hw hc
  · exact agree_forwarded hw hcalls

include hinj hlt hsvc in
theorem agree_run {w : World T H P} {es : List (H × ConnHandler.Event)}
    (hl : Along (step L) (Legal L) (init L) es) (hr : run (step L) (init L) es = some w) :
    Agree L w := by
  have hstep : ∀ w he w', Legal L w he w' → Agree L w → step L w he = some w' → Agree L w' :=
    fun _ _ _ hq hp hs => agree_step hinj hlt hsvc hq hp hs
  exact hl.invariant hstep agree_init hr

include hsvc in
/-- An event on one handler leaves the entries of all other connected handlers. -/
theorem step_keeps_others {w w' : World T H P} (hw : Agree L w) {h : H} {e : ConnHandler.Event}
    (hs : step L w (h, e) = some w') {h' : H} (hne : h' ≠ h) (hc : w.Connected h') :
    (w'.managers (L.threadOf h')).pipelines.find (low (w.connIdOf h')) = some (L.pipelineOf h') := by
  have hentry := (hw.entry h' hc).2
  rcases step_cases hsvc hw hs with ⟨-, addr, k, c, hk, rfl⟩ | ⟨-, hc0, rfl⟩ | ⟨-, calls, -, rfl⟩
  · rw [opened_find, if_neg]
    · exact hentry
    · rintro ⟨ht, hkey⟩
      apply hk
      unfold managerOf
      rw [← ht, ← hkey]
      exact hw.taken hc
  · rw [closed_find, if_neg]
    · exact hentry
    · rintro ⟨ht, hkey⟩
      exact hne (hw.consistent.keys h' h hc hc0 ht hkey)
  · exact hentry

include hsvc in
/-- A legal event returns. -/
theorem step_total {w : World T H P} (hw : Agree L w) (h : H) (e : ConnHandler.Event)
    (hl : e.isTransportActive = true → (w.managerOf L h).pipelines.size < 2 ^ 32 - 1) :
    ∃ w', step L w (h, e) = some w' := by
  obtain ⟨service, hservice⟩ := Option.isSome_iff_exists.1 (hsvc h)
  have hserv : (w.handlers h).service = some service := by rw [hw.service, hservice]
  obtain ⟨r, hr⟩ : ∃ r, (w.handlers h).handle (w.managerOf L h) (L.pipelineOf h) e = some r := by
    cases e with
    | transportActive addr =>
      obtain ⟨r, hr⟩ := ThreadLocalConnManager.onNewConnection_total (w.managerOf L h)
        (L.pipelineOf h) (hl rfl)
      simp only [ConnHandler.handle, ConnHandler.transportActive, hserv, Option.bind_eq_bind,
        Option.bind_some, TcpService.onNewConnection_eq, hr]
      exact ⟨_, rfl⟩
    | read msg => exact ⟨_, rfl⟩
    | readEOF => exact ⟨_, by rw [ConnHandler.handle, ConnHandler.readEOF, hserv]; rfl⟩
    | readException => exact ⟨_, by rw [ConnHandler.handle, ConnHandler.readException, hserv]; rfl⟩
    | close => exact ⟨_, rfl⟩
  exact ⟨_, congrArg (Option.map (w.commit L h)) hr⟩

end Runs

/-- After every run of legal events, of any length, the connection tables and the handlers'
states agree; and whatever event comes next, it leaves the entries of all other connected handlers
in place, and a legal one returns. -/
theorem tables_agree_with_handlers (L : Layout T H P) (hinj : Function.Injective L.threadId)
    (hlt : ∀ t, (L.threadId t).toNat < 2 ^ 32) (hsvc : ∀ h, (L.service h).isSome)
    (es : List (H × ConnHandler.Event)) (w : World T H P)
    (hl : Along (step L) (Legal L) (init L) es) (hr : run (step L) (init L) es = some w) :
    Consistent L w ∧
      (∀ h e w', step L w (h, e) = some w' → ∀ h', h' ≠ h → w.Connected h' →
        (w'.managers (L.threadOf h')).pipelines.find (low (w.connIdOf h')) =
          some (L.pipelineOf h')) ∧
      ∀ h e, Legal L w (h, e) w → (step L w (h, e)).isSome := by
  have hw := agree_run hinj hlt hsvc hl hr
  refine ⟨hw.consistent, fun _ _ _ hs _ hne hc => step_keeps_others hsvc hw hs hne hc, ?_⟩
  intro h e hlegal
  rw [Option.isSome_iff_exists]
  exact step_total hsvc hw h e fun he => (hlegal he).2

/-- Two threads with one handler each: both open, the first is closed twice, and opens again. -/
theorem tables_agree_with_handlers_two_threads :
    let L : Layout Bool Bool ℕ :=
      { threadId := fun t => if t then 1 else 0, threadOf := id,
        pipelineOf := fun h => if h then 7 else 8, service := fun _ => some .tcpServer }
    ∃ w, run (step L) (init L)
        [(true, .transportActive "a"), (false, .transportActive "b"), (true, .read none),
          (true, .close), (true, .transportActive "a")] = some w ∧ Consistent L w := by
  intro L
  have hrun : (run (step L) (init L)
      [(true, .transportActive "a"), (false, .transportActive "b"), (true, .read none),
        (true, .close), (true, .transportActive "a")]).isSome := by decide +kernel
  obtain ⟨w, hw⟩ := Option.isSome_iff_exists.1 hrun
  have hinj : Function.Injective L.threadId := by
    intro a b
    cases a <;> cases b <;> decide
  exact ⟨w, hw, (tables_agree_with_handlers L hinj (by decide) (by decide) _ w (by decide +kernel) hw).1⟩

end World

end ServiceFramework.Net
