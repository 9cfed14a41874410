import ServiceFramework.Lib.EraseLoop
import ServiceFramework.Lib.MultiTable
import ServiceFramework.Lib.Transition
import ServiceFramework.Net.ThreadLocalConnManager

/-!
# The connection manager of a thread pool's thread

`IOThreadConnManager` (`net/io_thread_pool_manager.cc`) keeps three records of the connections of
one thread: the table from connection ids to pipelines, the ids of each service, and the list of
the servers that registered on a connection.

Over runs of its operations the three agree. While every close carries the id and the pipeline of a
connection that is open, the ids of a service are those of its open connections
(`services_agree`). While moreover only open pipelines register, the list holds the registrations
of open pipelines in the order they were made, so a dispatch writes to the earliest of them
(`registrations_agree`).
-/

namespace ServiceFramework.Net

open EraseLoop Probe Transition

/-! ## The manager -/

/-- `IOThreadConnManager::ServerConnInfo`, a null pipeline being `none`. -/
structure ServerConnInfo (P : Type) where
  serverName : String
  serverNumber : UInt32 := 0
  pipeline : Option P := none
  deriving DecidableEq

namespace ServerConnInfo

variable {P : Type}

/-- `Equals` with a server name and number. -/
def equals (v : ServerConnInfo P) (serverName : String) (serverNumber : UInt32) : Bool :=
  serverName = v.serverName ∧ v.serverNumber = serverNumber

/-- `Equals` with a pipeline. -/
def equalsPipeline [DecidableEq P] (v : ServerConnInfo P) (pipeline : P) : Bool :=
  v.pipeline = some pipeline

end ServerConnInfo

/-- The members of `IOThreadConnManager`. -/
structure IOThreadConnManager (E P : Type) where
  threadId : UInt64
  eventBase : Option E
  currentConnId : UInt32 := 0
  pipelines : Table UInt32 P := ∅
  servicePipelines : Table String (Finset UInt32) := ∅
  serverConns : List (ServerConnInfo P) := []

namespace IOThreadConnManager

variable {E P D : Type}

/-- `OnNewConnection` for a pipeline whose service has the name `serviceName`: the new id and the
manager after it, `none` if the do/while loop does not end. -/
def onNewConnection (m : IOThreadConnManager E P) (pipeline : P) (serviceName : String) :
    Option (UInt32 × IOThreadConnManager E P) := do
  let (connId, currentConnId) ←
    probe nextConnId (fun k => decide (k ∈ m.pipelines)) connIdFuel m.currentConnId
  return (connId,
    { m with
      currentConnId
      pipelines := m.pipelines.insert connId pipeline
      servicePipelines := m.servicePipelines.add serviceName connId })

/-- `OnServerRegister`. A name and number that are registered already are only logged. -/
def onServerRegister (m : IOThreadConnManager E P) (pipeline : Option P) (serverName : String)
    (serverNumber : UInt32) : IOThreadConnManager E P :=
  { m with serverConns := m.serverConns ++ [{ serverName, serverNumber, pipeline }] }

/-- `OnConnectionClosed` for a pipeline whose service has the name `serviceName`; `none` if the
loop over `server_conns_` has not ended after as many rounds as the list is long and one more. -/
def onConnectionClosed [DecidableEq P] (m : IOThreadConnManager E P) (connId : UInt32) (pipeline : P)
    (serviceName : String) : Option (Bool × IOThreadConnManager E P) :=
  let m :=
    { m with
      pipelines := if connId ∈ m.pipelines then m.pipelines.erase connId else m.pipelines
      servicePipelines := m.servicePipelines.remove serviceName connId }
  if m.serverConns.isEmpty then
    some (true, m)
  else do
    let serverConns ← eraseLoop (fun v => v.equalsPipeline pipeline) (m.serverConns.length + 1)
      m.serverConns
    return (true, { m with serverConns })

/-- `DispatchIOBufByConnID`: the pipeline written to, if any. The result is always `true`. -/
def dispatchIOBufByConnID (m : IOThreadConnManager E P) (connId : UInt32) (data : D) :
    Bool × Option (P × D) :=
  match m.pipelines.find connId with
  | some pipeline => (true, some (pipeline, data))
  | none => (true, none)

/-- `DispatchIOBufByServer`: the first entry of the name and number that has a pipeline is
written to. -/
def dispatchIOBufByServer (m : IOThreadConnManager E P) (serverName : String) (serverNumber : UInt32)
    (data : D) : Bool × Option (P × D) :=
  go m.serverConns
where
  go : List (ServerConnInfo P) → Bool × Option (P × D)
    | [] => (false, none)
    | v :: vs =>
      if v.equals serverName serverNumber then
        match v.pipeline with
        | some pipeline => (true, some (pipeline, data))
        | none => go vs
      else
        go vs

/-- `FindPipeline`. -/
def findPipeline (m : IOThreadConnManager E P) (connId : UInt32) : Option P :=
  m.pipelines.find connId

/-- `FindPipelines`. -/
def findPipelines (m : IOThreadConnManager E P) (service : String) : Finset UInt32 :=
  m.servicePipelines.members service

/-! ## What an operation does -/

/-- All that `OnNewConnection` can do: it adds one entry, under a key that was not in the table, and
the key to the service's ids. -/
theorem onNewConnection_cases {m m' : IOThreadConnManager E P} {pipeline : P} {serviceName : String}
    {id : UInt32} (h : m.onNewConnection pipeline serviceName = some (id, m')) :
    id ∉ m.pipelines ∧ ∃ c,
      probe nextConnId (fun k => decide (k ∈ m.pipelines)) connIdFuel m.currentConnId =
        some (id, c) ∧
      m' = { m with
        currentConnId := c
        pipelines := m.pipelines.insert id pipeline
        servicePipelines := m.servicePipelines.add serviceName id } := by
  unfold onNewConnection at h
  obtain ⟨⟨k, c⟩, hp, hr⟩ := Option.bind_eq_some_iff.1 h
  have hfree := (probe_sound hp).1
  cases hr
  exact ⟨by simpa using hfree, c, hp, rfl⟩

section Close

variable [DecidableEq P]

/-- The loop over `server_conns_` ends, and `OnConnectionClosed` takes the key, the id and all the
registrations of the pipeline out of the three records. -/
theorem onConnectionClosed_eq (m : IOThreadConnManager E P) (connId : UInt32) (pipeline : P)
    (serviceName : String) :
    m.onConnectionClosed connId pipeline serviceName =
      some (true, { m with
        pipelines := m.pipelines.erase connId
        servicePipelines := m.servicePipelines.remove serviceName connId
        serverConns := m.serverConns.filter fun v => !v.equalsPipeline pipeline }) := by
  have herase : (if connId ∈ m.pipelines then m.pipelines.erase connId else m.pipelines) =
      m.pipelines.erase connId := by
    split
    · rfl
    · next h =>
      rw [Table.erase_of_notMem h]
  have hloop := eraseLoop_eq_filter (fun v : ServerConnInfo P => v.equalsPipeline pipeline)
    (Nat.lt_succ_of_le (List.countP_le_length (l := m.serverConns)))
  unfold onConnectionClosed
  simp only [herase]
  split
  · next hempty =>
    rw [List.isEmpty_iff] at hempty
    simp [hempty]
  · rw [hloop]
    rfl

end Close

theorem dispatchIOBufByServer_eq (m : IOThreadConnManager E P) (serverName : String)
    (serverNumber : UInt32) (data : D) :
    m.dispatchIOBufByServer serverName serverNumber data =
      match m.serverConns.findSome? fun v =>
          if v.equals serverName serverNumber then v.pipeline else none with
      | some pipeline => (true, some (pipeline, data))
      | none => (false, none) := by
  unfold dispatchIOBufByServer
  induction m.serverConns with
  | nil => rfl
  | cons v vs ih =>
    unfold dispatchIOBufByServer.go
    cases hv : v.equals serverName serverNumber with
    | false => simpa [hv] using ih
    | true =>
      cases hp : v.pipeline with
      | none => simpa [hv, hp] using ih
      | some pipeline => simp [hv, hp]

end IOThreadConnManager

/-! ## Runs -/

/-- The operations of a manager. A pipeline comes with the name of its service. -/
inductive IOThreadConnEvent (P : Type) where
  | onNewConnection (pipeline : P) (serviceName : String)
  | onServerRegister (pipeline : Option P) (serverName : String) (serverNumber : UInt32)
  | onConnectionClosed (connId : UInt32) (pipeline : P) (serviceName : String)

/-- A manager, the connections that are open, the ids `OnNewConnection` returned, and the
registrations of pipelines that have not been closed since, all in the order they were made. -/
structure IOThreadConns (E P : Type) where
  manager : IOThreadConnManager E P
  opens : List (UInt32 × P) := []
  issued : List UInt32 := []
  registrations : List (P × String × UInt32) := []

namespace IOThreadConns

variable {E P : Type} {w w' : IOThreadConns E P}

def init (threadId : UInt64) (eventBase : Option E) : IOThreadConns E P where
  manager := { threadId, eventBase }

/-- The table maps the open ids to their pipelines. -/
structure Tabled (w : IOThreadConns E P) : Prop where
  find_iff : ∀ id p, w.manager.pipelines.find id = some p ↔ (id, p) ∈ w.opens
  nodup : w.opens.Nodup

theorem tabled_init (threadId : UInt64) (eventBase : Option E) :
    (init threadId eventBase : IOThreadConns E P).Tabled where
  find_iff id p := by
    simp [init, Table.find_empty]
  nodup := List.nodup_nil

theorem Tabled.fresh (hw : w.Tabled) {id : UInt32} (hid : id ∉ w.manager.pipelines) (p : P) :
    (id, p) ∉ w.opens := by
  rw [← hw.find_iff, Table.find_eq_none.2 hid]
  exact nofun

/-! ## Steps -/

variable [DecidableEq P]

def step (w : IOThreadConns E P) : IOThreadConnEvent P → Option (IOThreadConns E P)
  | .onNewConnection pipeline serviceName => do
    let (connId, manager) ← w.manager.onNewConnection pipeline serviceName
    return { w with
      manager
      opens := w.opens ++ [(connId, pipeline)]
      issued := w.issued ++ [connId] }
  | .onServerRegister pipeline serverName serverNumber =>
    some { w with
      manager := w.manager.onServerRegister pipeline serverName serverNumber
      registrations := w.registrations ++
        pipeline.toList.map fun p => (p, serverName, serverNumber) }
  | .onConnectionClosed connId pipeline serviceName => do
    let (_, manager) ← w.manager.onConnectionClosed connId pipeline serviceName
    return { w with
      manager
      opens := w.opens.erase (connId, pipeline)
      registrations := w.registrations.filter fun r => r.1 ≠ pipeline }

/-- A close carries the id and the pipeline of a connection that is open. -/
def Matched (w : IOThreadConns E P) (e : IOThreadConnEvent P) (_ : IOThreadConns E P) : Prop :=
  match e with
  | .onConnectionClosed connId pipeline _ => (connId, pipeline) ∈ w.opens
  | _ => True

/-- Moreover the name given for a pipeline's service is always the same. -/
def Served (service : P → String) (w : IOThreadConns E P) (e : IOThreadConnEvent P)
    (w' : IOThreadConns E P) : Prop :=
  Matched w e w' ∧
    match e with
    | .onNewConnection pipeline serviceName => serviceName = service pipeline
    | .onServerRegister _ _ _ => True
    | .onConnectionClosed _ pipeline serviceName => serviceName = service pipeline

/-- Moreover a pipeline is opened only when it is not open, and registers only while it is. -/
def RegistersOpen (w : IOThreadConns E P) (e : IOThreadConnEvent P) (w' : IOThreadConns E P) : Prop :=
  Matched w e w' ∧
    match e with
    | .onNewConnection pipeline _ => pipeline ∉ w.opens.map Prod.snd
    | .onServerRegister none _ _ => False
    | .onServerRegister (some pipeline) _ _ => pipeline ∈ w.opens.map Prod.snd
    | .onConnectionClosed _ _ _ => True

instance (w : IOThreadConns E P) (e : IOThreadConnEvent P) (w' : IOThreadConns E P) :
    Decidable (Matched w e w') :=
  match e with
  | .onNewConnection _ _ => isTrue trivial
  | .onServerRegister _ _ _ => isTrue trivial
  | .onConnectionClosed connId pipeline _ =>
    inferInstanceAs (Decidable ((connId, pipeline) ∈ w.opens))

instance (service : P → String) (w : IOThreadConns E P) (e : IOThreadConnEvent P)
    (w' : IOThreadConns E P) : Decidable (Served service w e w') :=
  match e with
  | .onNewConnection pipeline serviceName =>
    inferInstanceAs (Decidable (_ ∧ serviceName = service pipeline))
  | .onServerRegister _ _ _ => inferInstanceAs (Decidable (_ ∧ True))
  | .onConnectionClosed _ pipeline serviceName =>
    inferInstanceAs (Decidable (_ ∧ serviceName = service pipeline))

instance (w : IOThreadConns E P) (e : IOThreadConnEvent P) (w' : IOThreadConns E P) :
    Decidable (RegistersOpen w e w') :=
  match e with
  | .onNewConnection pipeline _ =>
    inferInstanceAs (Decidable (_ ∧ pipeline ∉ w.opens.map Prod.snd))
  | .onServerRegister none _ _ => inferInstanceAs (Decidable (_ ∧ False))
  | .onServerRegister (some pipeline) _ _ =>
    inferInstanceAs (Decidable (_ ∧ pipeline ∈ w.opens.map Prod.snd))
  | .onConnectionClosed _ _ _ => inferInstanceAs (Decidable (_ ∧ True))

/-- All that an event can do. -/
theorem step_cases {e : IOThreadConnEvent P} (h : step w e = some w') :
    match e with
    | .onNewConnection pipeline serviceName =>
      ∃ id c, id ∉ w.manager.pipelines ∧
        probe nextConnId (fun k => decide (k ∈ w.manager.pipelines)) connIdFuel
          w.manager.currentConnId = some (id, c) ∧
        w' = { w with
          manager.currentConnId := c
          manager.pipelines := w.manager.pipelines.insert id pipeline
          manager.servicePipelines := w.manager.servicePipelines.add serviceName id
          opens := w.opens ++ [(id, pipeline)]
          issued := w.issued ++ [id] }
    | .onServerRegister pipeline serverName serverNumber =>
      w' = { w with
        manager.serverConns := w.manager.serverConns ++ [{ serverName, serverNumber, pipeline }]
        registrations := w.registrations ++
          pipeline.toList.map fun p => (p, serverName, serverNumber) }
    | .onConnectionClosed connId pipeline serviceName =>
      w' = { w with
        manager.pipelines := w.manager.pipelines.erase connId
        manager.servicePipelines := w.manager.servicePipelines.remove serviceName connId
        manager.serverConns := w.manager.serverConns.filter fun v => !v.equalsPipeline pipeline
        opens := w.opens.erase (connId, pipeline)
        registrations := w.registrations.filter fun r => r.1 ≠ pipeline } := by
  cases e with
  | onNewConnection pipeline serviceName =>
    obtain ⟨⟨id, m⟩, hm, hr⟩ := Option.bind_eq_some_iff.1 h
    obtain ⟨hfree, c, hp, rfl⟩ := IOThreadConnManager.onNewConnection_cases hm
    cases hr
    exact ⟨id, c, hfree, hp, rfl⟩
  | onServerRegister pipeline serverName serverNumber =>
    cases h
    rfl
  | onConnectionClosed connId pipeline serviceName =>
    obtain ⟨⟨_, m⟩, hm, hr⟩ := Option.bind_eq_some_iff.1 h
    rw [IOThreadConnManager.onConnectionClosed_eq] at hm
    cases hm
    cases hr
    rfl

theorem Tabled.step (hw : w.Tabled) {e : IOThreadConnEvent P} (hq : Matched w e w')
    (h : step w e = some w') : w'.Tabled := by
  have hcase := step_cases h
  cases e with
  | onNewConnection pipeline serviceName =>
    obtain ⟨id, c, hfree, -, rfl⟩ := hcase
    refine ⟨?_, ?_⟩
    · intro id' p
      simp only [Table.find_insert, List.mem_append, List.mem_singleton, Prod.mk.injEq]
      by_cases he : id' = id
      · subst he
        simp [hw.fresh hfree, eq_comm]
      · simp [he, hw.find_iff]
    · exact List.nodup_append.2 ⟨hw.nodup, List.nodup_singleton _, fun x hx y hy hxy => by
        cases List.mem_singleton.1 hy
        cases hxy
        exact hw.fresh hfree _ hx⟩
  | onServerRegister pipeline serverName serverNumber =>
    cases hcase
    exact ⟨hw.find_iff, hw.nodup⟩
  | onConnectionClosed connId pipeline serviceName =>
    cases hcase
    refine ⟨?_, hw.nodup.erase _⟩
    intro id' p
    simp only [Table.find_erase, hw.nodup.mem_erase_iff, ne_eq, Prod.mk.injEq]
    by_cases he : id' = connId
    · subst he
      have hp := (hw.find_iff id' pipeline).2 hq
      rw [← hw.find_iff, hp]
      simp [eq_comm]
    · simp [he, hw.find_iff]

/-! ## The ids of a service -/

/-- `FindPipelines` and `FindPipeline` answer for the open connections. -/
structure ServicesAgree (service : P → String) (w : IOThreadConns E P) : Prop where
  findPipelines_iff : ∀ s id, id ∈ w.manager.findPipelines s ↔ ∃ p, (id, p) ∈ w.opens ∧ service p = s
  one_service : ∀ id p, (id, p) ∈ w.opens → ∃! s, id ∈ w.manager.findPipelines s
  findPipeline_iff : ∀ id p, w.manager.findPipeline id = some p ↔ (id, p) ∈ w.opens

/-- The ids entered for a service are those of its open connections. -/
structure Indexed (service : P → String) (w : IOThreadConns E P) : Prop where
  tabled : w.Tabled
  mem_iff : ∀ s id, id ∈ w.manager.servicePipelines.members s ↔
    ∃ p, (id, p) ∈ w.opens ∧ service p = s

omit [DecidableEq P] in
theorem indexed_init (service : P → String) (threadId : UInt64) (eventBase : Option E) :
    (init threadId eventBase : IOThreadConns E P).Indexed service where
  tabled := tabled_init threadId eventBase
  mem_iff s id := by
    simp [init, Table.members_empty]

theorem Indexed.step {service : P → String} (hw : w.Indexed service) {e : IOThreadConnEvent P}
    (hq : Served service w e w') (h : step w e = some w') : w'.Indexed service := by
  refine ⟨hw.tabled.step hq.1 h, ?_⟩
  intro s id'
  have hcase := step_cases h
  obtain ⟨hmatched, hserved⟩ := hq
  cases e with
  | onNewConnection pipeline serviceName =>
    obtain ⟨id, c, -, -, rfl⟩ := hcase
    cases hserved
    simp only [Table.mem_members_add, hw.mem_iff, List.mem_append, List.mem_singleton,
      Prod.mk.injEq]
    constructor
    · rintro (⟨rfl, rfl⟩ | ⟨p, hp, hs⟩)
      · exact ⟨pipeline, .inr ⟨rfl, rfl⟩, rfl⟩
      · exact ⟨p, .inl hp, hs⟩
    · rintro ⟨p, hp | ⟨rfl, rfl⟩, hs⟩
      · exact .inr ⟨p, hp, hs⟩
      · exact .inl ⟨hs.symm, rfl⟩
  | onServerRegister pipeline serverName serverNumber =>
    cases hcase
    exact hw.mem_iff s id'
  | onConnectionClosed connId pipeline serviceName =>
    cases hcase
    cases hserved
    -- the closed id is open for its own pipeline only
    have hown : ∀ p, (connId, p) ∈ w.opens → p = pipeline := by
      intro p hp
      have hfind := (hw.tabled.find_iff connId pipeline).2 hmatched
      rw [(hw.tabled.find_iff connId p).2 hp] at hfind
      cases hfind
      rfl
    simp only [Table.mem_members_remove, hw.mem_iff, hw.tabled.nodup.mem_erase_iff, ne_eq,
      Prod.mk.injEq]
    constructor
    · rintro ⟨⟨p, hp, hs⟩, hne⟩
      refine ⟨p, ⟨?_, hp⟩, hs⟩
      rintro ⟨rfl, rfl⟩
      exact hne ⟨hs.symm, rfl⟩
    · rintro ⟨p, ⟨hne, hp⟩, hs⟩
      refine ⟨⟨p, hp, hs⟩, ?_⟩
      rintro ⟨-, rfl⟩
      exact hne ⟨rfl, hown p hp⟩

omit [DecidableEq P] in
theorem Indexed.servicesAgree {service : P → String} (hw : w.Indexed service) :
    w.ServicesAgree service where
  findPipelines_iff := hw.mem_iff
  one_service id p hp := by
    refine ⟨service p, (hw.mem_iff _ id).2 ⟨p, hp, rfl⟩, ?_⟩
    intro s hs
    obtain ⟨p', hp', rfl⟩ := (hw.mem_iff s id).1 hs
    have hfind := (hw.tabled.find_iff id p').2 hp'
    rw [(hw.tabled.find_iff id p).2 hp] at hfind
    cases hfind
    rfl
  findPipeline_iff := hw.tabled.find_iff

/-- **Ids by service.** In every run in which each close carries the id and the pipeline of an open
connection and a pipeline's service keeps its name, `FindPipelines` is the set of the open ids of
the service, and `FindPipeline` the pipeline of an open id. -/
theorem services_agree (service : P → String) (threadId : UInt64) (eventBase : Option E)
    (es : List (IOThreadConnEvent P)) {w : IOThreadConns E P}
    (hrun : run step (init threadId eventBase) es = some w)
    (hserved : Along step (Served service) (init threadId eventBase) es) :
    w.ServicesAgree service :=
  (hserved.invariant (fun _ _ _ hq hw h => hw.step hq h) (indexed_init service threadId eventBase)
    hrun).servicesAgree

def openOpenClose : List (IOThreadConnEvent ℕ) :=
  [.onNewConnection 0 "gate", .onNewConnection 1 "logic", .onConnectionClosed 1 0 "gate"]

theorem services_agree_open_open_close :
    ∃ w, run step (init 0 (some ())) openOpenClose = some w ∧
      w.ServicesAgree fun p => if p = 0 then "gate" else "logic" :=
  ⟨_, rfl, services_agree _ 0 (some ()) openOpenClose rfl (by decide)⟩

/-! ## Registered servers -/

/-- The entry of a registration. -/
def entry (r : P × String × UInt32) : ServerConnInfo P :=
  { serverName := r.2.1, serverNumber := r.2.2, pipeline := some r.1 }

/-- The loop of `OnConnectionClosed` ends, and leaves the entries of the other pipelines; all
pipelines held are open ones; and a dispatch writes to the pipeline of the first registration under
the name and number, if there is one. -/
structure RegistrationsAgree (w : IOThreadConns E P) : Prop where
  close : ∀ id p s, ∃ m, w.manager.onConnectionClosed id p s = some (true, m) ∧
    m.serverConns = w.manager.serverConns.filter fun v => v.pipeline ≠ some p
  server_open : ∀ v ∈ w.manager.serverConns, ∃ id p, v.pipeline = some p ∧ (id, p) ∈ w.opens
  pipeline_open : ∀ id p, w.manager.pipelines.find id = some p → (id, p) ∈ w.opens
  dispatch : ∀ (D : Type) (name : String) (number : UInt32) (data : D),
    w.manager.dispatchIOBufByServer name number data =
      match w.registrations.find? fun r => r.2 = (name, number) with
      | some r => (true, some (r.1, data))
      | none => (false, none)
  dispatch_iff : ∀ (D : Type) (name : String) (number : UInt32) (data : D),
    (w.manager.dispatchIOBufByServer name number data).1 = true ↔
      ∃ id p, (id, p) ∈ w.opens ∧ (p, name, number) ∈ w.registrations

/-- The list holds the registrations, in their order, and the pipelines that registered are
open. -/
structure Listed (w : IOThreadConns E P) : Prop where
  tabled : w.Tabled
  one_id : (w.opens.map Prod.snd).Nodup
  conns : w.manager.serverConns = w.registrations.map entry
  registered_open : ∀ r ∈ w.registrations, r.1 ∈ w.opens.map Prod.snd

omit [DecidableEq P] in
theorem listed_init (threadId : UInt64) (eventBase : Option E) :
    (init threadId eventBase : IOThreadConns E P).Listed where
  tabled := tabled_init threadId eventBase
  one_id := List.nodup_nil
  conns := rfl
  registered_open _ hr := absurd hr List.not_mem_nil

theorem Listed.step (hw : w.Listed) {e : IOThreadConnEvent P} (hq : RegistersOpen w e w')
    (h : step w e = some w') : w'.Listed := by
  have htabled := hw.tabled.step hq.1 h
  have hcase := step_cases h
  obtain ⟨hmatched, hq⟩ := hq
  cases e with
  | onNewConnection pipeline serviceName =>
    obtain ⟨id, c, -, -, rfl⟩ := hcase
    refine ⟨htabled, ?_, hw.conns, ?_⟩
    · simp only [List.map_append, List.map_cons, List.map_nil]
      exact List.nodup_append.2 ⟨hw.one_id, List.nodup_singleton _, fun p hp p' hp' hpp => by
        cases List.mem_singleton.1 hp'
        cases hpp
        exact hq hp⟩
    · intro r hr
      simp only [List.map_append, List.mem_append]
      exact .inl (hw.registered_open r hr)
  | onServerRegister pipeline serverName serverNumber =>
    cases hcase
    cases pipeline with
    | none => exact absurd hq id
    | some pipeline =>
      refine ⟨htabled, hw.one_id, ?_, ?_⟩
      · simp [hw.conns, entry]
      · intro r hr
        rcases List.mem_append.1 hr with hr | hr
        · exact hw.registered_open r hr
        · cases List.mem_singleton.1 hr
          exact hq
  | onConnectionClosed connId pipeline serviceName =>
    cases hcase
    refine ⟨htabled, hw.one_id.sublist (List.erase_sublist.map _), ?_, ?_⟩
    · simp only [hw.conns, List.filter_map]
      congr 1
      apply List.filter_congr
      intro r _
      simp [entry, ServerConnInfo.equalsPipeline]
    · intro r hr
      obtain ⟨hr, hne⟩ := List.mem_filter.1 hr
      obtain ⟨⟨id, p⟩, hp, hrp⟩ := List.mem_map.1 (hw.registered_open r hr)
      refine List.mem_map.2 ⟨(id, p), ?_, hrp⟩
      rw [hw.tabled.nodup.mem_erase_iff]
      refine ⟨?_, hp⟩
      intro heq
      cases heq
      simp [← hrp] at hne

omit [DecidableEq P] in
/-- Among the entries of registrations the first one that is equal is that of the first
registration under the name and number. -/
theorem findSome?_entry (rs : List (P × String × UInt32)) (name : String) (number : UInt32) :
    ((rs.map entry).findSome? fun v => if v.equals name number then v.pipeline else none) =
      (rs.find? fun r => r.2 = (name, number)).map Prod.fst := by
  induction rs with
  | nil => rfl
  | cons r rs ih =>
    obtain ⟨p, name', number'⟩ := r
    by_cases hr : name' = name ∧ number' = number
    · obtain ⟨rfl, rfl⟩ := hr
      simp [entry, ServerConnInfo.equals]
    · have hne : ¬(name = name' ∧ number' = number) := fun h => hr ⟨h.1.symm, h.2⟩
      rw [List.map_cons, List.findSome?_cons, List.find?_cons_of_neg (by simpa using hr), ← ih]
      simp [entry, ServerConnInfo.equals, hne]

omit [DecidableEq P] in
theorem Listed.dispatch (hw : w.Listed) {D : Type} (name : String) (number : UInt32) (data : D) :
    w.manager.dispatchIOBufByServer name number data =
      match w.registrations.find? fun r => r.2 = (name, number) with
      | some r => (true, some (r.1, data))
      | none => (false, none) := by
  rw [IOThreadConnManager.dispatchIOBufByServer_eq, hw.conns, findSome?_entry]
  cases w.registrations.find? fun r => r.2 = (name, number) <;> rfl

theorem Listed.registrationsAgree (hw : w.Listed) : w.RegistrationsAgree where
  close id p s := by
    refine ⟨_, IOThreadConnManager.onConnectionClosed_eq _ _ _ _, ?_⟩
    apply List.filter_congr
    intro v _
    simp [ServerConnInfo.equalsPipeline]
  server_open v hv := by
    rw [hw.conns] at hv
    obtain ⟨r, hr, rfl⟩ := List.mem_map.1 hv
    obtain ⟨⟨id, p⟩, hp, hrp⟩ := List.mem_map.1 (hw.registered_open r hr)
    exact ⟨id, r.1, rfl, hrp ▸ hp⟩
  pipeline_open id p := (hw.tabled.find_iff id p).1
  dispatch _ := hw.dispatch
  dispatch_iff D name number data := by
    rw [hw.dispatch]
    constructor
    · intro hsent
      cases hfind : w.registrations.find? fun r => r.2 = (name, number) with
      | none => simp [hfind] at hsent
      | some r =>
        have hr := List.mem_of_find?_eq_some hfind
        have hname : r.2 = (name, number) := by simpa using List.find?_some hfind
        obtain ⟨⟨id, p⟩, hp, hrp⟩ := List.mem_map.1 (hw.registered_open r hr)
        exact ⟨id, r.1, hrp ▸ hp, hname ▸ hr⟩
    · rintro ⟨id, p, -, hr⟩
      cases hfind : w.registrations.find? fun r => r.2 = (name, number) with
      | none =>
        have hnone := List.find?_eq_none.1 hfind _ hr
        simp at hnone
      | some r => rfl

/-- **Registered servers.** In every run in which a pipeline is open under one id at a time,
registers only while it is open and is closed with its own id, the list of registered servers holds
the registrations of open pipelines in the order they were made, and a dispatch writes to the first
of them under the name and number. -/
theorem registrations_agree (threadId : UInt64) (eventBase : Option E)
    (es : List (IOThreadConnEvent P)) {w : IOThreadConns E P}
    (hrun : run step (init threadId eventBase) es = some w)
    (hopen : Along step RegistersOpen (init threadId eventBase) es) : w.RegistrationsAgree :=
  (hopen.invariant (fun _ _ _ hq hw h => hw.step hq h) (listed_init threadId eventBase)
    hrun).registrationsAgree

def failOver : List (IOThreadConnEvent ℕ) :=
  [.onNewConnection 0 "gate", .onServerRegister (some 0) "im" 1, .onNewConnection 1 "gate",
    .onServerRegister (some 1) "im" 1, .onServerRegister (some 0) "im" 1,
    .onConnectionClosed 1 0 "gate"]

theorem registrations_agree_fail_over :
    ∃ w, run step (init 0 (some ())) failOver = some w ∧ w.RegistrationsAgree :=
  ⟨_, rfl, registrations_agree 0 (some ()) failOver rfl (by decide)⟩

end IOThreadConns

end ServiceFramework.Net
