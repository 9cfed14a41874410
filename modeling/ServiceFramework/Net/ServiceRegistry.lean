import ServiceFramework.Lib.Table
import ServiceFramework.Lib.Transition
import ServiceFramework.Net.ServiceFactoryManager
import Mathlib.Data.List.Pairwise

/-!
# The registry of services

`ServiceManager::Start` (`net/service_manager.cc`) makes a service for each configuration a factory
is registered for, enters it in `services_` and starts it. Services are entered under their names. A
client is entered in the group of its name, which the first client of the name makes; the other
services have their names for themselves, and a second service of such a name is a fatal error. What
is made for a client is cast to `TcpClient` without a check, and may be something else.

So the registry holds for each name the services made for it, the error is fatal exactly if two of them
share a name without both being clients, or one is of no known type (`Registers.run`), and this is so
up to the first wrong cast (`start_registers`).
-/

namespace ServiceFramework.Net

open Transition

/-! ## The manager -/

/-- What ends `Start`: a fatal error, or the cast to `TcpClient` of a service that is none, after which
nothing is defined. -/
inductive StartError where
  | fatal
  | notTcpClient
  deriving DecidableEq

/-- A service that was made: its number among them, its configuration and its class. -/
structure ServiceBase where
  number : ℕ
  config : ServiceConfig
  moduleType : ServiceModuleType
  deriving DecidableEq

/-- A client that was given its group, which is named by its number. -/
structure GroupedClient where
  client : ServiceBase
  tcpClientGroup : ℕ

/-- A `TcpClientGroup`: its number among them, its configuration and its clients. -/
structure ClientGroup where
  number : ℕ
  config : ServiceConfig
  clients : List GroupedClient := []

/-- An entry of `services_`. -/
inductive RegisteredService where
  | tcpClientGroup (group : ClientGroup)
  | single (service : ServiceBase)

namespace ClientGroup

/-- `set_tcp_client_group` and `RegisterTcpClient`, for a client of the group. -/
def registerTcpClient (g : ClientGroup) (client : ServiceBase) : ClientGroup :=
  { g with clients := g.clients ++ [{ client, tcpClientGroup := g.number }] }

end ClientGroup

namespace RegisteredService

/-- `GetModuleType`. -/
def getModuleType : RegisteredService → ServiceModuleType
  | tcpClientGroup _ => .tcpClientGroup
  | single service => service.moduleType

/-- `GetServiceType`. -/
def getServiceType : RegisteredService → String
  | tcpClientGroup group => group.config.serviceType
  | single service => service.config.serviceType

end RegisteredService

/-- `services_`, with the number of groups made, the services made, and the numbers of those that
`Start` was called on, in order. -/
structure ServiceRegistry where
  services : Table String RegisteredService := ∅
  groups : ℕ := 0
  created : List ServiceBase := []
  started : List ℕ := []

namespace ServiceRegistry

/-- `RegisterServiceBase` for a service whose name is to be free. -/
def registerSingle (m : ServiceRegistry) (service : ServiceBase) :
    Except StartError (Bool × ServiceRegistry) :=
  match m.services.find service.config.serviceName with
  | some _ => .error .fatal
  | none => .ok (true, { m with
      services := m.services.insert service.config.serviceName (.single service) })

/-- The part of `RegisterServiceBase` that gives a client its group. -/
def joinGroup (m : ServiceRegistry) (group : ClientGroup) (groups : ℕ) (service : ServiceBase) :
    Except StartError (Bool × ServiceRegistry) :=
  if service.moduleType = .tcpClient then
    .ok (true, { m with
      groups
      services := m.services.insert service.config.serviceName
        (.tcpClientGroup (group.registerTcpClient service)) })
  else
    .error .notTcpClient

/-- `RegisterServiceBase` for a client. -/
def registerTcpClient (m : ServiceRegistry) (service : ServiceBase) :
    Except StartError (Bool × ServiceRegistry) :=
  match m.services.find service.config.serviceName with
  | some it =>
    if it.getModuleType = .tcpClientGroup ∧ service.config.serviceType = it.getServiceType then
      match it with
      | .tcpClientGroup group => m.joinGroup group m.groups service
      | .single _ => .error .fatal
    else
      .error .fatal
  | none => m.joinGroup { number := m.groups, config := service.config } (m.groups + 1) service

/-- `RegisterServiceBase`. -/
def registerServiceBase (m : ServiceRegistry) (service : ServiceBase) :
    Except StartError (Bool × ServiceRegistry) :=
  if service.config.serviceType = "tcp_client" then
    m.registerTcpClient service
  else if service.config.serviceType = "tcp_server" then
    m.registerSingle service
  else if service.config.serviceType = "secure_tcp_server" then
    m.registerSingle service
  else if service.config.serviceType = "http_server" then
    m.registerSingle service
  else
    .error .fatal

/-- The service that is made next. -/
def newService (m : ServiceRegistry) (config : ServiceConfig) (moduleType : ServiceModuleType) :
    ServiceBase where
  number := m.created.length
  config
  moduleType

/-- One round of the loop in `Start`, for one configuration. -/
def startService (factories : ServiceFactoryManager) (m : ServiceRegistry) (config : ServiceConfig) :
    Except StartError ServiceRegistry :=
  match factories.createService config with
  | some moduleType => do
    let service := m.newService config moduleType
    let (rv, m) ← { m with created := m.created ++ [service] }.registerServiceBase service
    return if rv then { m with started := m.started ++ [service.number] } else m
  | none => .ok m

/-- `Start`, of a manager without services. -/
def start (factories : ServiceFactoryManager) (serviceConfigs : List ServiceConfig) :
    Except StartError ServiceRegistry :=
  serviceConfigs.foldlM (startService factories) {}

/-! ## What a service is entered as -/

/-- Two configurations that may both have a service: they have different names, or are both for
clients. -/
def Compatible (c c' : ServiceConfig) : Prop :=
  c.serviceName = c'.serviceName → c.serviceType = "tcp_client" ∧ c'.serviceType = "tcp_client"

instance : DecidableRel Compatible := fun c c' =>
  inferInstanceAs (Decidable (c.serviceName = c'.serviceName → _ ∧ _))

/-- The types of services that the manager knows. -/
def registeredTypes : List String := ["tcp_client", "tcp_server", "secure_tcp_server", "http_server"]

/-- Configurations that may all have a service. -/
def AllFit (configs : List ServiceConfig) : Prop :=
  Transition.AllFit (fun config => config.serviceType ∈ registeredTypes) Compatible configs

/-- The configurations that a service is made for. -/
def createdConfigs (factories : ServiceFactoryManager) (serviceConfigs : List ServiceConfig) :
    List ServiceConfig :=
  serviceConfigs.filter fun config => (factories.createService config).isSome

/-- The configurations that a loop reaches which ends with the first that fails a test. -/
def reached (test : ServiceConfig → Bool) : List ServiceConfig → List ServiceConfig
  | [] => []
  | config :: configs => if test config then config :: reached test configs else [config]

/-- The services made under a name. -/
def named (m : ServiceRegistry) (name : String) : List ServiceBase :=
  m.created.filter fun s => s.config.serviceName = name

/-- The entry of a name, if any, holds the services made under it: a group of clients, each pointing
to the group, or the only service of the name. -/
def Holds (m : ServiceRegistry) (name : String) : Prop :=
  match m.services.find name with
  | some (.tcpClientGroup group) =>
    m.named name ≠ [] ∧ group.clients.map GroupedClient.client = m.named name ∧
      (∀ s ∈ m.named name, s.config.serviceType = "tcp_client" ∧ s.moduleType = .tcpClient) ∧
      (∀ c ∈ group.clients, c.tcpClientGroup = group.number) ∧
      group.config.serviceType = "tcp_client" ∧ group.number < m.groups
  | some (.single service) =>
    m.named name = [service] ∧ service.config.serviceType ≠ "tcp_client"
  | none => m.named name = []

/-- The registry is that of the services made so far. -/
structure Registers (m : ServiceRegistry) : Prop where
  holds : ∀ name, m.Holds name
  groups_inj : ∀ name name' group group',
    m.services.find name = some (.tcpClientGroup group) →
      m.services.find name' = some (.tcpClientGroup group') →
        group.number = group'.number → name = name'
  numbers : m.created.map ServiceBase.number = List.range m.created.length
  started : m.started = m.created.map ServiceBase.number

theorem registers_empty : ({} : ServiceRegistry).Registers where
  holds name := by
    rw [Holds, Table.find_empty]
    rfl
  groups_inj name name' group group' h := by
    rw [Table.find_empty] at h
    cases h
  numbers := rfl
  started := rfl

/-! ## Entering a service -/

/-- The registry with one more service, started, under whose name the entry is now `it`. -/
def enter (m : ServiceRegistry) (service : ServiceBase) (it : RegisteredService) (groups : ℕ) :
    ServiceRegistry where
  services := m.services.insert service.config.serviceName it
  groups
  created := m.created ++ [service]
  started := m.started ++ [service.number]

theorem named_enter (m : ServiceRegistry) (service : ServiceBase) (it : RegisteredService)
    (groups : ℕ) (name : String) :
    (m.enter service it groups).named name =
      m.named name ++ if service.config.serviceName = name then [service] else [] := by
  rw [named, enter, List.filter_append, named]
  congr 1
  split
  · next h => simp [h]
  · next h => simp [h]

/-- The other names keep their entries. -/
theorem Holds.enter {m : ServiceRegistry} {name : String} (h : m.Holds name) {service : ServiceBase}
    (hne : name ≠ service.config.serviceName) (it : RegisteredService) {groups : ℕ}
    (hgroups : m.groups ≤ groups) : (m.enter service it groups).Holds name := by
  have hfind : (m.enter service it groups).services.find name = m.services.find name := by
    rw [ServiceRegistry.enter, Table.find_insert, if_neg hne]
  have hnamed : (m.enter service it groups).named name = m.named name := by
    rw [named_enter, if_neg hne.symm, List.append_nil]
  unfold Holds at h ⊢
  rw [hfind, hnamed]
  cases hentry : m.services.find name with
  | none =>
    rw [hentry] at h
    exact h
  | some entry =>
    rw [hentry] at h
    cases entry with
    | single other => exact h
    | tcpClientGroup group =>
      obtain ⟨hne, hclients, htypes, hpointers, htype, hlt⟩ := h
      exact ⟨hne, hclients, htypes, hpointers, htype, Nat.lt_of_lt_of_le hlt hgroups⟩

/-- A service is entered when its name holds it and no other group has the number of its group. -/
theorem Registers.enter {m : ServiceRegistry} (hm : m.Registers) {service : ServiceBase}
    (hnumber : service.number = m.created.length) {it : RegisteredService} {groups : ℕ}
    (hgroups : m.groups ≤ groups) (hholds : (m.enter service it groups).Holds
      service.config.serviceName)
    (hinj : ∀ group, it = .tcpClientGroup group → ∀ name group',
      m.services.find name = some (.tcpClientGroup group') → group.number = group'.number →
        name = service.config.serviceName) : (m.enter service it groups).Registers where
  holds name := by
    by_cases he : name = service.config.serviceName
    · rw [he]
      exact hholds
    · exact (hm.holds name).enter he it hgroups
  groups_inj name name' group group' h h' hnumbers := by
    rw [ServiceRegistry.enter, Table.find_insert] at h h'
    split at h
    · next he =>
      split at h'
      · next he' => rw [he, he']
      · rw [he]
        exact (hinj group (Option.some.inj h) name' group' h' hnumbers).symm
    · split at h'
      · next he' =>
        rw [he']
        exact hinj group' (Option.some.inj h') name group h hnumbers.symm
      · exact hm.groups_inj name name' group group' h h' hnumbers
  numbers := by
    rw [ServiceRegistry.enter, List.map_append, hm.numbers, List.length_append, List.map_singleton,
      hnumber, List.length_singleton, List.range_succ]
  started := by
    rw [ServiceRegistry.enter, List.map_append, hm.started, List.map_singleton]

/-- What can become of a service that is made: it is entered, and fits those made before; or it does
not fit, and the error is fatal; or it fits, and is cast to what it is not. -/
def Entered (m : ServiceRegistry) (service : ServiceBase)
    (r : Except StartError (Bool × ServiceRegistry)) : Prop :=
  (∃ it groups, r = .ok (true, { m.enter service it groups with started := m.started }) ∧
    (m.enter service it groups).Registers ∧ (∀ s ∈ m.created, Compatible s.config service.config) ∧
    (service.config.serviceType = "tcp_client" → service.moduleType = .tcpClient)) ∨
  (r = .error .fatal ∧ ∃ s ∈ m.created, ¬ Compatible s.config service.config) ∨
  r = .error .notTcpClient ∧ (∀ s ∈ m.created, Compatible s.config service.config) ∧
    service.config.serviceType = "tcp_client" ∧ service.moduleType ≠ .tcpClient

theorem mem_named {m : ServiceRegistry} {name : String} {s : ServiceBase} :
    s ∈ m.named name ↔ s ∈ m.created ∧ s.config.serviceName = name := by
  simp [named]

/-- A name without entry has had no service. -/
theorem Registers.named_eq_nil {m : ServiceRegistry} (hm : m.Registers) {name : String}
    (h : m.services.find name = none) : m.named name = [] := by
  have hholds := hm.holds name
  rw [Holds, h] at hholds
  exact hholds

/-- A name with an entry has had a service. -/
theorem Registers.exists_created {m : ServiceRegistry} (hm : m.Registers) {name : String}
    {it : RegisteredService} (h : m.services.find name = some it) :
    ∃ s ∈ m.created, s.config.serviceName = name := by
  have hholds := hm.holds name
  rw [Holds, h] at hholds
  have hne : m.named name ≠ [] := by
    cases it with
    | tcpClientGroup group => exact hholds.1
    | single s =>
      rw [hholds.1]
      exact List.cons_ne_nil s []
  obtain ⟨s, hs⟩ := List.exists_mem_of_ne_nil _ hne
  exact ⟨s, mem_named.1 hs⟩

theorem Registers.number_lt {m : ServiceRegistry} (hm : m.Registers) {name : String}
    {group : ClientGroup} (h : m.services.find name = some (.tcpClientGroup group)) :
    group.number < m.groups := by
  have hholds := hm.holds name
  rw [Holds, h] at hholds
  exact hholds.2.2.2.2.2

theorem compatible_of_named_eq_nil {m : ServiceRegistry} {config : ServiceConfig}
    (h : m.named config.serviceName = []) : ∀ s ∈ m.created, Compatible s.config config := by
  intro s hs he
  have hmem : s ∈ m.named config.serviceName := mem_named.2 ⟨hs, he⟩
  rw [h] at hmem
  cases hmem

/-- A service that is no client is entered if its name is free. -/
theorem Registers.registerSingle {m : ServiceRegistry} (hm : m.Registers) {service : ServiceBase}
    (hnumber : service.number = m.created.length)
    (htype : service.config.serviceType ≠ "tcp_client") :
    m.Entered service
      (ServiceRegistry.registerSingle { m with created := m.created ++ [service] } service) := by
  unfold ServiceRegistry.registerSingle
  cases hfind : m.services.find service.config.serviceName with
  | none =>
    have hnil := hm.named_eq_nil hfind
    refine .inl ⟨.single service, m.groups, rfl, hm.enter hnumber le_rfl ?_ ?_,
      compatible_of_named_eq_nil hnil, fun h => absurd h htype⟩
    · rw [Holds, named_enter, hnil, if_pos rfl]
      simp only [ServiceRegistry.enter, Table.find_insert]
      exact ⟨rfl, htype⟩
    · intro group h
      cases h
  | some it =>
    obtain ⟨s, hs, he⟩ := hm.exists_created hfind
    exact .inr (.inl ⟨rfl, s, hs, fun h => htype (h he).2⟩)

/-- What can become of a service that joins a group. -/
theorem Entered.joinGroup {m : ServiceRegistry} {service : ServiceBase} {group : ClientGroup}
    {groups : ℕ} (htype : service.config.serviceType = "tcp_client")
    (hfits : ∀ s ∈ m.created, Compatible s.config service.config)
    (hreg : service.moduleType = .tcpClient →
      (m.enter service (.tcpClientGroup (group.registerTcpClient service)) groups).Registers) :
    m.Entered service
      (ServiceRegistry.joinGroup { m with created := m.created ++ [service] } group groups service) := by
  unfold ServiceRegistry.joinGroup
  split
  · next hclass => exact .inl ⟨_, groups, rfl, hreg hclass, hfits, fun _ => hclass⟩
  · next hclass => exact .inr (.inr ⟨rfl, hfits, htype, hclass⟩)

/-- A client is entered in the group of its name, a new one for a new name, if the name is not that
of another service. -/
theorem Registers.registerTcpClient {m : ServiceRegistry} (hm : m.Registers) {service : ServiceBase}
    (hnumber : service.number = m.created.length)
    (htype : service.config.serviceType = "tcp_client") : m.Entered service
      (ServiceRegistry.registerTcpClient { m with created := m.created ++ [service] } service) := by
  unfold ServiceRegistry.registerTcpClient
  have hholds := hm.holds service.config.serviceName
  cases hfind : m.services.find service.config.serviceName with
  | none =>
    have hnil := hm.named_eq_nil hfind
    refine Entered.joinGroup htype (compatible_of_named_eq_nil hnil) fun hclass =>
      hm.enter hnumber (Nat.le_succ m.groups) ?_ ?_
    · rw [Holds, named_enter, hnil, if_pos rfl]
      simp only [ServiceRegistry.enter, Table.find_insert]
      refine ⟨List.cons_ne_nil service [], rfl, ?_, ?_, htype, Nat.lt_succ_self m.groups⟩
      · intro s hs
        rw [List.nil_append, List.mem_singleton] at hs
        rw [hs]
        exact ⟨htype, hclass⟩
      · intro c hc
        rw [List.mem_singleton.1 hc]
        rfl
    · rintro _ ⟨⟩ name group' h hnumbers
      exact absurd hnumbers (Nat.ne_of_gt (hm.number_lt h))
  | some it =>
    rw [Holds, hfind] at hholds
    cases it with
    | single other =>
      obtain ⟨hone, hother⟩ := hholds
      have hmem : other ∈ m.named service.config.serviceName := by
        rw [hone]
        exact List.mem_singleton_self other
      obtain ⟨hcreated, hname⟩ := mem_named.1 hmem
      refine .inr (.inl ⟨if_neg ?_, other, hcreated, fun h => hother (h hname).1⟩)
      rintro ⟨-, he⟩
      exact hother (he.symm.trans htype)
    | tcpClientGroup group =>
      obtain ⟨hne, hclients, htypes, hpointers, hgroup, hlt⟩ := hholds
      have hsame : RegisteredService.getModuleType (.tcpClientGroup group) = .tcpClientGroup ∧
          service.config.serviceType = RegisteredService.getServiceType (.tcpClientGroup group) :=
        ⟨rfl, htype.trans hgroup.symm⟩
      dsimp only
      rw [if_pos hsame]
      refine Entered.joinGroup htype ?_ fun hclass => hm.enter hnumber le_rfl ?_ ?_
      · intro s hs he
        exact ⟨(htypes s (mem_named.2 ⟨hs, he⟩)).1, htype⟩
      · rw [Holds, named_enter, if_pos rfl]
        simp only [ServiceRegistry.enter, Table.find_insert]
        refine ⟨List.append_ne_nil_of_left_ne_nil hne _, ?_, ?_, ?_, hgroup, hlt⟩
        · rw [ClientGroup.registerTcpClient, List.map_append, hclients, List.map_singleton]
        · intro s hs
          rcases List.mem_append.1 hs with hs | hs
          · exact htypes s hs
          · rw [List.mem_singleton.1 hs]
            exact ⟨htype, hclass⟩
        · intro c hc
          rcases List.mem_append.1 hc with hc | hc
          · exact hpointers c hc
          · rw [List.mem_singleton.1 hc]
            rfl
      · rintro _ ⟨⟩ name group' h hnumbers
        exact hm.groups_inj name _ group' group h hfind hnumbers.symm

/-! ## Starting the services -/

/-- A service of a known type is entered or does not fit, and one of another type is a fatal error. -/
theorem Registers.registerServiceBase {m : ServiceRegistry} (hm : m.Registers) (service : ServiceBase)
    (hnumber : service.number = m.created.length) :
    service.config.serviceType ∈ registeredTypes ∧ m.Entered service
        (ServiceRegistry.registerServiceBase { m with created := m.created ++ [service] } service) ∨
      service.config.serviceType ∉ registeredTypes ∧
        ServiceRegistry.registerServiceBase { m with created := m.created ++ [service] } service =
          .error .fatal := by
  unfold ServiceRegistry.registerServiceBase
  simp only [registeredTypes, List.mem_cons, List.not_mem_nil, or_false]
  by_cases hclient : service.config.serviceType = "tcp_client"
  · rw [if_pos hclient]
    exact .inl ⟨.inl hclient, hm.registerTcpClient hnumber hclient⟩
  · have hsingle := hm.registerSingle hnumber hclient
    rw [if_neg hclient]
    split
    · next h => exact .inl ⟨.inr (.inl h), hsingle⟩
    · split
      · next h => exact .inl ⟨.inr (.inr (.inl h)), hsingle⟩
      · split
        · next h => exact .inl ⟨.inr (.inr (.inr h)), hsingle⟩
        · next h₁ h₂ h₃ => exact .inr ⟨by simp [hclient, h₁, h₂, h₃], rfl⟩

/-- The configuration fits those before. -/
def FitsWith (before : List ServiceConfig) (config : ServiceConfig) : Prop :=
  config.serviceType ∈ registeredTypes ∧ ∀ c ∈ before, Compatible c config

/-- One round of the loop: no service is made for the configuration, or it is entered, or the error
is fatal, or it is a wrong cast. -/
theorem Registers.startService {m : ServiceRegistry} (hm : m.Registers)
    (factories : ServiceFactoryManager) (config : ServiceConfig) :
    factories.createService config = none ∧
        ServiceRegistry.startService factories m config = .ok m ∨
      (factories.createService config).isSome = true ∧
        ((∃ m', ServiceRegistry.startService factories m config = .ok m' ∧ m'.Registers ∧
          m'.created.map ServiceBase.config = m.created.map ServiceBase.config ++ [config] ∧
          FitsWith (m.created.map ServiceBase.config) config ∧ factories.makesClient config = true) ∨
        (ServiceRegistry.startService factories m config = .error .fatal ∧
          ¬ FitsWith (m.created.map ServiceBase.config) config) ∨
        ServiceRegistry.startService factories m config = .error .notTcpClient ∧
          FitsWith (m.created.map ServiceBase.config) config ∧
            factories.makesClient config = false) := by
  unfold ServiceRegistry.startService
  cases hcreate : factories.createService config with
  | none => exact .inl ⟨rfl, rfl⟩
  | some moduleType =>
    refine .inr ⟨rfl, ?_⟩
    have hwith : (∀ s ∈ m.created, Compatible s.config config) ↔
        ∀ c ∈ m.created.map ServiceBase.config, Compatible c config := by
      rw [List.forall_mem_map]
    rcases hm.registerServiceBase (m.newService config moduleType) rfl with
      ⟨htype, ⟨it, groups, hr, hreg, hfits, hclass⟩ | ⟨hr, s, hs, hclash⟩ |
        ⟨hr, hfits, hclient, hclass⟩⟩ | ⟨htype, hr⟩
    · refine .inl ⟨m.enter (m.newService config moduleType) it groups, ?_, hreg, ?_,
        ⟨htype, hwith.1 hfits⟩, ?_⟩
      · simp only [hr]
        rfl
      · rw [ServiceRegistry.enter, List.map_append]
        rfl
      · rw [ServiceFactoryManager.makesClient, hcreate, decide_eq_true_iff]
        exact or_iff_not_imp_left.2 fun h => congrArg some (hclass (not_not.1 h))
    · refine .inr (.inl ⟨?_, fun hall => hclash (hwith.2 hall.2 s hs)⟩)
      simp only [hr]
      rfl
    · refine .inr (.inr ⟨?_, ⟨htype, hwith.1 hfits⟩, ?_⟩)
      · simp only [hr]
        rfl
      · rw [ServiceFactoryManager.makesClient, hcreate, decide_eq_false_iff_not]
        rintro (h | h)
        · exact h hclient
        · exact hclass (Option.some.inj h)
    · refine .inr (.inl ⟨?_, fun hall => htype hall.1⟩)
      simp only [hr]
      rfl

/-- What can become of the loop from a registry whose services fit: it enters the services of the
configurations, which all fit and whose clients are what they are cast to; the error is fatal, and those
up to the first wrong cast do not all fit; or they do, and there is a wrong cast. -/
def Outcome (factories : ServiceFactoryManager) (before serviceConfigs : List ServiceConfig) :
    Except StartError ServiceRegistry → Prop
  | .ok m => m.Registers ∧
      m.created.map ServiceBase.config = before ++ createdConfigs factories serviceConfigs ∧
      AllFit (before ++ createdConfigs factories serviceConfigs) ∧
      ∀ config ∈ createdConfigs factories serviceConfigs, factories.makesClient config = true
  | .error .fatal =>
    ¬ AllFit (before ++ reached factories.makesClient (createdConfigs factories serviceConfigs))
  | .error .notTcpClient =>
    AllFit (before ++ reached factories.makesClient (createdConfigs factories serviceConfigs)) ∧
      ∃ config ∈ createdConfigs factories serviceConfigs, factories.makesClient config = false

theorem Registers.run {m : ServiceRegistry} (hm : m.Registers) (factories : ServiceFactoryManager)
    (hfit : AllFit (m.created.map ServiceBase.config)) (serviceConfigs : List ServiceConfig) :
    Outcome factories (m.created.map ServiceBase.config) serviceConfigs
      (serviceConfigs.foldlM (ServiceRegistry.startService factories) m) := by
  induction serviceConfigs generalizing m with
  | nil =>
    change m.Registers ∧ _ = _ ++ [] ∧ AllFit (_ ++ []) ∧ _
    rw [List.append_nil]
    exact ⟨hm, rfl, hfit, List.forall_mem_nil _⟩
  | cons config serviceConfigs ih =>
    have hskip : factories.createService config = none →
        createdConfigs factories (config :: serviceConfigs) =
          createdConfigs factories serviceConfigs := fun hcreate =>
      List.filter_cons_of_neg (by simp [hcreate])
    have hkeep : (factories.createService config).isSome = true →
        createdConfigs factories (config :: serviceConfigs) =
          config :: createdConfigs factories serviceConfigs := fun hcreate =>
      List.filter_cons_of_pos hcreate
    rw [List.foldlM_cons]
    rcases hm.startService factories config with ⟨hcreate, hstep⟩ |
      ⟨hcreate, ⟨m', hstep, hm', hcreated, hfits, hclient⟩ | ⟨hstep, hnot⟩ | ⟨hstep, hfits, hcast⟩⟩
    · rw [hstep]
      have hih := ih hm hfit
      unfold Outcome at hih ⊢
      rw [hskip hcreate]
      exact hih
    · have hih := ih hm' (by rw [hcreated]; exact (allFit_concat hfit).2 hfits)
      rw [hcreated] at hih
      rw [hstep]
      change Outcome factories _ _ (serviceConfigs.foldlM (ServiceRegistry.startService factories) m')
      unfold Outcome at hih ⊢
      simp only [hkeep hcreate, reached, hclient, if_true, List.forall_mem_cons, true_and,
        List.exists_mem_cons_iff, Bool.true_eq_false, false_or]
      simpa only [List.append_assoc, List.singleton_append] using hih
    · rw [hstep]
      change ¬ AllFit _
      intro hall
      rw [hkeep hcreate, reached] at hall
      refine hnot ((allFit_concat hfit).1 ?_)
      split at hall
      · rw [← List.singleton_append, ← List.append_assoc] at hall
        exact hall.of_append
      · exact hall
    · rw [hstep]
      change AllFit _ ∧ _
      rw [hkeep hcreate, reached, if_neg (by simp [hcast])]
      exact ⟨(allFit_concat hfit).2 hfits, config, List.mem_cons_self, hcast⟩

/-- The registry of the services made for the configurations, each started once. -/
structure Complete (m : ServiceRegistry) (configs : List ServiceConfig) : Prop where
  created : m.created.map ServiceBase.config = configs
  entries : ∀ name, name ∈ m.services ↔ ∃ s ∈ m.created, s.config.serviceName = name
  clients : ∀ s ∈ m.created, s.config.serviceType = "tcp_client" → ∃ group,
    m.services.find s.config.serviceName = some (.tcpClientGroup group) ∧
      group.clients.map GroupedClient.client = m.named s.config.serviceName ∧
      ∀ c ∈ group.clients, c.client.moduleType = .tcpClient ∧ c.tcpClientGroup = group.number
  groups_inj : ∀ name name' group group',
    m.services.find name = some (.tcpClientGroup group) →
      m.services.find name' = some (.tcpClientGroup group') →
        group.number = group'.number → name = name'
  singles : ∀ s ∈ m.created, s.config.serviceType ≠ "tcp_client" →
    m.services.find s.config.serviceName = some (.single s) ∧ m.named s.config.serviceName = [s]
  started : ∀ s ∈ m.created, m.started.count s.number = 1
  started_created : ∀ number ∈ m.started, ∃ s ∈ m.created, s.number = number

/-- The names with an entry are those of the services made. -/
theorem Registers.mem_services_iff {m : ServiceRegistry} (hm : m.Registers) (name : String) :
    name ∈ m.services ↔ ∃ s ∈ m.created, s.config.serviceName = name := by
  rw [Table.mem_iff]
  constructor
  · rintro ⟨it, hfind⟩
    exact hm.exists_created hfind
  · rintro ⟨s, hs⟩
    cases hfind : m.services.find name with
    | some it => exact ⟨it, rfl⟩
    | none =>
      have hmem := mem_named.2 hs
      rw [hm.named_eq_nil hfind] at hmem
      cases hmem

/-- The entry of a service's name holds it. -/
theorem Registers.find_of_mem {m : ServiceRegistry} (hm : m.Registers) {s : ServiceBase}
    (hs : s ∈ m.created) :
    (∃ group, m.services.find s.config.serviceName = some (.tcpClientGroup group) ∧
      group.clients.map GroupedClient.client = m.named s.config.serviceName ∧
      s.config.serviceType = "tcp_client" ∧
      ∀ c ∈ group.clients, c.client.moduleType = .tcpClient ∧ c.tcpClientGroup = group.number) ∨
    m.services.find s.config.serviceName = some (.single s) ∧
      m.named s.config.serviceName = [s] ∧ s.config.serviceType ≠ "tcp_client" := by
  have hmem : s ∈ m.named s.config.serviceName := mem_named.2 ⟨hs, rfl⟩
  have hholds := hm.holds s.config.serviceName
  unfold Holds at hholds
  cases hfind : m.services.find s.config.serviceName with
  | none =>
    rw [hm.named_eq_nil hfind] at hmem
    cases hmem
  | some it =>
    rw [hfind] at hholds
    cases it with
    | tcpClientGroup group =>
      obtain ⟨-, hclients, htypes, hpointers, -, -⟩ := hholds
      refine .inl ⟨group, rfl, hclients, (htypes s hmem).1, ?_⟩
      intro c hc
      have hclient : c.client ∈ m.named s.config.serviceName := by
        rw [← hclients]
        exact List.mem_map_of_mem hc
      exact ⟨(htypes c.client hclient).2, hpointers c hc⟩
    | single other =>
      obtain ⟨hone, htype⟩ := hholds
      rw [hone, List.mem_singleton] at hmem
      rw [← hmem] at hone htype ⊢
      exact .inr ⟨rfl, hone, htype⟩

theorem Registers.complete {m : ServiceRegistry} (hm : m.Registers) :
    m.Complete (m.created.map ServiceBase.config) where
  created := rfl
  entries := hm.mem_services_iff
  clients s hs htype := by
    rcases hm.find_of_mem hs with ⟨group, hfind, hclients, -, hgrouped⟩ | ⟨-, -, hne⟩
    · exact ⟨group, hfind, hclients, hgrouped⟩
    · exact absurd htype hne
  groups_inj := hm.groups_inj
  singles s hs htype := by
    rcases hm.find_of_mem hs with ⟨-, -, -, hclient, -⟩ | ⟨hfind, hone, -⟩
    · exact absurd hclient htype
    · exact ⟨hfind, hone⟩
  started s hs := by
    have hnodup : m.started.Nodup := by
      rw [hm.started, hm.numbers]
      exact List.nodup_range
    apply List.count_eq_one_of_mem hnodup
    rw [hm.started]
    exact List.mem_map_of_mem hs
  started_created number hnumber := by
    rw [hm.started] at hnumber
    exact List.mem_map.1 hnumber

/-- What a start has become decides its outcome. -/
theorem start_outcome (factories : ServiceFactoryManager) (serviceConfigs : List ServiceConfig) :
    Outcome factories [] serviceConfigs (start factories serviceConfigs) :=
  registers_empty.run factories (allFit_nil _ _) serviceConfigs

theorem Registers.of_start {factories : ServiceFactoryManager} {serviceConfigs : List ServiceConfig}
    {m : ServiceRegistry} (h : start factories serviceConfigs = .ok m) : m.Registers := by
  have houtcome := start_outcome factories serviceConfigs
  rw [h] at houtcome
  exact houtcome.1

/-- A test that all pass ends no loop. -/
theorem reached_of_forall {test : ServiceConfig → Bool} {configs : List ServiceConfig}
    (h : ∀ config ∈ configs, test config = true) : reached test configs = configs := by
  induction configs with
  | nil => rfl
  | cons config configs ih =>
    rw [List.forall_mem_cons] at h
    rw [reached, if_pos h.1, ih h.2]

theorem mem_of_mem_reached {test : ServiceConfig → Bool} {configs : List ServiceConfig}
    {config : ServiceConfig} (h : config ∈ reached test configs) : config ∈ configs := by
  induction configs with
  | nil => cases h
  | cons c configs ih =>
    unfold reached at h
    split at h
    · rcases List.mem_cons.1 h with rfl | h
      · exact List.mem_cons_self
      · exact List.mem_cons_of_mem c (ih h)
    · rw [List.mem_singleton.1 h]
      exact List.mem_cons_self

/-- The types of services that a factory of the program is registered for. -/
def serviceTypes : List String := ["tcp_client", "tcp_server", "http_server"]

theorem allFit_iff (configs : List ServiceConfig)
    (htypes : ∀ config ∈ configs, config.serviceType ∈ serviceTypes) :
    AllFit configs ↔ configs.Pairwise Compatible := by
  refine and_iff_right fun config hconfig => ?_
  have htype := htypes config hconfig
  simp only [serviceTypes, List.mem_cons, List.not_mem_nil, or_false] at htype
  rcases htype with h | h | h <;> simp [h, registeredTypes]

/-- **The registry.** Whatever factories are registered, the error of `Start` is fatal exactly if two of
the services it makes, up to the first that is wrongly cast to `TcpClient`, share a name without both
being clients; it comes to a wrong cast exactly if these fit and there is one. Otherwise the registry it
leaves has one entry for each name of a service made: for a name of clients the group of them in order,
for any other name the only service, and each service was started once. -/
theorem start_registers (factories : ServiceFactoryManager) (serviceConfigs : List ServiceConfig)
    (htypes : ∀ config ∈ serviceConfigs, config.serviceType ∈ serviceTypes) :
    (start factories serviceConfigs = .error .fatal ↔
      ¬ (reached factories.makesClient (createdConfigs factories serviceConfigs)).Pairwise
        Compatible) ∧
      (start factories serviceConfigs = .error .notTcpClient ↔
        (reached factories.makesClient (createdConfigs factories serviceConfigs)).Pairwise Compatible ∧
          ∃ config ∈ createdConfigs factories serviceConfigs, factories.makesClient config = false) ∧
      ∀ m, start factories serviceConfigs = .ok m →
        m.Complete (createdConfigs factories serviceConfigs) := by
  have houtcome := start_outcome factories serviceConfigs
  have hfit : AllFit (reached factories.makesClient (createdConfigs factories serviceConfigs)) ↔ _ :=
    allFit_iff _ fun config hconfig =>
      htypes config (List.mem_of_mem_filter (mem_of_mem_reached hconfig))
  unfold Outcome at houtcome
  simp only [List.nil_append, hfit] at houtcome
  cases hstart : start factories serviceConfigs with
  | ok m =>
    rw [hstart] at houtcome
    obtain ⟨hm, hcreated, hall, hclients⟩ := houtcome
    rw [reached_of_forall hclients]
    refine ⟨iff_of_false nofun (not_not.2 hall.2), iff_of_false nofun ?_, ?_⟩
    · rintro ⟨-, config, hconfig, hcast⟩
      rw [hclients config hconfig] at hcast
      cases hcast
    · rintro _ ⟨⟩
      have hcomplete := hm.complete
      rw [hcreated] at hcomplete
      exact hcomplete
  | error e =>
    rw [hstart] at houtcome
    cases e with
    | fatal => exact ⟨iff_of_true rfl houtcome, iff_of_false nofun fun h => houtcome h.1, nofun⟩
    | notTcpClient => exact ⟨iff_of_false nofun (not_not.2 houtcome.1), iff_of_true rfl houtcome, nofun⟩

/-- Two clients of one name, and one of a name whose factory makes a group. -/
def mixedFactories : ServiceFactoryManager where
  factories := [tcpClientFactory "biz", tcpServerFactory "gate", tcpClientGroupFactory "group"]

theorem start_registers_two_clients :
    (∃ m, start mixedFactories [⟨"biz", "tcp_client", "a", 1, 0⟩, ⟨"gate", "tcp_server", "a", 2, 0⟩,
        ⟨"biz", "tcp_client", "b", 1, 0⟩] = .ok m ∧
      m.Complete [⟨"biz", "tcp_client", "a", 1, 0⟩, ⟨"gate", "tcp_server", "a", 2, 0⟩,
        ⟨"biz", "tcp_client", "b", 1, 0⟩]) ∧
      start mixedFactories [⟨"biz", "tcp_client", "a", 1, 0⟩, ⟨"group", "tcp_client", "b", 1, 0⟩,
        ⟨"gate", "tcp_server", "a", 2, 0⟩, ⟨"gate", "tcp_server", "b", 2, 0⟩] = .error .notTcpClient :=
  ⟨⟨_, rfl, (start_registers mixedFactories [⟨"biz", "tcp_client", "a", 1, 0⟩,
      ⟨"gate", "tcp_server", "a", 2, 0⟩, ⟨"biz", "tcp_client", "b", 1, 0⟩] (by decide)).2.2 _ rfl⟩,
    (start_registers mixedFactories [⟨"biz", "tcp_client", "a", 1, 0⟩,
      ⟨"group", "tcp_client", "b", 1, 0⟩, ⟨"gate", "tcp_server", "a", 2, 0⟩,
      ⟨"gate", "tcp_server", "b", 2, 0⟩] (by decide)).2.1.2
        ⟨by decide, ⟨"group", "tcp_client", "b", 1, 0⟩, by decide, by decide⟩⟩

/-- A factory of the type "tcp_client" that makes a group. -/
theorem start_casts_a_group :
    ¬ ∀ (factories : ServiceFactoryManager) (serviceConfigs : List ServiceConfig),
      (∀ config ∈ serviceConfigs, config.serviceType ∈ serviceTypes) →
        start factories serviceConfigs ≠ .error .fatal →
          ∃ m, start factories serviceConfigs = .ok m ∧
            m.Complete (createdConfigs factories serviceConfigs) := by
  intro h
  obtain ⟨m, hm, -⟩ := h mixedFactories [⟨"group", "tcp_client", "a", 1, 0⟩] (by decide)
    (fun hfatal => by cases hfatal)
  cases hm

end ServiceRegistry

end ServiceFramework.Net
