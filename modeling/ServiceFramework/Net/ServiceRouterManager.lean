import ServiceFramework.Net.ServiceRegistry

/-!
# The service router

`ServiceRouterManager` (`net/service_router_manager.cc`) starts services as `ServiceManager` does, with
factories of its own, but has no groups of clients: `RegisterServiceBase` takes note of a client and
answers false, so that the client is made and neither entered nor started.

So clients never clash with other services here, and the rest is as with `ServiceManager`, but that
this manager does not know the type "secure_tcp_server" (`start_router`).
-/

namespace ServiceFramework.Net

open Transition

/-- `services_`, with the services made and the numbers of those that `Start` was called on, in order. -/
structure ServiceRouterManager where
  services : Table String ServiceBase := ∅
  created : List ServiceBase := []
  started : List ℕ := []

namespace ServiceRouterManager

/-- The factories that the constructor registers. -/
def defaultFactories : ServiceFactoryManager :=
  (ServiceFactoryManager.registerServiceFactory {} (tcpServerFactory "tcp_server")).registerServiceFactory
    (tcpClientFactory "tcp_client")

/-- `RegisterServiceBase` for a service whose name is to be free; `none` is a fatal error. -/
def registerSingle (m : ServiceRouterManager) (service : ServiceBase) :
    Option (Bool × ServiceRouterManager) :=
  match m.services.find service.config.serviceName with
  | some _ => none
  | none => some (true, { m with
      services := m.services.insert service.config.serviceName service })

/-- `RegisterServiceBase`; `none` is a fatal error. -/
def registerServiceBase (m : ServiceRouterManager) (service : ServiceBase) :
    Option (Bool × ServiceRouterManager) :=
  if service.config.serviceType = "tcp_client" then
    some (false, m)
  else if service.config.serviceType = "tcp_server" then
    m.registerSingle service
  else if service.config.serviceType = "http_server" then
    m.registerSingle service
  else
    none

/-- One round of the loop in `Start`, for one configuration; `none` is a fatal error. -/
def startService (factories : ServiceFactoryManager) (m : ServiceRouterManager)
    (config : ServiceConfig) : Option ServiceRouterManager :=
  match factories.createService config with
  | some moduleType => do
    let service : ServiceBase := { number := m.created.length, config, moduleType }
    let (rv, m) ← { m with created := m.created ++ [service] }.registerServiceBase service
    return if rv then { m with started := m.started ++ [service.number] } else m
  | none => some m

/-- `Start`, of a manager without services. -/
def start (factories : ServiceFactoryManager) (serviceConfigs : List ServiceConfig) :
    Option ServiceRouterManager :=
  run (startService factories) {} serviceConfigs

/-! ## What is entered -/

/-- A client. -/
def isClient (config : ServiceConfig) : Bool := config.serviceType = "tcp_client"

/-- Two configurations that may both have a service. -/
def Compatible (c c' : ServiceConfig) : Prop :=
  isClient c = false → isClient c' = false → c.serviceName ≠ c'.serviceName

instance : DecidableRel Compatible := fun c c' =>
  inferInstanceAs (Decidable (isClient c = false → isClient c' = false → _ ≠ _))

/-- The types of services that the manager knows. -/
def registeredTypes : List String := ["tcp_client", "tcp_server", "http_server"]

/-- Configurations that may all have a service. -/
def AllFit (configs : List ServiceConfig) : Prop :=
  Transition.AllFit (fun config => config.serviceType ∈ registeredTypes) Compatible configs

instance (configs : List ServiceConfig) : Decidable (AllFit configs) :=
  inferInstanceAs (Decidable (_ ∧ _))

/-- The entries are the services made so far that are no clients, each under its name, and these are
the ones that were started. -/
structure Registers (m : ServiceRouterManager) : Prop where
  find_iff : ∀ name s, m.services.find name = some s ↔
    s ∈ m.created ∧ s.config.serviceName = name ∧ isClient s.config = false
  numbers : m.created.map ServiceBase.number = List.range m.created.length
  started : m.started = (m.created.filter fun s => !isClient s.config).map ServiceBase.number

theorem registers_empty : ({} : ServiceRouterManager).Registers where
  find_iff name s := by
    rw [Table.find_empty]
    exact iff_of_false nofun fun h => List.not_mem_nil h.1
  numbers := rfl
  started := rfl

variable {m : ServiceRouterManager}

/-- A client is made, and that is all. -/
theorem Registers.client (hm : m.Registers) {config : ServiceConfig} (hclient : isClient config = true)
    (moduleType : ServiceModuleType) : Registers { m with
      created := m.created ++ [{ number := m.created.length, config, moduleType }] } where
  find_iff name s := by
    rw [hm.find_iff, List.mem_append, List.mem_singleton]
    refine ⟨fun h => ⟨.inl h.1, h.2⟩, ?_⟩
    rintro ⟨hs | rfl, hname, hno⟩
    · exact ⟨hs, hname, hno⟩
    · rw [hclient] at hno
      cases hno
  numbers := by
    rw [List.map_append, hm.numbers, List.length_append, List.length_singleton, List.range_succ]
    rfl
  started := by
    rw [List.filter_append, List.filter_cons_of_neg (by simp [hclient]), List.filter_nil,
      List.append_nil]
    exact hm.started

/-- Any other service is entered and started, if its name is free. -/
theorem Registers.enter (hm : m.Registers) {config : ServiceConfig} (hclient : isClient config = false)
    (moduleType : ServiceModuleType) (hfree : m.services.find config.serviceName = none) :
    Registers {
      services := m.services.insert config.serviceName
        { number := m.created.length, config, moduleType }
      created := m.created ++ [{ number := m.created.length, config, moduleType }]
      started := m.started ++ [m.created.length] } where
  find_iff name s := by
    dsimp only
    rw [Table.find_insert, List.mem_append, List.mem_singleton]
    split
    · next hname =>
      rw [Option.some.injEq]
      constructor
      · rintro rfl
        exact ⟨.inr rfl, hname.symm, hclient⟩
      · rintro ⟨hs | rfl, hsame, hno⟩
        · have hfound := (hm.find_iff config.serviceName s).2 ⟨hs, hsame.trans hname, hno⟩
          rw [hfree] at hfound
          cases hfound
        · rfl
    · next hname =>
      rw [hm.find_iff]
      refine ⟨fun h => ⟨.inl h.1, h.2⟩, ?_⟩
      rintro ⟨hs | rfl, hsame, hno⟩
      · exact ⟨hs, hsame, hno⟩
      · exact absurd hsame.symm hname
  numbers := by
    rw [List.map_append, hm.numbers, List.length_append, List.length_singleton, List.range_succ]
    rfl
  started := by
    rw [List.filter_append, List.map_append, ← hm.started,
      List.filter_cons_of_pos (by simp [hclient])]
    rfl

/-- What `RegisterServiceBase` does with a service that is no client. -/
theorem registerServiceBase_eq (m : ServiceRouterManager) (service : ServiceBase)
    (hclient : isClient service.config = false) : m.registerServiceBase service =
      if service.config.serviceType ∈ registeredTypes then m.registerSingle service else none := by
  have hno : ¬ service.config.serviceType = "tcp_client" := of_decide_eq_false hclient
  simp only [registerServiceBase, registeredTypes, List.mem_cons, List.not_mem_nil, or_false, hno,
    if_false, false_or]
  by_cases hserver : service.config.serviceType = "tcp_server"
  · rw [if_pos hserver, if_pos (.inl hserver)]
  · simp only [hserver, if_false, false_or]

/-- One round of the loop: no service is made for the configuration, or it is a client, or it is
entered and started, or the error is fatal. -/
theorem Registers.startService (hm : m.Registers) (factories : ServiceFactoryManager)
    (config : ServiceConfig) :
    (factories.createService config).isSome = false ∧
        ServiceRouterManager.startService factories m config = some m ∨
      (factories.createService config).isSome = true ∧
        ((∃ m', ServiceRouterManager.startService factories m config = some m' ∧ m'.Registers ∧
          m'.created.map ServiceBase.config = m.created.map ServiceBase.config ++ [config] ∧
          config.serviceType ∈ registeredTypes ∧
          ∀ c ∈ m.created.map ServiceBase.config, Compatible c config) ∨
        ServiceRouterManager.startService factories m config = none ∧
          ¬ (config.serviceType ∈ registeredTypes ∧
            ∀ c ∈ m.created.map ServiceBase.config, Compatible c config)) := by
  unfold ServiceRouterManager.startService
  cases hcreate : factories.createService config with
  | none => exact .inl ⟨rfl, rfl⟩
  | some moduleType =>
    refine .inr ⟨rfl, ?_⟩
    dsimp only
    by_cases hclient : isClient config = true
    · have htype : config.serviceType = "tcp_client" := of_decide_eq_true hclient
      refine .inl ⟨_, ?_, hm.client hclient moduleType, List.map_append,
        by simp [htype, registeredTypes], ?_⟩
      · rw [registerServiceBase, if_pos htype]
        rfl
      · intro c _ _ hno
        rw [hclient] at hno
        cases hno
    · rw [Bool.not_eq_true] at hclient
      rw [registerServiceBase_eq _ _ hclient]
      by_cases htype : config.serviceType ∈ registeredTypes
      · rw [if_pos htype, registerSingle]
        dsimp only
        cases hfind : m.services.find config.serviceName with
        | none =>
          refine .inl ⟨_, rfl, hm.enter hclient moduleType hfind, List.map_append, htype, ?_⟩
          intro c hc hno _ hname
          obtain ⟨s, hs, rfl⟩ := List.mem_map.1 hc
          have hfound := (hm.find_iff config.serviceName s).2 ⟨hs, hname, hno⟩
          rw [hfind] at hfound
          cases hfound
        | some s =>
          obtain ⟨hs, hname, hno⟩ := (hm.find_iff config.serviceName s).1 hfind
          exact .inr ⟨rfl, fun h => h.2 s.config (List.mem_map_of_mem hs) hno hclient hname⟩
      · rw [if_neg htype]
        exact .inr ⟨rfl, fun h => htype h.1⟩

/-! ## Agreement with `ServiceManager` -/

/-- The same services were made and started, and the entries are the same. -/
structure Agrees (m : ServiceRouterManager) (m' : ServiceRegistry) : Prop where
  created : m'.created = m.created
  started : m'.started = m.started
  find : ∀ name, m'.services.find name = (m.services.find name).map .single

/-- The one has failed and the other has hit a fatal error, or they have left managers that agree. -/
def AgreesOn : Option ServiceRouterManager → Except StartError ServiceRegistry → Prop
  | none, r => r = .error .fatal
  | some m, r => ∃ m', r = .ok m' ∧ m.Agrees m'

/-- What `ServiceManager` does with a service of a type that both know, or that neither does. -/
theorem registry_registerServiceBase_eq (m : ServiceRegistry) (service : ServiceBase)
    (hclient : service.config.serviceType ≠ "tcp_client")
    (hsecure : service.config.serviceType ≠ "secure_tcp_server") : m.registerServiceBase service =
      if service.config.serviceType ∈ registeredTypes then m.registerSingle service
      else .error .fatal := by
  simp only [ServiceRegistry.registerServiceBase, registeredTypes, List.mem_cons, List.not_mem_nil,
    or_false, hclient, hsecure, if_false, false_or]
  by_cases hserver : service.config.serviceType = "tcp_server"
  · rw [if_pos hserver, if_pos (.inl hserver)]
  · simp only [hserver, if_false, false_or]

/-- Both managers do the same for a service that is no client, unless it has the type that only one of
them knows. -/
theorem Agrees.startService {m' : ServiceRegistry} (h : m.Agrees m')
    (factories : ServiceFactoryManager) (config : ServiceConfig)
    (htype : (factories.createService config).isSome = true →
      config.serviceType ≠ "tcp_client" ∧ config.serviceType ≠ "secure_tcp_server") :
    AgreesOn (ServiceRouterManager.startService factories m config)
      (ServiceRegistry.startService factories m' config) := by
  unfold ServiceRouterManager.startService ServiceRegistry.startService
  cases hcreate : factories.createService config with
  | none => exact ⟨m', rfl, h⟩
  | some moduleType =>
    obtain ⟨hclient, hsecure⟩ := htype (by rw [hcreate]; rfl)
    dsimp only [ServiceRegistry.newService]
    rw [registerServiceBase_eq _ _ (decide_eq_false hclient),
      registry_registerServiceBase_eq _ _ hclient hsecure]
    split
    · rw [registerSingle, ServiceRegistry.registerSingle]
      dsimp only
      rw [h.created, h.find]
      cases hfind : m.services.find config.serviceName with
      | some s => rfl
      | none =>
        refine ⟨_, rfl, rfl, ?_, fun name => ?_⟩
        · exact congrArg (· ++ [m.created.length]) h.started
        · simp only [if_true]
          rw [Table.find_insert, Table.find_insert]
          split
          · rfl
          · exact h.find name
    · rfl

theorem Agrees.run {m' : ServiceRegistry} (h : m.Agrees m') (factories : ServiceFactoryManager)
    {serviceConfigs : List ServiceConfig}
    (htypes : ∀ config ∈ ServiceRegistry.createdConfigs factories serviceConfigs,
      config.serviceType ≠ "tcp_client" ∧ config.serviceType ≠ "secure_tcp_server") :
    AgreesOn (Transition.run (ServiceRouterManager.startService factories) m serviceConfigs)
      (serviceConfigs.foldlM (ServiceRegistry.startService factories) m') := by
  induction serviceConfigs generalizing m m' with
  | nil => exact ⟨m', rfl, h⟩
  | cons config serviceConfigs ih =>
    have hstep := h.startService factories config fun hcreate =>
      htypes config (List.mem_filter.2 ⟨List.mem_cons_self, hcreate⟩)
    have hrest : ∀ c ∈ ServiceRegistry.createdConfigs factories serviceConfigs,
        c.serviceType ≠ "tcp_client" ∧ c.serviceType ≠ "secure_tcp_server" := by
      intro c hc
      obtain ⟨hmem, hcreate⟩ := List.mem_filter.1 hc
      exact htypes c (List.mem_filter.2 ⟨List.mem_cons_of_mem config hmem, hcreate⟩)
    rw [run_cons, List.foldlM_cons]
    cases hrouter : ServiceRouterManager.startService factories m config with
    | none =>
      rw [hrouter] at hstep
      rw [show ServiceRegistry.startService factories m' config = .error .fatal from hstep]
      rfl
    | some m₁ =>
      rw [hrouter] at hstep
      obtain ⟨m₁', hmanager, hagrees⟩ := hstep
      rw [hmanager]
      exact ih hagrees hrest

/-- **The router.** `Start` fails exactly if a service that it makes is of a type it does not know, as
"secure_tcp_server", or two of them share a name and neither is a client. Otherwise its entries are the
services made that are no clients, each under its name, and these and no others were started, each once.
It does what `ServiceManager` does if no service made is a client or of the type that only
`ServiceManager` knows. -/
theorem start_router (factories : ServiceFactoryManager) (serviceConfigs : List ServiceConfig) :
    (start factories serviceConfigs = none ↔
      ¬ AllFit (ServiceRegistry.createdConfigs factories serviceConfigs)) ∧
      (∀ m, start factories serviceConfigs = some m → m.Registers ∧
        m.created.map ServiceBase.config = ServiceRegistry.createdConfigs factories serviceConfigs) ∧
      ((∀ config ∈ ServiceRegistry.createdConfigs factories serviceConfigs,
          config.serviceType ≠ "tcp_client" ∧ config.serviceType ≠ "secure_tcp_server") →
        AgreesOn (start factories serviceConfigs) (ServiceRegistry.start factories serviceConfigs)) := by
  obtain ⟨hfatal, hruns⟩ := run_allFit (fun m => m.created.map ServiceBase.config)
    (fun config => (factories.createService config).isSome)
    (fun m (hm : Registers m) config => hm.startService factories config) registers_empty
    (allFit_nil _ _) serviceConfigs
  refine ⟨hfatal, hruns, fun htypes => ?_⟩
  have hempty : Agrees {} {} := ⟨rfl, rfl, fun name => by rw [Table.find_empty, Table.find_empty]; rfl⟩
  exact hempty.run factories htypes

/-- A factory of the type that only `ServiceManager` knows, and one of servers. -/
def secureFactories : ServiceFactoryManager where
  factories := [⟨"secure_tcp_server", "gate", fun _ => some .tcpServer⟩, tcpServerFactory "gate"]

theorem start_router_default :
    (∃ m, start defaultFactories [⟨"tcp_server", "tcp_server", "a", 1, 0⟩,
        ⟨"tcp_client", "tcp_client", "b", 2, 0⟩] = some m ∧ m.started = [0] ∧ m.Registers) ∧
      start secureFactories [⟨"gate", "secure_tcp_server", "a", 1, 0⟩] = none ∧
      AgreesOn (start secureFactories [⟨"gate", "tcp_server", "a", 1, 0⟩])
        (ServiceRegistry.start secureFactories [⟨"gate", "tcp_server", "a", 1, 0⟩]) :=
  ⟨⟨_, rfl, rfl, ((start_router defaultFactories [⟨"tcp_server", "tcp_server", "a", 1, 0⟩,
      ⟨"tcp_client", "tcp_client", "b", 2, 0⟩]).2.1 _ rfl).1⟩,
    (start_router secureFactories [⟨"gate", "secure_tcp_server", "a", 1, 0⟩]).1.2 (by decide),
    (start_router secureFactories [⟨"gate", "tcp_server", "a", 1, 0⟩]).2.2 (by decide)⟩

end ServiceRouterManager

end ServiceFramework.Net
