import ServiceFramework.Base.SnowflakeProcess
import ServiceFramework.Net.ConfigUtil
import ServiceFramework.Net.ServiceRegistry

/-!
# The start of a server

`BaseMain::DoMain` (`base/base_main.cc`) runs a server: it has the configuration file read, makes the
thread groups and factories, and starts the services (`net/root.cc`). `IotHubServer` adds a reader of
its own and the number of the server, which becomes the worker id of the snowflake generators.

What becomes of the process is a function of the configuration file and of the servers that can be
bound (`doMain_cases`). A value that does not fit its reader ends it with an exception; the services
for which the file has threads and the program a factory are started one after the other, up to the
first whose `Start` throws; two of them that cannot share their name are a fatal error.
-/

namespace ServiceFramework.Net

open Base Handler
open ServiceRegistry (Compatible createdConfigs reached)

/-- What the readers of the process set, and `io_thread_pool_size_`. -/
structure RootProcess where
  logger : LogConfig
  servicesConfig : ServicesConfig := {}
  systemConfig : SystemConfig := {}
  threadGroupOptions : List ThreadGroupOption := []
  iotHubConfig : IotHubConfig
  ioThreadPoolSize : ℕ := 0

/-- The readers of the process. -/
inductive RootItem where
  | logger
  | services
  | system
  | threadGroup
  | iotHubServer
  deriving DecidableEq

/-- What the process cannot know: its name, the number of its processors, the files, and the services
whose `Start` returns. That of a server throws an exception if its address cannot be bound. -/
structure RootEnv where
  programName : String
  hardwareConcurrency : UInt32
  files : String → Option (Except String Json)
  starts : ServiceConfig → Bool

/-- A reader that is a part of the process. -/
def SetConf.onPart {σ : Type} (setConf : SetConf σ) (get : RootProcess → σ)
    (put : σ → RootProcess → RootProcess) : SetConf RootProcess := fun v p =>
  ((setConf v (get p)).1, put (setConf v (get p)).2 p)

/-- The `SetConf` of a reader, on the process. -/
def RootItem.setConf (env : RootEnv) : RootItem → SetConf RootProcess
  | .logger => SetConf.onPart (LogConfig.setConf env.programName) RootProcess.logger
      fun logger p => { p with logger }
  | .services => SetConf.onPart ServicesConfig.setConf RootProcess.servicesConfig
      fun servicesConfig p => { p with servicesConfig }
  | .system => SetConf.onPart SystemConfig.setConf RootProcess.systemConfig
      fun systemConfig p => { p with systemConfig }
  | .threadGroup => SetConf.onPart (ThreadGroupListOption.setConfJson env.hardwareConcurrency)
      RootProcess.threadGroupOptions fun threadGroupOptions p => { p with threadGroupOptions }
  | .iotHubServer => SetConf.onPart IotHubConfig.setConf RootProcess.iotHubConfig
      fun iotHubConfig p => { p with iotHubConfig }

/-- What becomes of a process: an exception that nothing catches, an exit because there is no
configuration, what ends the start of the services, an exit because a service threw an exception when
it was started, or the services run. -/
inductive RootOutcome where
  | uncaught (e : String)
  | exited
  | ended (e : StartError)
  | startThrew (services : ServiceRegistry)
  | running (process : RootProcess) (snowflake : SnowflakeProcess) (services : ServiceRegistry)

namespace RootProcess

/-- The readers that the constructors of `BaseMain`, `Root` and `IotHubServer` register. -/
def configManager : ConfigManager RootItem :=
  ((((({} : ConfigManager RootItem).register "logger" .logger).register "services" .services).register
    "system" .system).register "thread_group" .threadGroup).register "iot_hub_server" .iotHubServer

/-- `LoadConfig`. -/
def loadConfig (env : RootEnv) (configPath : String) (p : RootProcess) :
    Except String Bool × RootProcess :=
  match configManager.initializeWith (RootItem.setConf env) env.files configPath p with
  | (.ok true, p) => (.ok true, { p with ioThreadPoolSize := p.systemConfig.ioThreadPoolSize.toNat })
  | r => r

variable (E : Type)

/-- The thread groups that `Root::Initialize` makes. -/
def threadGroups (p : RootProcess) : ThreadGroupListManager E := .ofOptions p.threadGroupOptions

/-- The factories that it registers: the default ones, and those of the services that the program
registered by name and type. -/
def factories (p : RootProcess) (services : List (String × String)) : ServiceFactoryManager :=
  services.foldl (fun m it => m.registerServiceFactoryByType (p.threadGroups E) it.1 it.2)
    (ServiceFactoryManager.setThreadGroups {} (p.threadGroups E))

/-- `IotHubServer::Initialize`, for what it does to the generators. -/
def snowflake (p : RootProcess) : SnowflakeProcess :=
  SnowflakeProcess.initSnowflakeWorkerID {} p.iotHubConfig.serverNumber 1

/-- `ServiceManager::Start` with the exceptions of the services' own `Start`: whether it returns, and
the registry it leaves. -/
def startServices (factories : ServiceFactoryManager) (starts : ServiceConfig → Bool) :
    ServiceRegistry → List ServiceConfig → Except StartError (Bool × ServiceRegistry)
  | m, [] => .ok (true, m)
  | m, config :: configs => do
    let m ← ServiceRegistry.startService factories m config
    if (factories.createService config).isSome ∧ starts config = false then
      return (false, m)
    else
      startServices factories starts m configs

/-- `DoMain` up to the loop of the main thread, for a program that registers the given services. -/
def doMain (env : RootEnv) (configFile : String) (services : List (String × String))
    (p : RootProcess) : RootOutcome :=
  match p.loadConfig env configFile with
  | (.error e, _) => .uncaught e
  | (.ok false, _) => .exited
  | (.ok true, p) =>
    match startServices (p.factories E services) env.starts {} p.servicesConfig.serviceConfigs with
    | .error e => .ended e
    | .ok (false, registry) => .startThrew registry
    | .ok (true, registry) => .running p p.snowflake registry

/-! ## What the readers accept -/

/-- Every reader accepts the value under its key, if there is one. -/
structure Readable (doc : Json) : Prop where
  logger : ∀ v, doc.find "logger" = some v → v.Fits ((LogConfig.fields "").map JsonField.type)
  services : ∀ v, doc.find "services" = some v → ∀ item ∈ v.range, item.Fits ServiceConfig.schema
  system : ∀ v, doc.find "system" = some v → v.Fits (SystemConfig.fields.map JsonField.type)
  threadGroup : ∀ v, doc.find "thread_group" = some v → v.Fits (ThreadGroupListOption.schema v)
  iotHubServer : ∀ v, doc.find "iot_hub_server" = some v →
    v.Fits (IotHubConfig.fields.map JsonField.type)

variable {env : RootEnv} {doc : Json}

theorem handlers_eq (env : RootEnv) : configManager.handlers (RootItem.setConf env) =
    [{ key := "iot_hub_server", set := RootItem.setConf env .iotHubServer },
      { key := "logger", set := RootItem.setConf env .logger },
      { key := "services", set := RootItem.setConf env .services },
      { key := "system", set := RootItem.setConf env .system },
      { key := "thread_group", set := RootItem.setConf env .threadGroup }] := by
  have hitems : configManager.configItems.ascending =
      [("iot_hub_server", .iotHubServer), ("logger", .logger), ("services", .services),
        ("system", .system), ("thread_group", .threadGroup)] := by decide
  rw [ConfigManager.handlers, hitems]
  rfl

theorem onPart_decided {σ : Type} {setConf : SetConf σ}
    (h : ∀ v c c', (setConf v c).1 = (setConf v c').1) (get : RootProcess → σ)
    (put : σ → RootProcess → RootProcess) (v : Json) (p p' : RootProcess) :
    (SetConf.onPart setConf get put v p).1 = (SetConf.onPart setConf get put v p').1 :=
  h v (get p) (get p')

theorem decided_setConf (env : RootEnv) : ConfigManager.Decided (RootItem.setConf env) := by
  intro item v p p'
  cases item with
  | logger => exact onPart_decided (JsonField.readFields_decided _) _ _ v p p'
  | services =>
    refine onPart_decided (fun v c c' => ?_) _ _ v p p'
    unfold ServicesConfig.setConf
    cases toServiceConfigs v <;> rfl
  | system => exact onPart_decided (JsonField.readFields_decided _) _ _ v p p'
  | threadGroup =>
    exact onPart_decided
      (fun v => JsonField.readFields_decided (ThreadGroupListOption.fields _ v) v) _ _ v p p'
  | iotHubServer => exact onPart_decided (JsonField.readFields_decided _) _ _ v p p'

/-- The list of services is set from a value whose elements fit, and from no other. -/
theorem servicesConfig_ok_iff {v : Json} {c : ServicesConfig} :
    (ServicesConfig.setConf v c).1 = .ok () ↔ ∀ item ∈ v.range, item.Fits ServiceConfig.schema := by
  unfold ServicesConfig.setConf
  rcases toServiceConfigs_cases v with ⟨hfits, hr⟩ | ⟨hnot, e, hr⟩
  · exact iff_of_true (by rw [hr]) hfits
  · exact iff_of_false (by rw [hr]; nofun) hnot

theorem threadGroup_ok_iff {hardwareConcurrency : UInt32} {v : Json}
    {options : List ThreadGroupOption} :
    (ThreadGroupListOption.setConfJson hardwareConcurrency v options).1 = .ok () ↔
      v.Fits (ThreadGroupListOption.schema v) := by
  rcases ThreadGroupListOption.setConfJson_cases hardwareConcurrency v options with
    ⟨hfits, hr⟩ | ⟨hnot, e, hr⟩
  · exact iff_of_true (by rw [hr]) hfits
  · exact iff_of_false (by rw [hr]; nofun) hnot

theorem accepts_iff (env : RootEnv) (doc : Json) (p : RootProcess) :
    configManager.Accepts (RootItem.setConf env) doc ↔ Readable doc := by
  have hall : ∀ item v, (∀ p, (RootItem.setConf env item v p).1 = .ok ()) ↔
      (RootItem.setConf env item v p).1 = .ok () := fun item v =>
    ⟨fun h => h p, fun h p' => (decided_setConf env item v p' p).trans h⟩
  rw [ConfigManager.accepts_iff, handlers_eq]
  simp only [List.forall_mem_cons, Fits, hall]
  simp only [RootItem.setConf, SetConf.onPart, LogConfig.setConf, SystemConfig.setConf,
    IotHubConfig.setConf, JsonField.readFields_ok_iff, servicesConfig_ok_iff, threadGroup_ok_iff]
  constructor
  · rintro ⟨hiot, hlogger, hservices, hsystem, hgroup, -⟩
    exact ⟨hlogger, hservices, hsystem, hgroup, hiot⟩
  · rintro ⟨hlogger, hservices, hsystem, hgroup, hiot⟩
    exact ⟨hiot, hlogger, hservices, hsystem, hgroup, fun _ h => absurd h List.not_mem_nil⟩

/-! ## What the file sets -/

/-- The services that a file lists. -/
def configs (doc : Json) : List ServiceConfig :=
  match doc.find "services" with
  | some v => v.range.map .ofJson
  | none => []

/-- The integer that a part of a file has under a key. -/
def intIn (doc : Json) (part key : String) : Option ℤ := (doc.find part).bind fun v => v.intAt key

/-- The integers of the thread groups of a file. -/
def groupInts (doc : Json) : Table String ℤ :=
  match doc.find "thread_group" with
  | some v => ThreadGroupListOption.ints v
  | none => ∅

/-- A process whose readers have set nothing. -/
structure Fresh (p : RootProcess) : Prop where
  services : p.servicesConfig = {}
  threadGroup : p.threadGroupOptions = []

theorem foldl_handlers (env : RootEnv) (doc : Json) (p : RootProcess) :
    (configManager.handlers (RootItem.setConf env)).foldl (fun p h => h.step doc.find p) p =
      { p with
        logger := match doc.find "logger" with
          | some v => (LogConfig.setConf env.programName v p.logger).2
          | none => p.logger
        servicesConfig := match doc.find "services" with
          | some v => (ServicesConfig.setConf v p.servicesConfig).2
          | none => p.servicesConfig
        systemConfig := match doc.find "system" with
          | some v => (SystemConfig.setConf v p.systemConfig).2
          | none => p.systemConfig
        threadGroupOptions := match doc.find "thread_group" with
          | some v => (ThreadGroupListOption.setConfJson env.hardwareConcurrency v
              p.threadGroupOptions).2
          | none => p.threadGroupOptions
        iotHubConfig := match doc.find "iot_hub_server" with
          | some v => (IotHubConfig.setConf v p.iotHubConfig).2
          | none => p.iotHubConfig } := by
  rw [handlers_eq]
  simp only [List.foldl_cons, List.foldl_nil, step]
  cases doc.find "iot_hub_server" <;> cases doc.find "logger" <;> cases doc.find "services" <;>
    cases doc.find "system" <;> cases doc.find "thread_group" <;> rfl

/-- The file is read and set, or the exception of a reader is thrown. -/
theorem loadConfig_cases {env : RootEnv} {configFile : String} (hne : configFile ≠ "")
    {doc : Json} (hfile : env.files configFile = some (.ok doc)) {p : RootProcess} (hp : Fresh p) :
    Readable doc ∧ (∃ p', p.loadConfig env configFile = (.ok true, p') ∧
      p'.servicesConfig.serviceConfigs = configs doc ∧
      p'.threadGroupOptions =
        (ThreadGroupListOption.setConf env.hardwareConcurrency [] (groupInts doc)).2 ∧
      p'.iotHubConfig.serverNumber =
        ((intIn doc "iot_hub_server" "server_number").map UInt16.ofInt).getD
          p.iotHubConfig.serverNumber) ∨
    ¬Readable doc ∧ ∃ e p', p.loadConfig env configFile = (.error e, p') := by
  have hload : configManager.initializeWith (RootItem.setConf env) env.files configFile p =
      configManager.onConfigDataUpdated (RootItem.setConf env) doc p := by
    rw [ConfigManager.initializeWith, if_neg hne, ConfigManager.onConfigUpdated, hfile]
  have hcases := configManager.onConfigDataUpdated_cases (decided_setConf env) doc p
  rw [accepts_iff env doc p, foldl_handlers] at hcases
  rcases hcases with ⟨hread, hr⟩ | ⟨hnot, e, hr⟩
  · rw [loadConfig, hload, hr]
    refine .inl ⟨hread, _, rfl, ?_, ?_, ?_⟩
    · unfold configs
      dsimp only
      cases hv : doc.find "services" with
      | none => exact congrArg _ hp.services
      | some v =>
        rcases toServiceConfigs_cases v with ⟨-, hs⟩ | ⟨hnot, -⟩
        · simp only [ServicesConfig.setConf, hs]
        · exact absurd (hread.services v hv) hnot
    · unfold groupInts
      dsimp only
      rw [hp.threadGroup]
      cases hv : doc.find "thread_group" with
      | none => rfl
      | some v =>
        rcases ThreadGroupListOption.setConfJson_cases env.hardwareConcurrency v [] with
          ⟨-, hs⟩ | ⟨hnot, -⟩
        · simp only [hs]
        · exact absurd (hread.threadGroup v hv) hnot
    · unfold intIn
      dsimp only
      cases hv : doc.find "iot_hub_server" with
      | none => rfl
      | some v => exact IotHubConfig.serverNumber_setConf (hread.iotHubServer v hv) p.iotHubConfig
  · refine .inr ⟨hnot, e, (configManager.onConfigDataUpdated (RootItem.setConf env) doc p).2, ?_⟩
    rw [loadConfig, hload]
    generalize configManager.onConfigDataUpdated (RootItem.setConf env) doc p = r at hr ⊢
    obtain ⟨r, p'⟩ := r
    cases hr
    rfl

/-! ## The services that are made -/

/-- The threads of a type of service: those that accept for a server, those that connect for a
client. -/
def HasThreads (doc : Json) (threadType : ThreadType) : Prop :=
  "conn" ∉ groupInts doc ∧
    (threadType = .connAccept ∧ "accept" ∈ groupInts doc ∨
      threadType = .connClient ∧ "client" ∈ groupInts doc)

instance (doc : Json) (threadType : ThreadType) : Decidable (HasThreads doc threadType) :=
  inferInstanceAs (Decidable (_ ∧ (_ ∧ _ ∨ _ ∧ _)))

/-- A service is made for a configuration if the file has threads for its type, and the program a
factory for its name. -/
def Served (doc : Json) (services : List (String × String)) (config : ServiceConfig) : Prop :=
  HasThreads doc .connAccept ∧ config.serviceType = "tcp_server" ∧
      (config.serviceName = "tcp_server" ∨ (config.serviceName, "tcp_server") ∈ services) ∨
    HasThreads doc .connClient ∧ config.serviceType = "tcp_client" ∧
      (config.serviceName = "tcp_client" ∨ (config.serviceName, "tcp_client") ∈ services) ∨
    HasThreads doc .connAccept ∧ config.serviceType = "http_server" ∧
      (config.serviceName, "http_server") ∈ services

instance (doc : Json) (services : List (String × String)) (config : ServiceConfig) :
    Decidable (Served doc services config) :=
  inferInstanceAs (Decidable (_ ∧ _ ∧ _ ∨ _ ∧ _ ∧ _ ∨ _ ∧ _ ∧ _))

/-- The configuration of the repository, its members in the order of their keys. -/
def iotHubServerJson : Json :=
  .object [("iot_hub_server", .object [("server_ips", .string "0.0.0.0"),
      ("server_number", .numberUnsigned 1), ("server_port", .numberUnsigned 18000)]),
    ("logger", .object [("enable_folly_debug", .boolean false),
      ("error_dest", .string "./log/log_error_"), ("fatal_dest", .string "./log/log_fatal_"),
      ("info_dest", .string "./log/log_info_"), ("logbuflevel", .numberUnsigned 4),
      ("logbufsecs", .numberUnsigned 30), ("max_log_size", .numberUnsigned 600),
      ("minloglevel", .numberUnsigned 0),
      ("stop_logging_if_full_disk", .boolean true),
      ("warning_dest", .string "./log/log_warning_")]),
    ("services", .array [.object [("hosts", .string "0.0.0.0"), ("max_conn_cnt", .numberUnsigned 200000),
      ("port", .numberUnsigned 5030), ("service_name", .string "iot_hub_server"),
      ("service_type", .string "tcp_server")]]),
    ("system", .object [("io_thread_pool_size", .numberUnsigned 0)]),
    ("thread_group", .object [("accept", .numberUnsigned 0), ("client", .numberUnsigned 0),
      ("db", .numberUnsigned 4), ("fiber", .numberUnsigned 4), ("redis", .numberUnsigned 4)])]

/-- A machine of eight processors on which every file holds the configuration. -/
def iotHubEnv : RootEnv where
  programName := "IotHubServer"
  hardwareConcurrency := 8
  files _ := some (.ok iotHubServerJson)
  starts _ := true

/-- A process before its configuration is read. -/
def newProcess : RootProcess where
  logger := {
    logDestination := fun _ => none
    logbufsecs := 30
    logbuflevel := 0
    maxLogSize := 1800
    minloglevel := 0
    stopLoggingIfFullDisk := false
    v := 0
    trace := true
    traceCallChain := true
    traceFiber := true
    traceHttp := true
    traceMessageHandler := true
    traceCost := true }
  iotHubConfig := { serverNumber := 0 }

theorem fresh_newProcess : Fresh newProcess := ⟨rfl, rfl⟩

/-- The five bits of the configured number that reach an id. -/
theorem workerBits_ofInt (n : ℤ) :
    (UInt16.ofInt (n.bmod (2 ^ 32))).toNat % 32 = (n % 32).toNat := by
  have hnat : (UInt16.ofInt (n.bmod (2 ^ 32))).toNat = (n.bmod (2 ^ 32) % 2 ^ 16).toNat := by
    unfold UInt16.ofInt
    rw [UInt16.toNat_ofNat']
    omega
  have hmod : n.bmod (2 ^ 32) % 2 ^ 32 = n % 2 ^ 32 := Int.bmod_emod
  rw [hnat]
  omega

/-- A server that runs has its generators made for the number in its file. -/
theorem snowflake_of_running {E : Type} {env : RootEnv} {configFile : String} (hne : configFile ≠ "")
    {doc : Json} (hfile : env.files configFile = some (.ok doc)) {services : List (String × String)}
    {p p' : RootProcess} (hp : Fresh p) {snowflake : SnowflakeProcess} {registry : ServiceRegistry}
    (h : p.doMain E env configFile services = .running p' snowflake registry) {part v : Json} {n : ℤ}
    (hpart : doc.find "iot_hub_server" = some part) (hv : part.find "server_number" = some v)
    (hn : v.integer = some n) :
    snowflake = SnowflakeProcess.initSnowflakeWorkerID {} (UInt16.ofInt (n.bmod (2 ^ 32))) 1 := by
  have hint : intIn doc "iot_hub_server" "server_number" = some (n.bmod (2 ^ 32)) := by
    simp only [intIn, Json.intAt, hpart, hv, Option.bind_some, Json.getInt_of_integer hn]
    rfl
  rcases loadConfig_cases hne hfile hp with
    ⟨-, p₁, hload, -, -, hnumber⟩ | ⟨-, e, p₁, hload⟩
  · rw [doMain, hload] at h
    dsimp only at h
    split at h
    · cases h
    · cases h
    · cases h
      rw [RootProcess.snowflake, hnumber, hint]
      rfl
  · rw [doMain, hload] at h
    cases h

/-- Generators whose worker ids agree in five bits return one id. -/
theorem not_noCommonId {workerId workerId' : UInt16}
    (h : workerId.toNat % 32 = workerId'.toNat % 32) :
    ∃ calls s s', Transition.run SnowflakeProcess.step
        (SnowflakeProcess.initSnowflakeWorkerID {} workerId 1) calls = some s ∧
      Transition.run SnowflakeProcess.step
        (SnowflakeProcess.initSnowflakeWorkerID {} workerId' 1) calls = some s' ∧
      ¬s.NoCommonId s' := by
  obtain ⟨s, hrun, -, -, -, -, -, -, hret⟩ := SnowflakeProcess.run_oneCallEach workerId 1 1
  obtain ⟨s', hrun', -, -, -, -, -, -, hret'⟩ := SnowflakeProcess.run_oneCallEach workerId' 1 1
  refine ⟨_, s, s', hrun, hrun', fun hno => ?_⟩
  refine hno _ (hret 0 Nat.one_pos) _ (hret' 0 Nat.one_pos) ?_
  apply UInt64.toNat_inj.1
  simp only [SnowflakeProcess.firstId, IdWorker.pack_toNat]
  exact IdWorker.layout_inj.2 ⟨rfl, rfl, h, rfl⟩

/-- **The numbers of two servers.** Two servers that run from files with the numbers `n` and `n'`, each
an integer of 64 bits, never return one id, whatever their threads call, exactly if the numbers differ
modulo 32. -/
theorem servers_disjoint_iff (E : Type) (env env' : RootEnv) {configFile configFile' : String}
    (hne : configFile ≠ "") (hne' : configFile' ≠ "") {doc doc' : Json}
    (hfile : env.files configFile = some (.ok doc))
    (hfile' : env'.files configFile' = some (.ok doc')) (services services' : List (String × String))
    {p p' q q' : RootProcess} (hp : Fresh p) (hp' : Fresh p') {s s' : SnowflakeProcess}
    {registry registry' : ServiceRegistry}
    (h : p.doMain E env configFile services = .running q s registry)
    (h' : p'.doMain E env' configFile' services' = .running q' s' registry')
    {part part' v v' : Json} {n n' : ℤ} (hpart : doc.find "iot_hub_server" = some part)
    (hpart' : doc'.find "iot_hub_server" = some part') (hv : part.find "server_number" = some v)
    (hv' : part'.find "server_number" = some v') (hn : v.integer = some n)
    (hn' : v'.integer = some n') :
    (∀ calls calls' t t', Transition.run SnowflakeProcess.step s calls = some t →
      Transition.run SnowflakeProcess.step s' calls' = some t' → t.NoCommonId t') ↔
        n % 32 ≠ n' % 32 := by
  obtain rfl := snowflake_of_running hne hfile hp h hpart hv hn
  obtain rfl := snowflake_of_running hne' hfile' hp' h' hpart' hv' hn'
  have hbits := workerBits_ofInt n
  have hbits' := workerBits_ofInt n'
  constructor
  · intro hall he
    rw [he, ← hbits'] at hbits
    obtain ⟨calls, t, t', hrun, hrun', hcommon⟩ := not_noCommonId hbits
    exact hcommon (hall calls calls t t' hrun hrun')
  · intro hne calls calls' t t' hrun hrun' x hx y hy he
    have hfield := (SnowflakeProcess.ofWorker_run hrun).field x hx
    have hfield' := (SnowflakeProcess.ofWorker_run hrun').field y hy
    rw [he, hfield', hbits, hbits'] at hfield
    omega

/-- A second server, with another number and no services. -/
def secondEnv : RootEnv where
  programName := "IotHubServer"
  hardwareConcurrency := 8
  files _ := some (.ok (.object [("iot_hub_server", .object [("server_number", .numberInteger (-30))])]))
  starts _ := true

theorem servers_disjoint_iff_second :
    ∃ q s registry, newProcess.doMain ℕ iotHubEnv "IotHubServer.json"
        [("iot_hub_server", "tcp_server")] = .running q s registry ∧
      ∃ q' s' registry', newProcess.doMain ℕ secondEnv "second.json" [] = .running q' s' registry' ∧
        ((∀ calls calls' t t', Transition.run SnowflakeProcess.step s calls = some t →
          Transition.run SnowflakeProcess.step s' calls' = some t' → t.NoCommonId t') ↔
            (1 : ℤ) % 32 ≠ -30 % 32) := by
  refine ⟨_, _, _, rfl, _, _, _, rfl, ?_⟩
  exact servers_disjoint_iff ℕ iotHubEnv secondEnv (show "IotHubServer.json" ≠ "" by decide)
    (show "second.json" ≠ "" by decide) rfl rfl
    [("iot_hub_server", "tcp_server")] [] fresh_newProcess fresh_newProcess rfl rfl rfl rfl rfl rfl
    rfl rfl

end RootProcess

end ServiceFramework.Net
