import ServiceFramework.Net.ThreadGroupListManager

/-!
# Services and their factories

`ServiceFactoryManager` (`net/base/service_factory_manager.cc`) keeps the registered factories and
makes the service of a configuration with the first of them that has its type and name. A service is
its class, for `ServiceBase` stores the configuration it is made with.

`ServiceManager` registers the factories: those of the default services when it is given the thread
groups, and those of the application by name and type. It makes none whose group of threads is
missing.
-/

namespace ServiceFramework.Net

/-- `ServiceModuleType`, the class of a service. -/
inductive ServiceModuleType where
  | invalid
  | tcpServer
  | tcpClientGroup
  | tcpClientPool
  | tcpClient
  | udpServer
  | udpClient
  | httpServer
  | maxSize
  deriving DecidableEq

/-- `ServiceConfig`. -/
structure ServiceConfig where
  serviceName : String
  serviceType : String
  hosts : String := ""
  port : UInt32 := 0
  maxConnCnt : UInt32 := 0
  deriving DecidableEq

/-- `ServiceBaseFactory`: the type and the name it serves, and `CreateInstance`, the class of the
service made, null being `none`. -/
structure ServiceBaseFactory where
  getType : String
  getName : String
  createInstance : ServiceConfig → Option ServiceModuleType

/-- `TcpServerFactory`. -/
def tcpServerFactory (name : String) : ServiceBaseFactory where
  getType := "tcp_server"
  getName := name
  createInstance _ := some .tcpServer

/-- `TcpClientFactory`. -/
def tcpClientFactory (name : String) : ServiceBaseFactory where
  getType := "tcp_client"
  getName := name
  createInstance _ := some .tcpClient

/-- `TcpClientGroupFactory`, of the type of `TcpClientFactory`. -/
def tcpClientGroupFactory (name : String) : ServiceBaseFactory where
  getType := "tcp_client"
  getName := name
  createInstance _ := some .tcpClientGroup

/-- `HttpServerFactory`. -/
def httpServerFactory (name : String) : ServiceBaseFactory where
  getType := "http_server"
  getName := name
  createInstance _ := some .httpServer

/-- The member of `ServiceFactoryManager`. -/
structure ServiceFactoryManager where
  factories : List ServiceBaseFactory := []

namespace ServiceFactoryManager

variable {E : Type}

def registerServiceFactory (m : ServiceFactoryManager) (factory : ServiceBaseFactory) :
    ServiceFactoryManager where
  factories := m.factories ++ [factory]

/-- `CreateService`: the class of the service, null being `none`. -/
def createService (m : ServiceFactoryManager) (config : ServiceConfig) : Option ServiceModuleType :=
  go m.factories
where
  go : List ServiceBaseFactory → Option ServiceModuleType
    | [] => none
    | factory :: factories =>
      if factory.getType = config.serviceType then
        if factory.getName = config.serviceName then
          factory.createInstance config
        else
          go factories
      else
        go factories

/-- What is made for the configuration is a `TcpClient`, if it is of the type "tcp_client". -/
def makesClient (m : ServiceFactoryManager) (config : ServiceConfig) : Bool :=
  config.serviceType ≠ "tcp_client" ∨ m.createService config = some .tcpClient

/-- Register a factory of services that run on the given threads, unless there are none. -/
def registerOn (m : ServiceFactoryManager) (ioGroup : Option ThreadPoolExecutor)
    (factory : ServiceBaseFactory) : ServiceFactoryManager :=
  match ioGroup with
  | some _ => m.registerServiceFactory factory
  | none => m

/-- What `ServiceManager::set_thread_groups` registers. -/
def setThreadGroups (m : ServiceFactoryManager) (threadGroups : ThreadGroupListManager E) :
    ServiceFactoryManager :=
  let m := m.registerOn (threadGroups.getIOThreadPoolExecutor .connAccept)
    (tcpServerFactory "tcp_server")
  m.registerOn (threadGroups.getIOThreadPoolExecutor .connClient) (tcpClientFactory "tcp_client")

/-- `ServiceManager::RegisterServiceFactory`. -/
def registerServiceFactoryByType (m : ServiceFactoryManager)
    (threadGroups : ThreadGroupListManager E) (name type : String) : ServiceFactoryManager :=
  if type = "tcp_server" then
    m.registerOn (threadGroups.getIOThreadPoolExecutor .connAccept) (tcpServerFactory name)
  else if type = "tcp_client" then
    m.registerOn (threadGroups.getIOThreadPoolExecutor .connClient) (tcpClientFactory name)
  else if type = "http_server" then
    m.registerOn (threadGroups.getIOThreadPoolExecutor .connAccept) (httpServerFactory name)
  else
    m

theorem mem_registerOn {m : ServiceFactoryManager} {ioGroup : Option ThreadPoolExecutor}
    {factory f : ServiceBaseFactory} :
    f ∈ (m.registerOn ioGroup factory).factories ↔
      f ∈ m.factories ∨ ioGroup.isSome = true ∧ f = factory := by
  cases ioGroup with
  | none => simp [registerOn]
  | some pool => simp [registerOn, registerServiceFactory]

/-- The default factories are registered where there is a group of threads for them. -/
theorem mem_setThreadGroups {m : ServiceFactoryManager} {threadGroups : ThreadGroupListManager E}
    {f : ServiceBaseFactory} :
    f ∈ (m.setThreadGroups threadGroups).factories ↔ f ∈ m.factories ∨
      (threadGroups.getIOThreadPoolExecutor .connAccept).isSome = true ∧
        f = tcpServerFactory "tcp_server" ∨
      (threadGroups.getIOThreadPoolExecutor .connClient).isSome = true ∧
        f = tcpClientFactory "tcp_client" := by
  unfold setThreadGroups
  rw [mem_registerOn, mem_registerOn, or_assoc]

end ServiceFactoryManager

end ServiceFramework.Net
