import ServiceFramework.Lib.Transition
import ServiceFramework.Net.ThreadLocalConnManager
import ServiceFramework.Net.ConnHandler
import ServiceFramework.Base.Snowflake
import ServiceFramework.Base.SnowflakeProcess
import ServiceFramework.Lib.Window
import ServiceFramework.Net.FiberDataManager
import ServiceFramework.Net.ThreadGroupListManager
import ServiceFramework.Net.ServiceManager
import ServiceFramework.Net.HttpClient
import ServiceFramework.Net.HttpSyncFetch
import ServiceFramework.Net.TcpClient
import ServiceFramework.Lib.EraseLoop
import ServiceFramework.Lib.MultiTable
import ServiceFramework.Net.IOThreadConnManager
import ServiceFramework.Net.ConnIds
import ServiceFramework.Net.IOThreadPoolConnManager
import ServiceFramework.Net.Stats
import ServiceFramework.Net.PoolConnIds
import ServiceFramework.Net.ServiceRegistry
import ServiceFramework.Net.ThreadGroupConf
import ServiceFramework.Net.ThreadStartup
import ServiceFramework.Net.TcpClientGroup
import ServiceFramework.Lib.SharedCount
import ServiceFramework.Net.RabbitHttpRequestHandler
import ServiceFramework.Net.HttpServer
import ServiceFramework.Net.ServiceFactoryManager
import ServiceFramework.Net.HttpRequests
import ServiceFramework.Lib.WhileLoop
import ServiceFramework.Base.UrlCode
import ServiceFramework.Net.HttpHeaders
import ServiceFramework.Lib.Balance
import ServiceFramework.Net.SimpleConnHandler
import ServiceFramework.Net.FiberQueue
import ServiceFramework.Lib.OrderedTable
import ServiceFramework.Lib.EventLoop
import ServiceFramework.Lib.KeyedHandlers
import ServiceFramework.Lib.Register
import ServiceFramework.Base.Json
import ServiceFramework.Base.ConfigManager
import ServiceFramework.Net.ConfigUtil
import ServiceFramework.Net.BroadCast
import ServiceFramework.Net.PoolSends
import ServiceFramework.Net.PoolChannels
import ServiceFramework.Net.Root
import ServiceFramework.Net.SendOrder
import ServiceFramework.Net.RunningServices
import ServiceFramework.Net.SendByName
import ServiceFramework.Net.StopServices
import ServiceFramework.Net.FiberCallChain
import ServiceFramework.Net.ServiceRouterManager
import ServiceFramework.Net.SimpleTcpClient
