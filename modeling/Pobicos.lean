import Pobicos.Lib.Lts
import Pobicos.Lib.Frame
import Pobicos.Lib.Channel
import Pobicos.Serialization
import Pobicos.NetworkMsg
import Pobicos.Decoders
import Pobicos.Directory.RequestHandler
import Pobicos.Directory.RunSpec
import Pobicos.Directory.Reactor
import Pobicos.Directory.Ledger
import Pobicos.Directory.Registration
import Pobicos.Directory.Reconnect
import Pobicos.Directory.Survival
import Pobicos.Directory.LocationFilter
import Pobicos.Directory.UnknownFrames
import Pobicos.Directory.Integrity
import Pobicos.Directory.KeepAlive
import Pobicos.Client.EndToEnd
import Pobicos.Client.EventHandlerThread
import Pobicos.Client.ReadLoop
import Pobicos.Client.UpdateThread
import Pobicos.Client.ConnectionManager
import Pobicos.Client.RunningFlag
import Pobicos.Client.MiddlewareService
import Pobicos.Client.PeriodicTimer
import Pobicos.Client.Descriptors
import Pobicos.Middleware.TaskLoop
import Pobicos.Middleware.TimeLeft
import Pobicos.Middleware.LifeCycle
import Pobicos.Middleware.TimerIds
import Pobicos.Middleware.HWMem
import Pobicos.Middleware.BankBounds
import Pobicos.Middleware.VirtualFilter
import Pobicos.Middleware.FilterBounds
import Pobicos.AppLoader.UartThreads
import Pobicos.AppLoader.UartLoop
import Pobicos.AppLoader.Upload
import Pobicos.AppLoader.Chunks
import Pobicos.AppLoader.AppState
import Pobicos.AppLoader.KillTarget
import Pobicos.AppLoader.ConfigSetting
import Pobicos.System.Join
import Pobicos.Vm.Stack
import Pobicos.Runtime.Instances
import Pobicos.Runtime.Slots
import Pobicos.Runtime.Isolation
import Pobicos.Runtime.Suspension
import Pobicos.Transport.LocalMessages
