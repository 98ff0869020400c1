import ZigbeeRemote.Foundation.StreamConnection
import ZigbeeRemote.Rpc.Framing
import ZigbeeRemote.Zigbee.Api
import ZigbeeRemote.Server.Session
import ZigbeeRemote.Server.Handlers
import ZigbeeRemote.Server.PppUart
import ZigbeeRemote.Client.Stubs
import ZigbeeRemote.System.Transparency
import ZigbeeRemote.Server.ZigbeeRequests
import ZigbeeRemote.Foundation.SharedMachine
import ZigbeeRemote.Server.Announcements
import ZigbeeRemote.Server.AutoRpc
import ZigbeeRemote.Server.SensorReadings
import ZigbeeRemote.Server.SensorMemory
import ZigbeeRemote.Client.ThermostatApp
import ZigbeeRemote.Server.Commissioning
import ZigbeeRemote.Client.ThermostatReports
import ZigbeeRemote.System.BrokenConnection
import ZigbeeRemote.Client.Main
import ZigbeeRemote.Rpc.WireSafe
import ZigbeeRemote.Foundation.Transcript
import ZigbeeRemote.Server.SessionOutlook
import ZigbeeRemote.System.OlderServer
import ZigbeeRemote.System.Application
import ZigbeeRemote.Foundation.Reconnection
import ZigbeeRemote.Foundation.BufferWrites
import ZigbeeRemote.Server.DeviceStrings
import ZigbeeRemote.System.ReadBasic
import ZigbeeRemote.Foundation.TimedQueue
import ZigbeeRemote.Server.SlicedWait
import ZigbeeRemote.Foundation.MarkDiscipline
import ZigbeeRemote.Server.ServerTask
import ZigbeeRemote.Client.NetdevForward
import ZigbeeRemote.Client.NetdevAccept
import ZigbeeRemote.Client.MainSockets
import ZigbeeRemote.Client.Lifecycle
import ZigbeeRemote.Client.LifecycleInvariant
import ZigbeeRemote.Client.LifecycleSafety
import ZigbeeRemote.Sim.Zigbee
import ZigbeeRemote.Sim.Server
import ZigbeeRemote.Sim.Client
import ZigbeeRemote.System.Demo
import ZigbeeRemote.Client.TunOutput
import ZigbeeRemote.Rpc.TransferFailures
import ZigbeeRemote.Rpc.DumpBuffer
import ZigbeeRemote.Foundation.IncludeTrails
import ZigbeeRemote.Client.SourceText
import ZigbeeRemote.Client.Amalgamator
import ZigbeeRemote.Client.AmalgamLines
import ZigbeeRemote.Foundation.ConditionalRegions
import ZigbeeRemote.Client.AmalgamRegions
