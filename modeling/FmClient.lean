import FmClient.System.Exceptions
import FmClient.Backend.Stall
import FmClient.Backend.Atomicity
import FmClient.Run.Session
import FmClient.Run.PilotListener
import FmClient.Run.DeviceListener
import FmClient.Run.Ownership
import FmClient.Run.Deferral
import FmClient.Run.Lookup
import FmClient.Run.Lifetime
import FmClient.Run.FacadeView
import FmClient.Run.Handover
import FmClient.Run.Procedure
import FmClient.Run.Refusal
import FmClient.Run.Heartbeat
import FmClient.Run.Operation
import FmClient.Run.OneProcedure
import FmClient.Run.Closing
import FmClient.Run.Return
import FmClient.Run.Reports
import FmClient.Facade.Outbound
import FmClient.Facade.Inbound
import FmClient.Facade.Completions
import FmClient.Facade.OneReader
import FmClient.Facade.Reconnect
import FmClient.Facade.Cleanup
import FmClient.Facade.Connections
import FmClient.Facade.Protocol
import FmClient.Facade.Reception
import FmClient.Traffic.Segmentation
import FmClient.System.Timer
import FmClient.Traffic.Destination
import FmClient.Traffic.Stream
import FmClient.Traffic.Removal
import FmClient.Traffic.Validated
import FmClient.Simulator.Channels
import FmClient.Simulator.Program
import FmClient.Simulator.Phases
