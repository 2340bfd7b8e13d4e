import EgressAgent.Lib.System
import EgressAgent.Lib.Simulation
import EgressAgent.Lib.Timed
import EgressAgent.Lib.PyVal
import EgressAgent.Lib.Retry
import EgressAgent.Lib.Backoff
import EgressAgent.Lib.Effect
import EgressAgent.Lib.BoundedDeque
import EgressAgent.Lib.Ledger
import EgressAgent.Lib.StrictJson
import EgressAgent.Lib.JsonText
import EgressAgent.BackendClient
import EgressAgent.Agent
import EgressAgent.Intake
import EgressAgent.Poller
import EgressAgent.Dispatch
import EgressAgent.EventStream
import EgressAgent.Shutdown
import EgressAgent.Publishing
import EgressAgent.ShutdownOrder
import EgressAgent.LogBuffer
import EgressAgent.QueueProcessor
import EgressAgent.Offload
import EgressAgent.LogBufferLaw
import EgressAgent.Pipeline
import EgressAgent.Conservation
import EgressAgent.Backpressure
import EgressAgent.ShutdownFlush
import EgressAgent.ReceiverLoop
import EgressAgent.LogExtras
import EgressAgent.TimerService
import EgressAgent.PollerRestarts
import EgressAgent.HeartbeatChecker
import EgressAgent.TokenFile
import EgressAgent.MetricsTimer
import EgressAgent.TimerPeriods
import EgressAgent.PollerContact
import EgressAgent.ReplacedCheckers
import EgressAgent.LogLine
import EgressAgent.Reporting
import EgressAgent.Provenance
import EgressAgent.HandlerConcurrency
import EgressAgent.Reconnects
import EgressAgent.QueueDelays
import EgressAgent.PipelineQueues
import EgressAgent.Requests
import EgressAgent.StreamLoops
