import Rocpmd.Foundation.Machine
import Rocpmd.Foundation.Monitor
import Rocpmd.Foundation.Reading
import Rocpmd.Foundation.LockFile
import Rocpmd.Foundation.LockProtocol
import Rocpmd.Foundation.Descriptors
import Rocpmd.Foundation.Framing
import Rocpmd.Foundation.BracketedList
import Rocpmd.Foundation.UpDownCounter
import Rocpmd.Foundation.Spelling
import Rocpmd.Config.Load
import Rocpmd.Config.Listing
import Rocpmd.Config.Accepted
import Rocpmd.Config.Pins
import Rocpmd.Config.Overriding
import Rocpmd.Config.Directions
import Rocpmd.Config.VerbosePowermap
import Rocpmd.Gpio.DrivenLevels
import Rocpmd.Gpio.InitOutcome
import Rocpmd.Board.Measurement
import Rocpmd.Board.FailedMeasurement
import Rocpmd.Board.Detection
import Rocpmd.Logger.Recovery
import Rocpmd.Logger.Rotation
import Rocpmd.Daemon.CommandFraming
import Rocpmd.Daemon.ServedLevels
import Rocpmd.Client.Command
import Rocpmd.Client.ChargingReports
import Rocpmd.Client.QueryPaths
import Rocpmd.Client.SingleQuery
import Rocpmd.Client.QueryRun
import Rocpmd.Daemon.Halt
import Rocpmd.Daemon.EmptyBattery
import Rocpmd.Daemon.Period
import Rocpmd.Daemon.OffRequests
import Rocpmd.Daemon.Clients
import Rocpmd.Daemon.OpenDescriptors
import Rocpmd.Instance.Singleton
import Rocpmd.Instance.Ownership
import Rocpmd.Instance.Initialisation
import Rocpmd.Instance.Probe
import Rocpmd.Instance.Query
import Rocpmd.Instance.Teardown
import Rocpmd.Instance.StandardDescriptors
import Rocpmd.Instance.Requests
import Rocpmd.Board.PoweredDaemon
import Rocpmd.Daemon.LogHistory
import Rocpmd.Daemon.Boots
import Rocpmd.Daemon.Service
import Rocpmd.Client.CurrentAnswers
import Rocpmd.Instance.ServedDaemon
import Rocpmd.Config.RoundTrip
import Rocpmd.Daemon.Session
import Rocpmd.Daemon.Progress
import Rocpmd.Daemon.Exhaustion
import Rocpmd.Daemon.Sleep
import Rocpmd.Instance.Termination
import Rocpmd.Board.BoardPins
import Rocpmd.Board.CommandMode
