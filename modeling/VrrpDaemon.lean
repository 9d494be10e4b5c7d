import VrrpDaemon.Machine.Runs
import VrrpDaemon.Machine.PointerList
import VrrpDaemon.Machine.Interleaving
import VrrpDaemon.Machine.Locking
import VrrpDaemon.Machine.Lanes
import VrrpDaemon.Model.System
import VrrpDaemon.Model.Host
import VrrpDaemon.Behaviour.Commands
import VrrpDaemon.Behaviour.Creation
import VrrpDaemon.Behaviour.Lan
import VrrpDaemon.Behaviour.Queue
import VrrpDaemon.Behaviour.Returns
import VrrpDaemon.Behaviour.Programs
import VrrpDaemon.Properties.Administrator
import VrrpDaemon.Properties.AdvertisementRoundTrip
import VrrpDaemon.Properties.Agreement
import VrrpDaemon.Properties.AlarmService
import VrrpDaemon.Properties.Arming
import VrrpDaemon.Properties.Attributes
import VrrpDaemon.Properties.Checksum
import VrrpDaemon.Properties.CommandLine
import VrrpDaemon.Properties.CommandRoundTrip
import VrrpDaemon.Properties.Convergence
import VrrpDaemon.Properties.Creation
import VrrpDaemon.Properties.DatagramBounds
import VrrpDaemon.Properties.Demotion
import VrrpDaemon.Properties.Departures
import VrrpDaemon.Properties.Destruction
import VrrpDaemon.Properties.Display
import VrrpDaemon.Properties.ElapsedTime
import VrrpDaemon.Properties.Enumeration
import VrrpDaemon.Properties.Independence
import VrrpDaemon.Properties.InterruptedStart
import VrrpDaemon.Properties.Isolation
import VrrpDaemon.Properties.KeyUniqueness
import VrrpDaemon.Properties.LockDiscipline
import VrrpDaemon.Properties.MalformedFrames
import VrrpDaemon.Properties.Modification
import VrrpDaemon.Properties.ModifyLine
import VrrpDaemon.Properties.NetTable
import VrrpDaemon.Properties.ParseVrip
import VrrpDaemon.Properties.Payload
import VrrpDaemon.Properties.PollLoop
import VrrpDaemon.Properties.PollTable
import VrrpDaemon.Properties.Primacy
import VrrpDaemon.Properties.PrintedCommands
import VrrpDaemon.Properties.QueueInsertion
import VrrpDaemon.Properties.QueueRemoval
import VrrpDaemon.Properties.Refinement
import VrrpDaemon.Properties.Routing
import VrrpDaemon.Properties.RuntimeList
import VrrpDaemon.Properties.SearchAgreement
import VrrpDaemon.Properties.ShowAll
import VrrpDaemon.Properties.ShowReply
import VrrpDaemon.Properties.Sockets
import VrrpDaemon.Properties.StartupWindow
import VrrpDaemon.Properties.StatusReply
import VrrpDaemon.Properties.StepDown
import VrrpDaemon.Properties.TimeoutArithmetic
import VrrpDaemon.Properties.TimerQueue
import VrrpDaemon.Properties.TruthfulReply
import VrrpDaemon.Properties.TruthfulStatus
import VrrpDaemon.Properties.WireLan
