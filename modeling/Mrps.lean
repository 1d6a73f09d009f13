import Mrps.EventSystem
import Mrps.Region
import Mrps.MachineInt
import Mrps.Runtime
import Mrps.EchoPipe
import Mrps.Honest.Client
import Mrps.Honest.Window
import Mrps.Honest.Callbacks
import Mrps.Honest.Stream
import Mrps.Honest.Peer
import Mrps.Honest.EndOfStream
import Mrps.Honest.Lifecycle
import Mrps.Java.IOScheduler
import Mrps.Java.Worker
import Mrps.Java.Survival
import Mrps.Tester.Activity
import Mrps.Tester.Queue
import Mrps.Blocks
import Mrps.Tester.Message
import Mrps.Tester.Phase
import Mrps.Tester.Callbacks
import Mrps.ComposedWrites
import Mrps.Tester.Requests
import Mrps.Tester.Replies
import Mrps.SharedCounters
import Mrps.Tester.Accounts
import Mrps.Tester.Accounting
import Mrps.EndToEnd
import Mrps.EdgeTriggered
import Mrps.Epoll.EchoTcp
import Mrps.Java.Echo
import Mrps.Perl.Work
import Mrps.Erlang.Connector
import Mrps.Erlang.Statistics
import Mrps.Erlang.Exchange
import Mrps.Erlang.Handoff
import Mrps.Asio.Server
import Mrps.Plain.Callbacks
import Mrps.Plain.Echo
import Mrps.Plain.Process
import Mrps.Honest.Descriptors
import Mrps.CServers
import Mrps.Honest.Idle
import Mrps.Honest.Armed
import Mrps.Tester.Validation
import Mrps.Java.Stopping
import Mrps.Java.Server
import Mrps.Script
import Mrps.Unhindered
import Mrps.Load.Callbacks
import Mrps.Load.Process
import Mrps.Load.Phases
import Mrps.Load.Requests
import Mrps.Load.Latency
import Mrps.Tester.Timeouts
import Mrps.Honest.Bounds
import Mrps.Honest.Compaction
import Mrps.Honest.Lingering
import Mrps.Epoll.EchoStream
import Mrps.LiveArray
import Mrps.Perl.Pass
import Mrps.Plain.Idle
import Mrps.Load.Failures
import Mrps.Load.Resources
import Mrps.Solvency
import Mrps.Tester.Averages
import Mrps.Tester.Readings
import Mrps.AcceptPool
import Mrps.AcceptQueue
import Mrps.EchoServers
import Mrps.Threads
import Mrps.BitPacking
import Mrps.Dialogue
import Mrps.Erlang.Reports
import Mrps.Perl.Loader
import Mrps.Python.Sender
import Mrps.Load.Reports
import Mrps.Trial
import Mrps.RoundTrips
