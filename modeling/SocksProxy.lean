import SocksProxy.Accounting.Acts
import SocksProxy.Accounting.Log
import SocksProxy.Accounting.Moves
import SocksProxy.Accounting.Totals
import SocksProxy.Accounting.Traffic
import SocksProxy.Accounting.Turns
import SocksProxy.Client.Lockstep
import SocksProxy.Client.SmcpClient
import SocksProxy.Client.Wire
import SocksProxy.Guarantees.Connecting
import SocksProxy.Guarantees.Connections
import SocksProxy.Guarantees.Credentials
import SocksProxy.Guarantees.Iterations
import SocksProxy.Guarantees.Lookups
import SocksProxy.Guarantees.Process
import SocksProxy.Guarantees.Reading
import SocksProxy.Guarantees.Relaying
import SocksProxy.Guarantees.Replies
import SocksProxy.Guarantees.Segmentation
import SocksProxy.Guarantees.Sweeps
import SocksProxy.Library.Chain
import SocksProxy.Library.Consumer
import SocksProxy.Library.Deterministic
import SocksProxy.Library.Fairness
import SocksProxy.Library.Framing
import SocksProxy.Library.OrderedMap
import SocksProxy.Library.Prog
import SocksProxy.Library.Recognizer
import SocksProxy.Main.Authority
import SocksProxy.Main.Cleanup
import SocksProxy.Main.Coherence
import SocksProxy.Main.Draining
import SocksProxy.Main.Layout
import SocksProxy.Main.Runs
import SocksProxy.Main.Separation
import SocksProxy.Main.Shutdown
import SocksProxy.Main.Startup
import SocksProxy.Main.Steps
import SocksProxy.Management.Announcements
import SocksProxy.Management.Commands
import SocksProxy.Management.Connections
import SocksProxy.Management.Lines
import SocksProxy.Management.LogTail
import SocksProxy.Management.Parameters
import SocksProxy.Management.Responses
import SocksProxy.Management.Secrecy
import SocksProxy.Management.Sequential
import SocksProxy.Management.Service
import SocksProxy.Safety.Machine
import SocksProxy.Safety.Neighbours
import SocksProxy.Safety.Phases
import SocksProxy.Safety.Primitives
import SocksProxy.Safety.Relay
import SocksProxy.Safety.Requests
import SocksProxy.Safety.Runs
import SocksProxy.Safety.Shared
import SocksProxy.Safety.Surroundings
import SocksProxy.Safety.Table
import SocksProxy.Safety.Teardown
import SocksProxy.Safety.World
import SocksProxy.Server.AccessLog
import SocksProxy.Server.Auth
import SocksProxy.Server.Completion
import SocksProxy.Server.Config
import SocksProxy.Server.Connection
import SocksProxy.Server.EventLoop
import SocksProxy.Server.Grammars
import SocksProxy.Server.Kernel
import SocksProxy.Server.LogLines
import SocksProxy.Server.Main
import SocksProxy.Server.Mgmt
import SocksProxy.Server.MgmtConn
import SocksProxy.Server.MgmtParser
import SocksProxy.Server.Negotiation
import SocksProxy.Server.Request
import SocksProxy.Server.Resolver
import SocksProxy.Server.ResolverSafety
import SocksProxy.Server.ResolverStop
import SocksProxy.Server.Socks5
import SocksProxy.Server.Startup
import SocksProxy.Server.UserStore
import SocksProxy.Server.Users
import SocksProxy.Session.Candidates
import SocksProxy.Session.Course
import SocksProxy.Session.Flow
import SocksProxy.Session.Guarantees
import SocksProxy.Session.History
import SocksProxy.Session.Network
import SocksProxy.Session.Protocol
import SocksProxy.Session.Records
import SocksProxy.Session.Stages
import SocksProxy.Session.Transparency
import SocksProxy.Shared.Buffer
import SocksProxy.Shared.Selector
import SocksProxy.Shared.SelectorMemory
import SocksProxy.Shared.SelectorTable
import SocksProxy.Shared.Text
