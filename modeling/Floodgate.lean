import Floodgate.Verified.AtomicObject
import Floodgate.Verified.Binary64
import Floodgate.Verified.Code
import Floodgate.Verified.Enclosed
import Floodgate.Verified.FailOpen
import Floodgate.Verified.Interference
import Floodgate.Verified.Ledger
import Floodgate.Verified.Monitor
import Floodgate.Verified.OrderedDict
import Floodgate.Verified.Passes
import Floodgate.Verified.QuotedFields
import Floodgate.Verified.Report
import Floodgate.Verified.Segments
import Floodgate.Verified.StreamCipher
import Floodgate.Verified.TopicFilter
import Floodgate.Verified.Transition
import Floodgate.Verified.Workers
import Floodgate.Ports.PyStr
import Floodgate.Ports.PyValue
import Floodgate.Ports.Json
import Floodgate.Ports.TextEncoding
import Floodgate.Ports.JsonText
import Floodgate.Ports.JsonValue
import Floodgate.Ports.JsonCodec
import Floodgate.Ports.JsonRoundTrip
import Floodgate.Ports.Config
import Floodgate.Ports.ConfigSchema
import Floodgate.Ports.ConfigReport
import Floodgate.Ports.Policy
import Floodgate.Ports.Acceptance
import Floodgate.Ports.Startup
import Floodgate.Ports.Topic
import Floodgate.Ports.TopicGrammar
import Floodgate.Ports.Meshtastic
import Floodgate.Ports.Portnum
import Floodgate.Ports.PortnumRecovery
import Floodgate.Ports.Zerohop
import Floodgate.Ports.Stats
import Floodgate.Ports.LogSetup
import Floodgate.Ports.LogHandler
import Floodgate.Ports.ProcessMessage
import Floodgate.Ports.PacketView
import Floodgate.Ports.ExHook
import Floodgate.Ports.Enforcement
import Floodgate.Ports.DropFilter
import Floodgate.Ports.Provenance
import Floodgate.Ports.Delivery
import Floodgate.Ports.Accounting
import Floodgate.Ports.Gate
import Floodgate.Ports.Idempotence
import Floodgate.Ports.ZerohopJson
import Floodgate.Ports.Conservation
import Floodgate.Ports.StatsLock
import Floodgate.Ports.LazyImport
import Floodgate.Ports.Chain
import Floodgate.Ports.Broker
import Floodgate.Ports.LogText
import Floodgate.Ports.Health
import Floodgate.Ports.Service
import Floodgate.Ports.StartupReport
import Floodgate.Ports.PlainRecords
import Floodgate.Ports.Comparison
