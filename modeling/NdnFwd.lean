import NdnFwd.Core.Machine
import NdnFwd.Core.Network
import NdnFwd.Core.Forwarder
import NdnFwd.Core.Word
import NdnFwd.Core.Slots
import NdnFwd.Core.Table
import NdnFwd.Core.Tally
import NdnFwd.Core.Window
import NdnFwd.Core.Ledger
import NdnFwd.Core.Supply
import NdnFwd.Core.View
import NdnFwd.Core.Varint
import NdnFwd.Core.Protobuf
import NdnFwd.Core.Utf8
import NdnFwd.Core.Text
import NdnFwd.Core.Digits
import NdnFwd.Core.Signing
import NdnFwd.Core.Query
import NdnFwd.Core.LongestMatch
import NdnFwd.Core.Cells
import NdnFwd.Core.Attempts
import NdnFwd.Core.Custody
import NdnFwd.Core.Paths
import NdnFwd.Core.Turnover
import NdnFwd.Core.Glob
import NdnFwd.Core.Calendar
import NdnFwd.Core.Ring
import NdnFwd.Core.Base64
import NdnFwd.Core.Lease
import NdnFwd.Core.Counter
import NdnFwd.Core.Quantile
import NdnFwd.Core.Relabel
import NdnFwd.Core.Requests
import NdnFwd.Core.Rounding
import NdnFwd.Core.Draw
import NdnFwd.Core.Listing
import NdnFwd.Core.Latest
import NdnFwd.Core.Passage
import NdnFwd.Core.Crossing
import NdnFwd.Core.Lines
import NdnFwd.Core.Options
import NdnFwd.Models.Packet.Name
import NdnFwd.Models.Packet.Signature
import NdnFwd.Models.Chunks.Peek
import NdnFwd.Models.Chunks.FinalBlock
import NdnFwd.Models.Chunks.Assembly
import NdnFwd.Models.Chunks.Discovery
import NdnFwd.Models.Chunks.Provenance
import NdnFwd.Models.Chunks.Object
import NdnFwd.Models.Chunks.Flights
import NdnFwd.Models.Chunks.Pipeline
import NdnFwd.Models.Chunks.Delivery
import NdnFwd.Models.Chunks.Put
import NdnFwd.Models.Chunks.Versions
import NdnFwd.Models.Chunks.Transfer
import NdnFwd.Models.Chunks.Replies
import NdnFwd.Models.Iperf.Pipe
import NdnFwd.Models.Iperf.Client
import NdnFwd.Models.Iperf.Accounting
import NdnFwd.Models.Iperf.Silence
import NdnFwd.Models.Iperf.Server
import NdnFwd.Models.Iperf.Sessions
import NdnFwd.Models.Iperf.Reverse
import NdnFwd.Models.Iperf.Exchange
import NdnFwd.Models.Iperf.Results
import NdnFwd.Models.Iperf.Attempts
import NdnFwd.Models.Iperf.Windows
import NdnFwd.Models.Iperf.Intervals
import NdnFwd.Models.Traffic.Consumer
import NdnFwd.Models.Traffic.Pairing
import NdnFwd.Models.Traffic.Report
import NdnFwd.Models.Ping.Client
import NdnFwd.Models.Ping.Figures
import NdnFwd.Models.Ping.Summary
import NdnFwd.Models.Ping.Delivery
import NdnFwd.Models.Ping.Exchange
import NdnFwd.Models.Ping.Server
import NdnFwd.Models.Otel.Export
import NdnFwd.Models.Otel.Bridge
import NdnFwd.Models.Otel.Conservation
import NdnFwd.Models.Otel.SpanIds
import NdnFwd.Models.Acme.Cache
import NdnFwd.Models.Acme.Pairs
import NdnFwd.Models.Acme.Issue
import NdnFwd.Models.Acme.Finalize
import NdnFwd.Models.Acme.Order
import NdnFwd.Models.Acme.Renewal
import NdnFwd.Models.Acme.Zone
import NdnFwd.Models.Ble.Control
import NdnFwd.Models.Ble.Listeners
import NdnFwd.Models.Keys.Sec
import NdnFwd.Models.Keys.Anchors
import NdnFwd.Models.Keys.Response
import NdnFwd.Models.Keys.Discovery
import NdnFwd.Models.Keys.Enroll
import NdnFwd.Models.Keys.Keygen
import NdnFwd.Models.Keys.UnixTime
import NdnFwd.Models.Keys.Validity
import NdnFwd.Models.Keys.Witness
import NdnFwd.Models.Keys.JoinPayload
import NdnFwd.Models.Keys.SafeBag
import NdnFwd.Models.Keys.IdbPib
import NdnFwd.Models.Keys.IdbRefinement
import NdnFwd.Models.Keys.Provenance
import NdnFwd.Models.Keys.Portable
import NdnFwd.Models.Keys.Possession
import NdnFwd.Models.Radio.Monitors
import NdnFwd.Models.Radio.Lines
import NdnFwd.Models.Radio.Demand
import NdnFwd.Models.Radio.Watchers
import NdnFwd.Models.Radio.Fec
import NdnFwd.Models.Radio.Soak
import NdnFwd.Models.Radio.Surface
import NdnFwd.Models.Sync.Consumer
import NdnFwd.Models.Sync.Balance
import NdnFwd.Models.Sync.Relay
import NdnFwd.Models.Traceroute.Client
import NdnFwd.Models.Traceroute.Stream
import NdnFwd.Models.Traceroute.Distance
import NdnFwd.Models.Ctl.FaceList
import NdnFwd.Models.Ctl.Signer
import NdnFwd.Models.Listen.Identifiers
import NdnFwd.Models.Listen.Shutdown
import NdnFwd.Models.Listen.Tasks
import NdnFwd.Models.Startup.Config
import NdnFwd.Models.Startup.FaceIds
import NdnFwd.Models.Startup.FaceSetup
import NdnFwd.Models.Startup.AutoMulticast
import NdnFwd.Models.Startup.Routes
import NdnFwd.Models.Startup.Nexthops
import NdnFwd.Models.Startup.ListTables
import NdnFwd.Models.Startup.Survival
import NdnFwd.Models.Startup.Dial
import NdnFwd.Models.Startup.RouteTable
import NdnFwd.Models.Startup.LogRing
import NdnFwd.Models.Startup.ContentStore
import NdnFwd.Models.Startup.Trust
import NdnFwd.Models.Startup.CommandLine
import NdnFwd.Models.Startup.Identity
import NdnFwd.Models.Routing.Installs
import NdnFwd.Models.Routing.Wiring
