import XWrt.Foundation.IntervalList
import XWrt.Ipops.Bits
import XWrt.Ipops.RangeSet
import XWrt.Ipops.NetString
import XWrt.Foundation.AlignedBlock
import XWrt.Ipops.Cidr
import XWrt.Foundation.Framing
import XWrt.Urllogger.Reader
import XWrt.Foundation.Transducer
import XWrt.Mwan3.Track
import XWrt.Mwan3.Marks
import XWrt.Foundation.RuleChain
import XWrt.Mwan3.Policy
import XWrt.Fakemesh.Topology
import XWrt.Foundation.RingQueue
import XWrt.P910nd.Buffer
import XWrt.P910nd.CopyStream
import XWrt.CloudflareTunnel.Core
import XWrt.CloudflareTunnel.Rules
import XWrt.CloudflareTunnel.Conflict
import XWrt.CloudflareTunnel.Ownership
import XWrt.CloudflareTunnel.Retry
import XWrt.CloudflareTunnel.CurlConfig
import XWrt.CloudflareTunnel.Hostname
import XWrt.CloudflareTunnel.Routing
import XWrt.CloudflareTunnel.Lock
import XWrt.Ipops.Membership
import XWrt.Natflow.SimpleQos
import XWrt.Natflow.QosInit
import XWrt.Natflow.UserSelection
import XWrt.Foundation.Numerals
import XWrt.Natflow.CounterText
import XWrt.Natflow.UserEvents
import XWrt.Urllogger.PrintEvent
import XWrt.Urllogger.LogLines
import XWrt.Fakemesh.Placement
import XWrt.Fakemesh.Preference
import XWrt.Fakemesh.Repair
import XWrt.Fakemesh.WirelessParent
import XWrt.Natflow.Rates
import XWrt.Natflow.UserRecord
import XWrt.Mwan3.SockoptWrap
import XWrt.Fakemesh.WiredParent
import XWrt.Fakemesh.Clients
import XWrt.Fakemesh.GetTopology
import XWrt.Fakemesh.Validation
import XWrt.Fakemesh.Acceptance
import XWrt.Fakemesh.NodeTree
import XWrt.Natflow.UserinfoLines
import XWrt.Ipops.NetForms
import XWrt.Mwan3.IfaceChains
import XWrt.Mwan3.IfaceEvents
import XWrt.Foundation.ChainTable
import XWrt.Mwan3.MarkedRules
import XWrt.Mwan3.MaskRuns
import XWrt.Mwan3.IpSets
import XWrt.Foundation.Interleaving
import XWrt.Mwan3.StartStop
import XWrt.Mwan3.Lifecycle
import XWrt.Mwan3.LifecycleRuns
import XWrt.CloudflareTunnel.Published
import XWrt.Mwan3.DelayedHotplug
import XWrt.Mwan3.DelayedHotplugRuns
import XWrt.Fakemesh.WorkerLock
import XWrt.Fakemesh.WorkerLockRuns
import XWrt.Ipops.Inclusion
import XWrt.Ipops.Drained
import XWrt.Ipops.RoundTrip
import XWrt.Natflow.Ipv6Prefix
import XWrt.Natflow.Ipv6Text
import XWrt.Natflow.UserMatches
import XWrt.CloudflareTunnel.Activation
import XWrt.CloudflareTunnel.ErrorTexts
import XWrt.CloudflareTunnel.Redeploy
import XWrt.CloudflareTunnel.CleanUp
import XWrt.Foundation.Double
import XWrt.Foundation.Grouping
import XWrt.Natflow.MacUsers
import XWrt.Natflow.MacUserTotals
import XWrt.Natflow.NetsForm
import XWrt.Natflow.NetsItems
import XWrt.Natflow.NetsWorker
import XWrt.Natflow.NetsExact
import XWrt.Foundation.Padding
import XWrt.Mwan3.PolicyRules
import XWrt.Mwan3.Thousandths
import XWrt.Mwan3.PolicyReport
import XWrt.Mwan3.Sticky
import XWrt.Mwan3.StickyRuns
import XWrt.Foundation.DigestCache
import XWrt.Mwan3.PolicyStates
import XWrt.Mwan3.RulePrefs
import XWrt.Mwan3.SourceRules
import XWrt.Fakemesh.SyncChildren
import XWrt.Mwan3.Ipv6Native
import XWrt.Foundation.SweepRun
import XWrt.Mwan3.RouteMonitor
import XWrt.Foundation.Shell
import XWrt.Natcap.ServerMarks
import XWrt.Natcap.Traffic
import XWrt.Fakemesh.UmdnsReload
import XWrt.Foundation.Keyed
import XWrt.Foundation.Escaping
import XWrt.Foundation.Uci
import XWrt.Mwan3.ReloadFirewall
import XWrt.Foundation.Pieces
import XWrt.P910nd.FirmwareModel
import XWrt.P910nd.FirmwareHelper
import XWrt.Fakemesh.ConfigDump
import XWrt.Fakemesh.AcConfig
import XWrt.Fakemesh.WirelessDigest
import XWrt.Foundation.BoundedSet
import XWrt.Natcap.ConeNatUnused
import XWrt.P910nd.Hotplug
import XWrt.Natflow.HostaclForm
import XWrt.Natflow.HostaclScript
import XWrt.Natflow.HostaclLists
import XWrt.Natflow.HostaclExact
import XWrt.Foundation.ShellArithmetic
import XWrt.FirstBoot.DiskReady
import XWrt.Foundation.UciCommands
import XWrt.Foundation.UciMissing
import XWrt.Xwan.WanZone
import XWrt.Xwan.CleanNetwork
import XWrt.Xwan.Pptpxwan
import XWrt.Xwan.PptpxwanRuns
import XWrt.Xwan.PptpxwanInstalled
import XWrt.Xwan.AddXwan
import XWrt.Xwan.AddXwanSettled
import XWrt.Xwan.AddXwanTwice
import XWrt.HmacSha1.Hmac
import XWrt.Quectel.QmiProxyControl
import XWrt.Quectel.QmiProxyClients
import XWrt.Quectel.QmapFormat
import XWrt.Quectel.QmapAggregation
import XWrt.Mwan3.DnsCache
import XWrt.Foundation.Chronicle
import XWrt.Fakemesh.SyncedWireless
import XWrt.Fakemesh.SyncRuns
import XWrt.Fakemesh.LostController
import XWrt.Fakemesh.SyncSteady
import XWrt.Foundation.BigEndian
import XWrt.Foundation.Leads
import XWrt.Bjnp.Protocol
import XWrt.Bjnp.RunLoop
import XWrt.Bjnp.Connection
import XWrt.Bjnp.Iteration
import XWrt.Bjnp.Printing
import XWrt.Bjnp.Finishing
