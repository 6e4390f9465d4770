import DMS.Actor.Limiter
import DMS.Actor.Security
import DMS.Jobs.BillingEvents
import DMS.Jobs.Identifiers
import DMS.Network.LastIP
import DMS.Network.PortMapping
import DMS.Network.ProxiedConns
import DMS.Network.RoutingTable
import DMS.Node.BidRequest
import DMS.Node.Confirmation
import DMS.Node.Custody
import DMS.Node.DeploymentList
import DMS.Node.LocalTransactions
import DMS.Node.RecordMirror
import DMS.Orchestrator.DnsRecords
import DMS.Orchestrator.EdgeCache
import DMS.Orchestrator.LogJobs
import DMS.Orchestrator.LogTransfer
import DMS.Orchestrator.ManifestRuns
import DMS.Orchestrator.MapPorts
import DMS.Orchestrator.ReplyCrash
import DMS.Orchestrator.Restore
import DMS.Orchestrator.ShutdownRace
import DMS.Orchestrator.StatusWatch
import DMS.Orchestrator.SubnetRoom
import DMS.Orchestrator.Supervisor
import DMS.Orchestrator.Undo
import DMS.Orchestrator.UpdateApplied
import DMS.Parser.Placeholders
import DMS.Resources.Concurrent
import DMS.Resources.HostShare
import DMS.Resources.Onboarding
import DMS.Storage.Volume
import DMS.Tokenomics.BilledOnce
import DMS.Tokenomics.BillingInterval
import DMS.Tokenomics.BillingTrigger
import DMS.Tokenomics.RentCycles
import DMS.Tokenomics.RunningTime
import DMS.Tokenomics.Signing
import DMS.Tokenomics.StartCounts
import DMS.Types.Comparison
import DMS.Ucan.Issuers
import DMS.Ucan.RoundTrip
import DMS.Ucan.SideDepth
import DMS.Parser.PathPatterns
