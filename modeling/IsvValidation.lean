import IsvValidation.Library.Ledger
import IsvValidation.Library.Loop
import IsvValidation.Library.OrderedMap
import IsvValidation.Library.Sequence
import IsvValidation.Config.Value
import IsvValidation.Config.Schema
import IsvValidation.Host.Text
import IsvValidation.Host.Runtime
import IsvValidation.Resolution.Entries
import IsvValidation.Resolution.Resolve
import IsvValidation.Junit.Document
import IsvValidation.Junit.Stub
import IsvValidation.Junit.Merge
import IsvValidation.Junit.Fidelity
import IsvValidation.Junit.Totals
import IsvValidation.Pytest.Bridge
import IsvValidation.Pytest.Collection
import IsvValidation.Orchestrator.Context
import IsvValidation.Orchestrator.StepExecutor
import IsvValidation.Orchestrator.Plan
import IsvValidation.Orchestrator.Loop
import IsvValidation.Orchestrator.PhaseRun
import IsvValidation.Orchestrator.WholeRun
import IsvValidation.Orchestrator.Outcome
import IsvValidation.Orchestrator.Verdict
import IsvValidation.Orchestrator.Quiet
import IsvValidation.Orchestrator.Gating
import IsvValidation.Orchestrator.Once
import IsvValidation.Orchestrator.NoSilentGreen
import IsvValidation.Orchestrator.Filing
import IsvValidation.Orchestrator.Merged
import IsvValidation.Orchestrator.Report
import IsvValidation.Pytest.Composite
import IsvValidation.Library.Labels
import IsvValidation.Pytest.Names
import IsvValidation.Config.Merger
import IsvValidation.Config.Imports
import IsvValidation.Resolution.Wiring
import IsvValidation.Config.EnvCatalog
import IsvValidation.Config.User
import IsvValidation.Orchestrator.FullRun
import IsvValidation.Library.Arrange
import IsvValidation.Orchestrator.ReportOrder
import IsvValidation.Orchestrator.DryRun
import IsvValidation.Orchestrator.Predicted
import IsvValidation.Library.Hierarchy
import IsvValidation.Storage.Capabilities
import IsvValidation.Storage.Composition
import IsvValidation.Library.Program
import IsvValidation.Library.VersionedStore
import IsvValidation.Breakfix.Node
import IsvValidation.Breakfix.CordonNode
import IsvValidation.Breakfix.CordonTrail
import IsvValidation.Breakfix.Ownership
import IsvValidation.Breakfix.CleanReport
import IsvValidation.Storage.Mock
import IsvValidation.Storage.QuotaStore
import IsvValidation.Registry.Checkout
import IsvValidation.Registry.Fetch
import IsvValidation.Library.Execution
import IsvValidation.Aws.Errors
import IsvValidation.Aws.TopologyBlock
import IsvValidation.Aws.BlockCleanup
import IsvValidation.Deploy.RemoteScript
import IsvValidation.Deploy.Run
import IsvValidation.Library.Polling
import IsvValidation.Imex.ComputeDomain
import IsvValidation.Imex.DaemonRecovery
import IsvValidation.Imex.DomainDeparture
import IsvValidation.Imex.DepartureEvidence
import IsvValidation.Security.Teardown
import IsvValidation.Security.Ownership
import IsvValidation.Security.AccountState
import IsvValidation.Security.NothingLeft
import IsvValidation.Security.SuccessfulRun
import IsvValidation.Security.SweepCalls
import IsvValidation.Library.Pattern
import IsvValidation.Host.Quoting
import IsvValidation.Redaction.SensitiveArgs
import IsvValidation.Host.Matching
import IsvValidation.Slurm.Nodelist
import IsvValidation.Library.ObjectGraph
import IsvValidation.Config.SetValue
import IsvValidation.Orchestrator.CapabilityGates
import IsvValidation.Orchestrator.CommandLine
import IsvValidation.K8s.VersionSupport
import IsvValidation.K8s.SupportedMinors
import IsvValidation.Library.Splice
import IsvValidation.Junit.Subtests
import IsvValidation.Junit.SubtestOrder
import IsvValidation.Junit.SubtestInjection
import IsvValidation.Library.Substitution
import IsvValidation.Redaction.FreeText
import IsvValidation.Redaction.TextWays
import IsvValidation.Redaction.DumpedText
import IsvValidation.Redaction.HiddenPairs
import IsvValidation.Redaction.TextSecrets
import IsvValidation.Orchestrator.StepArguments
import IsvValidation.Orchestrator.MissingReferences
import IsvValidation.Library.Shell
import IsvValidation.Library.ShellText
import IsvValidation.Library.ShellValues
import IsvValidation.Host.ShellQuoting
import IsvValidation.Deploy.SentScript
import IsvValidation.Deploy.ScriptWords
import IsvValidation.Deploy.Verbatim
import IsvValidation.Capacity.TopologyBlockCheck
import IsvValidation.Capacity.AtomicAllocation
import IsvValidation.Storage.DirectoryLookup
import IsvValidation.Library.Paging
import IsvValidation.Config.Response
import IsvValidation.Nico.Listing
import IsvValidation.Storage.PagedQuotas
import IsvValidation.Storage.WekaDirectory
import IsvValidation.Storage.VastVolumes
import IsvValidation.Storage.EnforcementVerdict
import IsvValidation.Storage.QuotaCleanup
import IsvValidation.Storage.AsFound
import IsvValidation.Library.Segments
import IsvValidation.Library.TlsRecords
import IsvValidation.Security.InsecureProtocols
import IsvValidation.Security.DisabledProtocols
import IsvValidation.Library.JsonText
import IsvValidation.Catalog.Digest
import IsvValidation.Storage.CapabilityManifest
import IsvValidation.Validation.Report
import IsvValidation.Nico.Ingestion
import IsvValidation.Library.Greedy
import IsvValidation.K8s.ControlPlanePods
import IsvValidation.Storage.VolumeResolution
import IsvValidation.K8s.NetworkPolicy
import IsvValidation.K8s.PolicyEvidence
import IsvValidation.K8s.CsiCredentials
import IsvValidation.K8s.TenantScoping
import IsvValidation.Aws.VerifiedReuse
import IsvValidation.Aws.OwnedResources
import IsvValidation.Library.Interference
import IsvValidation.Nico.OnlineRepair
import IsvValidation.Nico.RepairRuns
import IsvValidation.Library.Occurrence
import IsvValidation.Library.SharedObject
import IsvValidation.K8s.ForwardingProbe
import IsvValidation.K8s.CorefileEdits
import IsvValidation.K8s.RuleRestored
import IsvValidation.Library.Script
import IsvValidation.Nico.ReturnNode
import IsvValidation.Nico.Release
import IsvValidation.K8s.SnapshotRestore
import IsvValidation.K8s.SnapshotEvidence
import IsvValidation.K8s.SnapshotCleanup
import IsvValidation.Reporting.Provenance
import IsvValidation.Reporting.Artifact
import IsvValidation.Reporting.Client
import IsvValidation.Reporting.Lifecycle
import IsvValidation.Reporting.SplitRun
import IsvValidation.Reporting.Publication
import IsvValidation.Library.Gather
import IsvValidation.Catalog.Build
import IsvValidation.Catalog.Contents
import IsvValidation.Registry.Commands
import IsvValidation.Reporting.TestCommand
import IsvValidation.Config.Suites
import IsvValidation.Config.LabelDiscovery
import IsvValidation.Reporting.EntryPaths
