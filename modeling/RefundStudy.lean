import RefundStudy.Attempt.Report
import RefundStudy.Cleanup.LeakAudit
import RefundStudy.Cleanup.DlqDeletion
import RefundStudy.Package.AmendmentReadBack
import RefundStudy.Collection.ExportDensity
import RefundStudy.Settlement.FailedReads
import RefundStudy.Settlement.SettledCapture
import RefundStudy.Lease.LateLanding
import RefundStudy.Settlement.Characterization
import RefundStudy.Settlement.Agreement
import RefundStudy.Caller.EffectKnowledge
import RefundStudy.Lease.Confirmation
import RefundStudy.Store.ConditionTruth
import RefundStudy.Store.Paging
import RefundStudy.Attempt.TransportRace
import RefundStudy.Treatment.WaitBounds
import RefundStudy.Oracle.PreservationVerdict
import RefundStudy.Collection.LedgerCapture
import RefundStudy.Ingestion.DensityReport
import RefundStudy.Package.AmendmentGraph
import RefundStudy.Cleanup.OperationalRecovery
import RefundStudy.Cleanup.RecordedActions
import RefundStudy.Package.JournalReferences
import RefundStudy.Package.BundleLoads
import RefundStudy.Billing.CostText
import RefundStudy.Comparison.EqualityVerdict
import RefundStudy.Billing.CsvRendering
import RefundStudy.LateEvidence.AugmentedEvidence
import RefundStudy.Collection.LateStream
import RefundStudy.Record.EvidenceRefs
import RefundStudy.Safety.CostEstimate
import RefundStudy.Lease.HeartbeatLoop
import RefundStudy.Record.JsonRoundTrip
import RefundStudy.Store.ExpressionLimits
import RefundStudy.Package.ArtifactPaths
import RefundStudy.Record.DuplicateItems
import RefundStudy.Record.BoundedText
import RefundStudy.Scope.CfnNormalization
import RefundStudy.Caller.RequestHistory
