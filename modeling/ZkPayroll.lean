import ZkPayroll.Adapters.SubmittedOnce
import ZkPayroll.Amendments.History
import ZkPayroll.Archived.ReportedTotals
import ZkPayroll.Artifacts.FaultyCache
import ZkPayroll.Assets.AssetIdentity
import ZkPayroll.Assets.FormattedAmounts
import ZkPayroll.Assets.PositiveAmounts
import ZkPayroll.Audit.ReceivedPackage
import ZkPayroll.Audit.TamperEvidence
import ZkPayroll.Authorization.PayloadReuse
import ZkPayroll.Authorization.RoleTransfer
import ZkPayroll.Authorization.SharedAddresses
import ZkPayroll.Batch.PartialBatchFailureParser
import ZkPayroll.Batches.Diff
import ZkPayroll.Cache.VisibleKeys
import ZkPayroll.Compliance.HoldStatus
import ZkPayroll.Core.Concurrency
import ZkPayroll.Core.NonceStore
import ZkPayroll.Core.NonceWindows
import ZkPayroll.Core.OperationSafety
import ZkPayroll.Core.Polling
import ZkPayroll.Core.RetryLaw
import ZkPayroll.Crypto.CommitmentBinding
import ZkPayroll.Crypto.PaymentKeys
import ZkPayroll.Crypto.VerifiedArtifacts
import ZkPayroll.Crypto.WorkerRuns
import ZkPayroll.Debug.Redactor
import ZkPayroll.Disputes.DisputeSummary
import ZkPayroll.Draft.CanonicalTexts
import ZkPayroll.Draft.DraftImport
import ZkPayroll.Draft.DraftReview
import ZkPayroll.Eligibility.AsyncEvaluation
import ZkPayroll.Events.EventParser
import ZkPayroll.FeeEstimation.FeeCeiling
import ZkPayroll.Fingerprint.BatchFingerprint
import ZkPayroll.Funding.ReadinessReport
import ZkPayroll.Import.SoundClusters
import ZkPayroll.Indexer.CallerCheckpoints
import ZkPayroll.Indexer.ConcurrentEvents
import ZkPayroll.Lifecycle.EventAggregator
import ZkPayroll.Obligations.PendingObligationsReader
import ZkPayroll.Pagination.FollowedCursors
import ZkPayroll.Payroll.PayrollService
import ZkPayroll.Payroll.PeriodPagination
import ZkPayroll.Payroll.ResumeChain
import ZkPayroll.Payroll.WithholdingConfig
import ZkPayroll.Planner.PayrollExecutionPlanner
import ZkPayroll.Receipts.AsyncVerifier
import ZkPayroll.Receipts.IssuedReceipt
import ZkPayroll.Reconciliation.ReportBuilder
import ZkPayroll.Reconciliation.ReservationReconciliationHelper
import ZkPayroll.Reconciliation.StatusClassifier
import ZkPayroll.Reconciliation.TreasuryReport
import ZkPayroll.Redaction.Noninterference
import ZkPayroll.Redaction.RedactedErrors
import ZkPayroll.Request.KeyOverrides
import ZkPayroll.Serialization.RoundTrip
import ZkPayroll.Sessions.Quorum
import ZkPayroll.Sessions.Rejections
import ZkPayroll.Sessions.ReplaySafety
import ZkPayroll.Treasury.AssetTotals
import ZkPayroll.Treasury.PayerAccountStatus
import ZkPayroll.Validation.ValidatedDrafts
import ZkPayroll.Webhooks.Verify
