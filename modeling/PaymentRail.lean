import PaymentRail.Machine.Except
import PaymentRail.Machine.Run
import PaymentRail.Machine.Rollback
import PaymentRail.Machine.Calls
import PaymentRail.Strings.Numeral
import PaymentRail.Strings.CodeUnits
import PaymentRail.Strings.HexBytes
import PaymentRail.Strings.BigInt
import PaymentRail.Strings.Buffer
import PaymentRail.Strings.Json
import PaymentRail.Collections.Intern
import PaymentRail.Collections.Table
import PaymentRail.Collections.Arrange
import PaymentRail.Collections.Keyset
import PaymentRail.Collections.Sums
import PaymentRail.Trees.PairTree
import PaymentRail.Money.Amount
import PaymentRail.Fees.FeePolicy
import PaymentRail.Contracts.EscrowHub
import PaymentRail.Contracts.EscrowLedger
import PaymentRail.Contracts.EscrowHubSafety
import PaymentRail.Contracts.EscrowTransactions
import PaymentRail.Contracts.PayeeDeadline
import PaymentRail.Contracts.Callbacks
import PaymentRail.Receipts.Merkle
import PaymentRail.Receipts.ReceiptsService
import PaymentRail.Settlement.BatchCalldata
import PaymentRail.Settlement.SettlementService
import PaymentRail.Settlement.Transactions
import PaymentRail.Settlement.Transitions
import PaymentRail.Settlement.AttemptSafety
import PaymentRail.Settlement.ProcessSafety
import PaymentRail.Settlement.PaidOnce
import PaymentRail.Settlement.RetryQueue
import PaymentRail.Settlement.RetriesReached
import PaymentRail.Settlement.Stranded
import PaymentRail.Settlement.Accruals
import PaymentRail.Settlement.BatchFields
import PaymentRail.Settlement.BatchScheduler
import PaymentRail.Settlement.SchedulerSafety
import PaymentRail.Settlement.BatchedOnce
import PaymentRail.Settlement.AuditTrail
import PaymentRail.Settlement.SettlementExport
import PaymentRail.Settlement.ExportedOnce
import PaymentRail.Escrow.EscrowSession
import PaymentRail.Escrow.EscrowService
import PaymentRail.Escrow.Transitions
import PaymentRail.Escrow.ReleaseBounds
import PaymentRail.Escrow.ReleaseRows
import PaymentRail.Escrow.ReleaseTotals
import PaymentRail.Escrow.ReleasePayouts
import PaymentRail.Escrow.SessionStatus
import PaymentRail.Escrow.SpendingLimit
import PaymentRail.Idempotency.IdempotencyInterceptor
import PaymentRail.Idempotency.RunsOnce
import PaymentRail.Refunds.RefundsService
import PaymentRail.Refunds.Transitions
import PaymentRail.Refunds.RefundCompleted
import PaymentRail.Refunds.SweepBlocked
import PaymentRail.Refunds.RefundedOnce
import PaymentRail.Hub.Wallet
import PaymentRail.Hub.AccruedFees
import PaymentRail.Hub.PayerOnHub
import PaymentRail.Hub.RailOnHub
import PaymentRail.Hub.Mirror
import PaymentRail.Hub.Synced
import PaymentRail.Hub.SyncedRuns
import PaymentRail.Hub.RefundPaid
import PaymentRail.Ops.PausedPayouts
import PaymentRail.Ops.PauseService
import PaymentRail.Ops.PauseHolds
import PaymentRail.Machine.Locks
import PaymentRail.Fees.FeeLedger
import PaymentRail.Fees.Withdrawals
import PaymentRail.Webhooks.WebhooksService
import PaymentRail.Webhooks.Transitions
import PaymentRail.Webhooks.DeliveryAttempts
import PaymentRail.Webhooks.DeliveriesKept
import PaymentRail.Money.Rounding
import PaymentRail.Fees.FeeClamp
import PaymentRail.Fees.FeePolicyService
import PaymentRail.Escrow.SpendingStatus
import PaymentRail.Fees.SplitPayments
import PaymentRail.Money.ExactReading
import PaymentRail.Money.ExactPrinting
import PaymentRail.Settlement.FlushedChunks
import PaymentRail.Settlement.ReceiptPacking
import PaymentRail.Settlement.CompactDecoding
import PaymentRail.Streaming.StreamingService
import PaymentRail.Reconciliation.ReconciliationService
import PaymentRail.Webhooks.SecretRotation
import PaymentRail.Webhooks.SubscriptionSaves
import PaymentRail.Webhooks.SecretsKept
import PaymentRail.Strings.Csv
import PaymentRail.Settlement.CsvExport
import PaymentRail.Settlement.ChunkLimits
import PaymentRail.Streaming.StreamingV2
import PaymentRail.Strings.Separated
import PaymentRail.Webhooks.WebhookSignature
import PaymentRail.Idempotency.CanonicalJson
import PaymentRail.Strings.Number
import PaymentRail.Config.NetworkConfig
import PaymentRail.Config.ConfigValidation
import PaymentRail.Machine.Storage
import PaymentRail.Contracts.HubStorage
import PaymentRail.Settlement.AccessList
import PaymentRail.Auth.RefreshTokenService
import PaymentRail.Strings.Replace
import PaymentRail.Strings.Outside
import PaymentRail.Pipes.SanitizePipe
import PaymentRail.Pipes.Settled
import PaymentRail.Pipes.Entities
import PaymentRail.Pipes.RawText
import PaymentRail.Hub.Reconciled
import PaymentRail.Settlement.SettledPaid
import PaymentRail.Settlement.OwnEscrow
import PaymentRail.Hub.SettledTotals
import PaymentRail.Hub.ReceiptsPaid
import PaymentRail.Hub.ProvenPaid
import PaymentRail.Webhooks.SignedPosts
import PaymentRail.Auth.Guards
import PaymentRail.Machine.Backlog
import PaymentRail.Machine.Replicas
import PaymentRail.Collections.DueQueue
import PaymentRail.Idempotency.ReplayedResponses
import PaymentRail.Webhooks.DeliveriesReached
import PaymentRail.Ops.Instances
import PaymentRail.Settlement.CalldataGas
