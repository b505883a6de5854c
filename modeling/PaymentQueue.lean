import PaymentQueue.NoDoubleCharge
import PaymentQueue.UnknownOutcome
import PaymentQueue.CachedSuccess
import PaymentQueue.FailedSaga
import PaymentQueue.Acknowledge
import PaymentQueue.RetryBudget
import PaymentQueue.Trials
import PaymentQueue.Ownership
import PaymentQueue.OneVerdict
import PaymentQueue.RateLimit
import PaymentQueue.FreshEvidence
import PaymentQueue.LockTable
import PaymentQueue.SagaTrace
import PaymentQueue.Durable
import PaymentQueue.LockCover
import PaymentQueue.Eviction
import PaymentQueue.TripCondition
import PaymentQueue.Decision
import PaymentQueue.LockExit
import PaymentQueue.MoneyUnwind
import PaymentQueue.QueueDedup
import PaymentQueue.Shutdown
import PaymentQueue.LazyRefill
import PaymentQueue.SuccessMetrics
import PaymentQueue.RecentLatency
import PaymentQueue.LatencyIsolation
import PaymentQueue.AdaptRange
import PaymentQueue.WaitTime
import PaymentQueue.Severity
import PaymentQueue.OpenDuration
import PaymentQueue.FreshStart
import PaymentQueue.BreakerEvidence
import PaymentQueue.QueueRegistry
import PaymentQueue.DeadLetterIds
import PaymentQueue.TransactionId
import PaymentQueue.Books
import PaymentQueue.Recategorised
import PaymentQueue.GatewayIsolation
import PaymentQueue.Tracing
import PaymentQueue.Resubmission
import PaymentQueue.FleetRate
import PaymentQueue.Alerts
import PaymentQueue.Dashboard
