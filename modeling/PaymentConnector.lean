import PaymentConnector.Library.OrderedDict
import PaymentConnector.Library.Machine
import PaymentConnector.CredentialManager
import PaymentConnector.Endpoint
import PaymentConnector.Process
import PaymentConnector.AtMostOnce
import PaymentConnector.Provenance
import PaymentConnector.Expiry
import PaymentConnector.FailClosed
import PaymentConnector.Loads
import PaymentConnector.Managed
import PaymentConnector.DualWindow
import PaymentConnector.VaultGatewayMock
import PaymentConnector.Cluster
import PaymentConnector.Retries
import PaymentConnector.Rotation
import PaymentConnector.ZeroDowntime
import PaymentConnector.Isolation
import PaymentConnector.Breaker
import PaymentConnector.Calls
import PaymentConnector.BreakerDiscipline
import PaymentConnector.CredentialStore
import PaymentConnector.Gate
import PaymentConnector.Library.Lru
import PaymentConnector.Sequential
import PaymentConnector.RateLimit
import PaymentConnector.VaultClient
import PaymentConnector.VaultRecovery
import PaymentConnector.Service
import PaymentConnector.Noninterference
import PaymentConnector.OwnSteps
import PaymentConnector.LockOut
import PaymentConnector.OwnBucket
import PaymentConnector.AuditTrail
import PaymentConnector.AuthAudit
import PaymentConnector.AccessAudit
import PaymentConnector.LoadAudit
import PaymentConnector.Replicas
import PaymentConnector.DualCredential
import PaymentConnector.FailedLoad
import PaymentConnector.HealthMetrics
import PaymentConnector.RotationAudit
import PaymentConnector.KvPath
import PaymentConnector.VaultRetry
import PaymentConnector.BreakerAlert
import PaymentConnector.BucketBounds
import PaymentConnector.RefreshBackoff
import PaymentConnector.LogSecrets
import PaymentConnector.KeyHandover
import PaymentConnector.RotationDetection
import PaymentConnector.InFlight
import PaymentConnector.RefreshTask
import PaymentConnector.Lifespan
import PaymentConnector.Responses
import PaymentConnector.Readiness
import PaymentConnector.StartUp
import PaymentConnector.Bounded
import PaymentConnector.MetricsExport
import PaymentConnector.CallsRefinement
import PaymentConnector.BreakerHistory
import PaymentConnector.Progress
import PaymentConnector.Recovery
import PaymentConnector.Reconciliation
import PaymentConnector.FetchErrorAlert
import PaymentConnector.VaultOutage
import PaymentConnector.Library.JsonText
import PaymentConnector.SecretReadback
import PaymentConnector.Rotations
