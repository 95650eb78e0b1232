import PaymentConnector.Python

/-!
# Audit events, log lines and settings

What the service writes besides its answers: structured audit events, built
by the helpers of `audit.py`, and the log lines of the modules modelled here.
Both are values that the modelled functions return next to their results.
-/

namespace PaymentConnector

/-- The part of `Settings` that the modelled functions read. -/
structure Settings where
  vaultAddr : String := "http://vault.orbitpay.svc.cluster.local:8200"
  vaultRole : String := "payment-gateway-connector"
  vaultAuthMethod : String := "kubernetes"
  vaultToken : String := ""
  vaultSecretPath : String := "secret/data/orbitpay/vaultgateway"
  vaultgatewayUrl : String := "http://vaultgateway-mock.orbitpay.svc.cluster.local:8080"
  credentialCheckInterval : Int := 30
  apiKeys : List String := []

/-- One structured audit entry. -/
structure AuditEvent where
  event : String
  actor : String
  resource : String
  action : String
  outcome : String
  metadata : List (String × Json)

/-- A version number as audit metadata. -/
def versionJson : Option Int → Json
  | none => .null
  | some v => .int v

/-- `audit_credential_access` with its default actor. -/
def auditCredentialAccess (secretPath : String) (version : Option Int) (outcome : String) :
    AuditEvent where
  event := "credential_access"
  actor := "credential_manager"
  resource := secretPath
  action := "read"
  outcome := outcome
  metadata := [("secret_version", versionJson version)]

/-- `audit_rotation_event`. -/
def auditRotationEvent (secretPath : String) (oldVersion newVersion : Option Int)
    (outcome : String) : AuditEvent where
  event := "credential_rotation"
  actor := "credential_manager"
  resource := secretPath
  action := "rotate"
  outcome := outcome
  metadata := [("old_version", versionJson oldVersion), ("new_version", versionJson newVersion)]

/-- `audit_auth_failure` with its default actor. -/
def auditAuthFailure (resource reason : String) (requestId : Option String) : AuditEvent where
  event := "auth_failure"
  actor := "unknown"
  resource := resource
  action := "authenticate"
  outcome := "failure"
  metadata := [("reason", .str reason),
    ("request_id", match requestId with | none => .null | some rid => .str rid)]

/-- `audit_health_check`. -/
def auditHealthCheck (outcome : String) (details : List (String × Json)) : AuditEvent where
  event := "health_check"
  actor := "system"
  resource := "service"
  action := "health_check"
  outcome := outcome
  metadata := details

/-- The log calls of the modelled modules, with their arguments. -/
inductive LogLine
  | credentialLoadFailed (error : String)
  | credentialMissingFields (version : Option Int)
  | credentialUnchanged (version : Option Int)
  | credentialCacheEvicted (evictedVersion : Int)
  | credentialRotated (oldVersion newVersion : Option Int)
  | credentialLoaded (version : Option Int)
  | credentialRefreshBackoff (consecutiveErrors : Nat) (backoffSeconds : Int)
  | circuitBreakerOpened (failureCount : Nat)
  | gatewayFallbackCredentialAttempt
  | gatewayAuthRejected (statusCode : Nat) (credentialVersion : Option Int)
  | gatewayTimeout (error : String)
  | gatewayHttpError (error : String)
  | idempotencyCacheHit (idempotencyKey : String)
  | gatewayUnavailable (error : String)
  | gatewayAuthError (error : String)
  | rateLimitExceeded (clientIp : String)
  | kubernetesSaTokenNotFound (path : String)
  | vaultKubernetesAuthFailed (error : String)
  | secretReadSuccess (path : String) (version : Json) (attempt : Nat)
  | vaultReadRetry (path : String) (attempt maxRetries : Nat) (error : String)

/-- Something written out: an audit event or a log line. -/
inductive Output
  | audit (event : AuditEvent)
  | log (line : LogLine)

end PaymentConnector
