import PaymentConnector.Process
import PaymentConnector.RateLimit
import PaymentConnector.VaultClient

/-!
# The whole service

The process of `Process` with everything around it: the Vault client that its
loads read with, the refresh loop, the three middlewares and the routes for
health and metrics.

A request passes `RequestIDMiddleware`, `AuditLoggingMiddleware` and
`RateLimitMiddleware`, from the outside in, then its route; its answer goes back
the same way.  Other tasks may run between any two of these, so each is a step of
its own.  An exception that a route does not turn into an answer passes all three
middlewares and becomes a bare 500 outside of them.

Routing and body validation are the framework's: a request comes with the route
it resolves to, or with the framework's own answer, which is an exception if it
cannot be rendered.  The path that the audit middleware reads is the one of
`request.url`, which the framework builds with the `Host` header; it comes with the
request too.  Vault's metadata has the types that `SecretData` declares.

## Main results

* `Service.step_process`, `Service.run_process` — a run of the service is, as far as
  its loads and payments go, a run of the process.
-/

namespace PaymentConnector

open Library

/-! ## Requests and answers -/

/-- What the router makes of a request: one of the service's routes, or an answer of
the framework's own (no such path or method, a body that fails validation). -/
inductive Route
  | authorize (payment : PaymentRequest)
  | liveness
  | readiness
  | metrics
  | framework (statusCode : Nat) (detail : Json)

/-- The method and the path under which a route is registered. -/
def Route.Registered : Route → String → String → Prop
  | .authorize _, method, path => method = "POST" ∧ path = "/api/v1/authorize"
  | .liveness, method, path => method = "GET" ∧ path = "/health/live"
  | .readiness, method, path => method = "GET" ∧ path = "/health/ready"
  | .metrics, method, path => method = "GET" ∧ path = "/metrics"
  | .framework _ _, _, _ => True

/-- A request as the outermost middleware receives it. -/
structure HttpRequest where
  method : String
  path : String
  urlPath : String
  client : Option String
  xRequestId : Option String
  xApiKey : Option String
  route : Route
  registered : route.Registered method path

/-- `HealthStatus`. -/
structure HealthStatus where
  status : String
  vaultConnected : Bool
  credentialStatus : String
  gatewayReachable : Bool
  uptimeSeconds : Rat

/-- `model_dump`. -/
def HealthStatus.modelDump (h : HealthStatus) : List (String × Json) :=
  [("status", .str h.status), ("vault_connected", .bool h.vaultConnected),
    ("credential_status", .str h.credentialStatus),
    ("gateway_reachable", .bool h.gatewayReachable),
    ("uptime_seconds", .float (.finite h.uptimeSeconds))]

/-- The metrics of a `CredentialManager`. -/
structure CredentialMetrics where
  credentialVersion : Int
  credentialAgeSeconds : Rat
  credentialRotationTotal : Nat
  credentialFetchErrorsTotal : Nat

/-- The metrics of a `GatewayClient`. -/
structure GatewayMetrics where
  gatewayRequestsTotal : List String
  gatewayRequestDurationSeconds : List Rat
  gatewayAuthFailuresTotal : Nat
  circuitBreakerState : Nat

/-- What `generate_latest` finds in the registry. -/
structure Metrics where
  credentials : Option CredentialMetrics
  gateway : Option GatewayMetrics

inductive ResponseBody
  | payment (response : PaymentResponse)
  | detail (detail : Json)
  | alive
  | health (health : HealthStatus)
  | metrics (metrics : Metrics)
  | internalServerError

/-- How `call_next` ends: with a response, or with an exception from below. -/
inductive HttpAnswer
  | response (statusCode : Nat) (body : ResponseBody)
  | raised (exc : PyExc)

/-- What the client receives. -/
structure HttpResponse where
  statusCode : Nat
  body : ResponseBody
  xRequestId : Option String

/-- What becomes of the end of the authorize handler. -/
def Reply.answer : Reply → HttpAnswer
  | .ok response | .replay response => .response 200 (.payment response)
  | .httpException statusCode detail => .response statusCode (.detail (.str detail))
  | .escaped exc => .raised exc

/-- An answer of the framework's own, as `JSONResponse` renders it. -/
def frameworkAnswer (statusCode : Nat) (detail : Json) : HttpAnswer :=
  if renders detail then .response statusCode (.detail detail)
  else .raised (.valueError "Out of range float values are not JSON compliant")

/-! ## The routes for health and metrics -/

/-- `CredentialStatus.value`. -/
def CredentialStatus.value : CredentialStatus → String
  | .valid => "valid"
  | .expiringSoon => "expiring_soon"
  | .expired => "expired"
  | .error => "error"

/-- The `cred_status` of `readiness` at clock reading `now`. -/
def Connector.credentialStatus (c : Connector) (now : Rat) : Except PyExc CredentialStatus :=
  match c.credentialManager with
  | none => .ok .error
  | some m => m.credentialStatus now

/-- It cannot be read exactly where the credential check raises. -/
theorem Connector.untimed_iff_credentialStatus {c : Connector} (now : Rat) :
    c.Untimed ↔ ∃ exc, c.credentialStatus now = .error exc := by
  unfold Connector.Untimed Connector.credentialStatus CredentialManager.credentialStatus
  cases c.credentialManager with
  | none => simp
  | some m =>
      cases hcurrent : m.getCurrentCredential with
      | none => simp [hcurrent]
      | some credential => simp [hcurrent, credential.status_error_iff now]

/-- The end of `readiness`, from the answer of the gateway's health endpoint on. -/
def readiness (startTime : Rat) (vaultConnected : Bool) (credStatus : CredentialStatus)
    (gatewayReachable : Bool) (now : Rat) : HttpAnswer × List Output :=
  let uptime := if 0 < startTime then now - startTime else 0
  let isReady := vaultConnected && (credStatus = .valid || credStatus = .expiringSoon)
  let health : HealthStatus :=
    { status := if isReady then "ready" else "not_ready"
      vaultConnected := vaultConnected
      credentialStatus := credStatus.value
      gatewayReachable := gatewayReachable
      uptimeSeconds := pyRound uptime 2 }
  (.response (if isReady then 200 else 503) (.health health),
    [.audit (auditHealthCheck (if isReady then "ready" else "not_ready") health.modelDump)])

def CredentialManager.metrics (m : CredentialManager) : CredentialMetrics where
  credentialVersion := m.credentialVersion
  credentialAgeSeconds := m.credentialAgeSeconds
  credentialRotationTotal := m.credentialRotationTotal
  credentialFetchErrorsTotal := m.credentialFetchErrorsTotal

def GatewayClient.metrics (g : GatewayClient) : GatewayMetrics where
  gatewayRequestsTotal := g.gatewayRequestsTotal
  gatewayRequestDurationSeconds := g.gatewayRequestDurationSeconds
  gatewayAuthFailuresTotal := g.gatewayAuthFailuresTotal
  circuitBreakerState := g.circuitBreakerState

/-- The values that `metrics` exports. -/
def Connector.metrics (c : Connector) : Metrics where
  credentials := c.credentialManager.map CredentialManager.metrics
  gateway := c.gatewayClient.map GatewayClient.metrics

/-! ## Requests on their way -/

/-- How far a request got: received by the two outer middlewares, let through by the
rate limiter, in the authorize handler, in `readiness` at the await of the gateway,
answered below the outer middlewares. -/
inductive CallStage
  | received
  | admitted
  | authorizing
  | probing (vaultConnected : Bool) (credStatus : CredentialStatus)
  | answered (answer : HttpAnswer)

structure HttpCall where
  rid : Nat
  request : HttpRequest
  requestId : String
  startTime : Rat
  stage : CallStage

/-- The `api_access` event of `AuditLoggingMiddleware`, for the paths it audits. -/
def auditApiAccess (call : HttpCall) (statusCode : Nat) (now : Rat) : List Output :=
  if "/api/".toList <+: call.request.urlPath.toList then
    [.audit
      { event := "api_access"
        actor := call.requestId
        resource := call.request.urlPath
        action := call.request.method
        outcome := if statusCode < 400 then "success" else "failure"
        metadata := [("status_code", .int statusCode),
          ("duration_seconds", .float (.finite (pyRound (now - call.startTime) 4))),
          ("method", .str call.request.method), ("path", .str call.request.urlPath)] }]
  else []

/-! ## The service -/

/-- The secret as the credential manager takes it: with a version number and a text
for the time of creation, or without. -/
def KvSecret.typed? (secret : KvSecret) : Option SecretData :=
  match secret.version, secret.createdTime with
  | .null, .null => some ⟨secret.data, none, none⟩
  | .null, .str created => some ⟨secret.data, none, some created⟩
  | .int version, .null => some ⟨secret.data, some version, none⟩
  | .int version, .str created => some ⟨secret.data, some version, some created⟩
  | _, _ => none

/-- The outcome of `read_secret` as `load_credentials` takes it. -/
def vaultRead? : Except VaultExc KvSecret → Option VaultRead
  | .ok secret => secret.typed?.map .ok
  | .error exc => some (.error exc.str)

/-- The globals of the process, its middlewares and the requests on their way.
`consecutiveErrors` is the refresh loop's, nothing before the loop is started. -/
structure Service where
  startTime : Rat
  vaultClient : VaultClient
  process : Process
  rateLimit : RateLimitMiddleware
  consecutiveErrors : Option Nat
  calls : List HttpCall
  received : List Nat

inductive ServiceEvent
  /-- The load of the start-up, and after it those of the refresh loop. -/
  | load (env : Nat → VaultAttempt) (t : LoadReadings)
  /-- A request arrives; `uuid` is the id drawn for it. -/
  | receive (rid : Nat) (request : HttpRequest) (uuid : String) (now : Rat)
  /-- `RateLimitMiddleware` takes it on. -/
  | limit (rid : Nat) (created now : Rat)
  /-- Its route runs to its first suspension. -/
  | handle (rid : Nat) (vault : VaultAttempt) (t : StartReadings)
  /-- The POST awaited by the authorize handler completes. -/
  | answer (rid : Nat) (outcome : PostOutcome) (uuid : String) (t : AnswerReadings)
  /-- The gateway's health endpoint, awaited by `readiness`, answers. -/
  | reach (rid : Nat) (statusCode : Option Nat) (now : Rat)
  /-- The answer passes the outer middlewares. -/
  | respond (rid : Nat) (now : Rat)

/-- The loads, which belong to the refresh tasks. -/
def ServiceEvent.isLoad : ServiceEvent → Bool
  | .load _ _ => true
  | _ => false

inductive ServiceObs
  | output (output : Output)
  | process (obs : Obs)
  | asleep (seconds : Int)
  | responded (rid : Nat) (response : HttpResponse)

/-- Whether a load returned `False`. -/
def Obs.loadFailed : Obs → Bool
  | .loaded result => !result
  | _ => false

/-- The reply that a step of the process shows. -/
def Obs.reply? : Obs → Option Reply
  | .replied _ _ reply => some reply
  | _ => none

/-- Where the authorize handler is after a stretch of code that showed `obs`. -/
def stageAfter (obs : List Obs) : CallStage :=
  match obs.findSome? Obs.reply? with
  | some reply => .answered reply.answer
  | none => .authorizing

/-- Where `readiness` is once it has read the credential status. -/
def readinessStage (vaultConnected : Bool) : Except PyExc CredentialStatus → CallStage
  | .ok credStatus => .probing vaultConnected credStatus
  | .error exc => .answered (.raised exc)

def maxBackoff : Int := 300

/-- The top of `_refresh_loop`, up to its `sleep`. -/
def refreshSleep (settings : Settings) (consecutiveErrors : Nat) : List ServiceObs :=
  if 0 < consecutiveErrors then
    let backoff := min (settings.credentialCheckInterval * 2 ^ consecutiveErrors) maxBackoff
    [.output (.log (.credentialRefreshBackoff consecutiveErrors backoff)), .asleep backoff]
  else [.asleep settings.credentialCheckInterval]

namespace Service

/-- The process before its first load. -/
def start (settings : Settings) (now : Rat) : Service where
  startTime := now
  vaultClient := .init settings none none none none
  process := .start settings .init
  rateLimit := .init
  consecutiveErrors := none
  calls := []
  received := []

/-- The request with the given name, if it is on its way. -/
def call? (s : Service) (rid : Nat) : Option HttpCall := s.calls.find? (fun call => call.rid = rid)

/-- Move a request to another stage. -/
def setStage (s : Service) (rid : Nat) (stage : CallStage) : Service :=
  { s with
    calls := s.calls.map fun call => if call.rid = rid then { call with stage := stage } else call }

/-- The refresh loop's count of errors after a load that showed `obs`. -/
def errorsAfter (s : Service) (obs : List Obs) : Nat :=
  match s.consecutiveErrors with
  | none => 0
  | some errors => if obs.any Obs.loadFailed then errors + 1 else 0

/-- A load, with the Vault reads before it. -/
def load (s : Service) (env : Nat → VaultAttempt) (t : LoadReadings) :
    Option (Service × List ServiceObs) :=
  let settings := s.process.connector.settings
  let (result, vaultClient, outputs) := s.vaultClient.readSecret settings none env
  match vaultRead? result with
  | none => none
  | some read =>
      match s.process.step (.load read t) with
      | none => none
      | some (process, obs) =>
          let errors := s.errorsAfter obs
          some
            ({ s with
                vaultClient := vaultClient
                process := process
                consecutiveErrors := some errors },
              outputs.map .output ++ obs.map .process ++ refreshSleep settings errors)

/-- A route, up to its first suspension. -/
def handle (s : Service) (call : HttpCall) (vault : VaultAttempt) (t : StartReadings) :
    Option (Service × List ServiceObs) :=
  match call.request.route with
  | .authorize payment =>
      let request : AuthorizeRequest :=
        { payment := payment, requestId := call.requestId, xApiKey := call.request.xApiKey }
      match s.process.step (.request call.rid request t) with
      | none => none
      | some (process, obs) =>
          some ({ s with process := process }.setStage call.rid (stageAfter obs),
            obs.map .process)
  | .liveness => some (s.setStage call.rid (.answered (.response 200 .alive)), [])
  | .readiness =>
      let (vaultConnected, vaultClient, outputs) := s.vaultClient.isAuthenticated vault
      let stage := readinessStage vaultConnected (s.process.connector.credentialStatus t.check)
      some ({ s with vaultClient := vaultClient }.setStage call.rid stage, outputs.map .output)
  | .metrics =>
      some (s.setStage call.rid (.answered (.response 200 (.metrics s.process.connector.metrics))),
        [])
  | .framework statusCode detail =>
      some (s.setStage call.rid (.answered (frameworkAnswer statusCode detail)), [])

/-- What the two outer middlewares make of the answer from below. -/
def respond (call : HttpCall) (answer : HttpAnswer) (now : Rat) : List ServiceObs :=
  match answer with
  | .response statusCode body =>
      (auditApiAccess call statusCode now).map .output ++
        [.responded call.rid ⟨statusCode, body, some call.requestId⟩]
  | .raised _ => [.responded call.rid ⟨500, .internalServerError, none⟩]

/-- One stretch of code without suspension. -/
def step (s : Service) : ServiceEvent → Option (Service × List ServiceObs)
  | .load env t => s.load env t
  | .receive rid request uuid now =>
      if s.consecutiveErrors = none ∨ rid ∈ s.received then none
      else
        let call : HttpCall :=
          { rid := rid
            request := request
            requestId := request.xRequestId.getD uuid
            startTime := now
            stage := .received }
        some ({ s with calls := s.calls ++ [call], received := rid :: s.received }, [])
  | .limit rid created now =>
      match s.call? rid with
      | some ⟨_, request, _, _, .received⟩ =>
          let (rateLimit, dispatch, outputs, _) :=
            s.rateLimit.dispatch request.client created now
          let stage :=
            match dispatch with
            | .callNext => .admitted
            | .response statusCode detail =>
                .answered (.response statusCode (.detail (.str detail)))
          some ({ s with rateLimit := rateLimit }.setStage rid stage, outputs.map .output)
      | _ => none
  | .handle rid vault t =>
      match s.call? rid with
      | some ⟨_, request, requestId, startTime, .admitted⟩ =>
          s.handle ⟨rid, request, requestId, startTime, .admitted⟩ vault t
      | _ => none
  | .answer rid outcome uuid t =>
      match s.process.step (.answer rid outcome uuid t) with
      | none => none
      | some (process, obs) =>
          some ({ s with process := process }.setStage rid (stageAfter obs), obs.map .process)
  | .reach rid statusCode now =>
      match s.call? rid with
      | some ⟨_, _, _, _, .probing vaultConnected credStatus⟩ =>
          let reachable := s.process.connector.gatewayClient.isSome &&
            GatewayClient.checkReachability statusCode
          let (answer, outputs) :=
            readiness s.startTime vaultConnected credStatus reachable now
          some (s.setStage rid (.answered answer), outputs.map .output)
      | _ => none
  | .respond rid now =>
      match s.call? rid with
      | some ⟨_, request, requestId, startTime, .answered answer⟩ =>
          some
            ({ s with calls := s.calls.filter (fun call => call.rid ≠ rid) },
              respond ⟨rid, request, requestId, startTime, .answered answer⟩ answer now)
      | _ => none

end Service

/-! ## The process inside -/

/-- What the process inside shows. -/
def ServiceObs.process? : ServiceObs → Option Obs
  | .process obs => some obs
  | _ => none

namespace Service

variable {s s' : Service} {e : ServiceEvent} {obs : List ServiceObs}

theorem process?_of_outputs (outputs : List Output) :
    (outputs.map ServiceObs.output).filterMap ServiceObs.process? = [] := by
  rw [List.filterMap_map]
  exact List.filterMap_none outputs

theorem process?_of_process (obs : List Obs) :
    (obs.map ServiceObs.process).filterMap ServiceObs.process? = obs := by
  rw [List.filterMap_map]
  exact List.filterMap_some

theorem process?_of_refreshSleep (settings : Settings) (errors : Nat) :
    (refreshSleep settings errors).filterMap ServiceObs.process? = [] := by
  unfold refreshSleep
  split <;> rfl

private theorem process?_of_respond (call : HttpCall) (answer : HttpAnswer) (now : Rat) :
    (respond call answer now).filterMap ServiceObs.process? = [] := by
  cases answer with
  | response statusCode body =>
      rw [respond, List.filterMap_append, process?_of_outputs]
      rfl
  | raised exc => rfl

/-- A route leaves the process alone, or starts the authorize handler. -/
private theorem handle_process {call : HttpCall} {vault : VaultAttempt} {t : StartReadings}
    (h : s.handle call vault t = some (s', obs)) :
    (s'.process = s.process ∧ obs.filterMap ServiceObs.process? = []) ∨
      ∃ e, s.process.step e = some (s'.process, obs.filterMap ServiceObs.process?) := by
  unfold handle at h
  cases hroute : call.request.route with
  | authorize payment =>
      simp only [hroute] at h
      split at h
      · cases h
      · rename_i process obs' hstep
        cases h
        rw [process?_of_process]
        exact Or.inr ⟨_, hstep⟩
  | readiness =>
      simp only [hroute, Option.some.injEq, Prod.mk.injEq] at h
      obtain ⟨rfl, rfl⟩ := h
      exact Or.inl ⟨rfl, process?_of_outputs _⟩
  | liveness =>
      simp only [hroute] at h
      cases h
      exact Or.inl ⟨rfl, rfl⟩
  | metrics =>
      simp only [hroute] at h
      cases h
      exact Or.inl ⟨rfl, rfl⟩
  | framework statusCode detail =>
      simp only [hroute] at h
      cases h
      exact Or.inl ⟨rfl, rfl⟩

/-- A load is one of the process's. -/
private theorem load_process {env : Nat → VaultAttempt} {t : LoadReadings}
    (h : s.load env t = some (s', obs)) :
    ∃ e, s.process.step e = some (s'.process, obs.filterMap ServiceObs.process?) := by
  simp only [load] at h
  split at h
  · cases h
  · rename_i read hread
    cases hstep : s.process.step (.load read t) with
    | none => simp [hstep] at h
    | some r =>
        simp only [hstep, Option.some.injEq, Prod.mk.injEq] at h
        obtain ⟨rfl, rfl⟩ := h
        rw [List.filterMap_append, List.filterMap_append, process?_of_outputs,
          process?_of_process, process?_of_refreshSleep, List.nil_append, List.append_nil]
        exact ⟨_, hstep⟩

/-- A step leaves the process alone or is one of its steps. -/
theorem step_process (h : s.step e = some (s', obs)) :
    (s'.process = s.process ∧ obs.filterMap ServiceObs.process? = []) ∨
      ∃ e', s.process.step e' = some (s'.process, obs.filterMap ServiceObs.process?) := by
  cases e with
  | load env t => exact Or.inr (load_process h)
  | receive rid request uuid now =>
      simp only [step] at h
      split at h
      · cases h
      · cases h
        exact Or.inl ⟨rfl, rfl⟩
  | limit rid created now =>
      simp only [step] at h
      split at h
      · cases h
        exact Or.inl ⟨rfl, process?_of_outputs _⟩
      · cases h
  | handle rid vault t =>
      simp only [step] at h
      split at h
      · exact handle_process h
      · cases h
  | answer rid outcome uuid t =>
      simp only [step] at h
      split at h
      · cases h
      · rename_i process obs' hstep
        cases h
        rw [process?_of_process]
        exact Or.inr ⟨_, hstep⟩
  | reach rid statusCode now =>
      simp only [step] at h
      split at h
      · cases h
        exact Or.inl ⟨rfl, process?_of_outputs _⟩
      · cases h
  | respond rid now =>
      simp only [step] at h
      split at h
      · cases h
        exact Or.inl ⟨rfl, process?_of_respond _ _ _⟩
      · cases h

/-- A run of the service runs the process: what is shown of every run of the process
holds of the service. -/
theorem run_process {es : List ServiceEvent} :
    ∀ {s s' : Service} {tr : List ServiceObs}, Machine.run step s es = some (s', tr) →
      ∃ es', Machine.run Process.step s.process es' =
        some (s'.process, tr.filterMap ServiceObs.process?) := by
  induction es with
  | nil =>
      intro s s' tr hrun
      obtain ⟨rfl, rfl⟩ := Machine.run_nil_iff.mp hrun
      exact ⟨[], rfl⟩
  | cons e es ih =>
      intro s s' tr hrun
      obtain ⟨s₁, o₁, tr₁, hs, hr, rfl⟩ := Machine.run_cons_iff.mp hrun
      obtain ⟨es', hrest⟩ := ih hr
      rw [List.filterMap_append]
      rcases step_process hs with ⟨hsame, hnil⟩ | ⟨e', hstep⟩
      · rw [hnil, List.nil_append, ← hsame]
        exact ⟨es', hrest⟩
      · exact ⟨e' :: es', Machine.run_cons_iff.mpr ⟨_, _, _, hstep, hrest, rfl⟩⟩

end Service

end PaymentConnector
