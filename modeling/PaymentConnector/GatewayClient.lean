import PaymentConnector.CredentialManager

/-!
# The gateway client and its circuit breaker

`GatewayClient.authorize_payment` is a coroutine with up to two suspensions,
one at each POST.  It is modelled by the two stretches of code that run
without suspension: `beginAuthorize`, up to the first POST, and
`resumeAuthorize`, from the completion of a POST to its return, its exception
or the fallback POST.  The completion of a POST (`PostOutcome`) and every
clock reading are inputs, so any gateway and any schedule can be played.
-/

namespace PaymentConnector

/-! ## The circuit breaker -/

inductive CircuitState
  | closed
  | openState
  | halfOpen
  deriving DecidableEq

structure CircuitBreaker where
  failureThreshold : Nat
  timeoutSeconds : Rat
  state : CircuitState
  failureCount : Nat
  lastFailureTime : Option Rat

namespace CircuitBreaker

/-- `__init__` with its defaults. -/
def init : CircuitBreaker where
  failureThreshold := 5
  timeoutSeconds := 30
  state := .closed
  failureCount := 0
  lastFailureTime := none

/-- Whether the timeout has elapsed since the last failure. -/
def timedOut (b : CircuitBreaker) (now : Rat) : Bool :=
  match b.lastFailureTime with
  | none => false
  | some t => b.timeoutSeconds ≤ now - t

/-- The `state` property: reading it may move an open breaker to half-open. -/
def readState (b : CircuitBreaker) (now : Rat) : CircuitState × CircuitBreaker :=
  if b.state = .openState ∧ b.timedOut now then
    (.halfOpen, { b with state := .halfOpen })
  else
    (b.state, b)

/-- The `allows_request` property. -/
def allowsRequest (b : CircuitBreaker) (now : Rat) : Bool × CircuitBreaker :=
  let (current, b') := b.readState now
  (current = .closed || current = .halfOpen, b')

/-- `record_success`. -/
def recordSuccess (b : CircuitBreaker) : CircuitBreaker :=
  { b with failureCount := 0, state := .closed }

/-- `record_failure` at clock reading `now`. -/
def recordFailure (b : CircuitBreaker) (now : Rat) : CircuitBreaker × List Output :=
  let b₁ := { b with failureCount := b.failureCount + 1, lastFailureTime := some now }
  if b₁.state = .halfOpen then
    ({ b₁ with state := .openState }, [])
  else if b₁.failureThreshold ≤ b₁.failureCount then
    ({ b₁ with state := .openState }, [.log (.circuitBreakerOpened b₁.failureCount)])
  else
    (b₁, [])

end CircuitBreaker

/-! ## Payments -/

/-- A payment that passed body validation. -/
structure PaymentRequest where
  merchantId : String
  amount : Rat
  currency : String
  cardToken : String
  idempotencyKey : String
  merchantId_length : 1 ≤ merchantId.length ∧ merchantId.length ≤ 64
  amount_range : 0 < amount ∧ amount ≤ 1000000
  currency_length : currency.length = 3
  cardToken_length : 1 ≤ cardToken.length ∧ cardToken.length ≤ 128
  idempotencyKey_length : 1 ≤ idempotencyKey.length ∧ idempotencyKey.length ≤ 128
  deriving DecidableEq

/-! ## One POST -/

/-- How an awaited POST completes: an answer, with what `response.json()` gives
on its body, or an exception of the HTTP library or of anything below it. -/
inductive PostOutcome
  | response (statusCode : Nat) (json : Except PyExc Json)
  | timeout (error : String)
  | httpError (error : String)
  | raised (exc : PyExc)

/-- The gateway client's state, its metrics included.  The request counter is
the list of the labels it was incremented under. -/
structure GatewayClient where
  baseUrl : String
  circuitBreaker : CircuitBreaker
  gatewayRequestsTotal : List String
  gatewayRequestDurationSeconds : List Rat
  gatewayAuthFailuresTotal : Nat
  circuitBreakerState : Nat

/-- The client's own exceptions. -/
inductive GatewayError
  | unavailable (text : String)
  | auth (text : String)

/-- What `_try_authorize` does in the end. -/
inductive Attempt
  | returned (body : PyDict)
  | rejected
  | unavailable (text : String)
  | escaped (exc : PyExc)

/-- The clock readings after a POST completed, in code order: its duration,
`record_failure`, the breaker gauge, the start of the fallback POST, the
timestamp of the response. -/
structure AnswerReadings where
  done : Rat
  failed : Rat
  gauge : Rat
  send : Rat
  stamp : Rat

/-- The result of `_try_authorize` as a function of how its POST completed. -/
def PostOutcome.attempt : PostOutcome → Attempt
  | .response statusCode json =>
      if statusCode = 401 ∨ statusCode = 403 then .rejected
      else if 500 ≤ statusCode then .unavailable s!"Gateway returned {statusCode}"
      else
        match json with
        | .error exc => .escaped exc
        | .ok value =>
            match pyDict value with
            | .error exc => .escaped exc
            | .ok body => .returned body
  | .timeout error => .unavailable s!"Gateway timeout: {error}"
  | .httpError error => .unavailable s!"Gateway error: {error}"
  | .raised exc => .escaped exc

namespace GatewayClient

/-- `__init__`. -/
def init (baseUrl : String) : GatewayClient where
  baseUrl := baseUrl
  circuitBreaker := .init
  gatewayRequestsTotal := []
  gatewayRequestDurationSeconds := []
  gatewayAuthFailuresTotal := 0
  circuitBreakerState := 0

/-- The value `_update_circuit_breaker_metric` exports for a state. -/
def stateCode : CircuitState → Nat
  | .closed => 0
  | .openState => 1
  | .halfOpen => 2

/-- `_update_circuit_breaker_metric` at clock reading `now`. -/
def updateCircuitBreakerMetric (g : GatewayClient) (now : Rat) : GatewayClient :=
  let (current, b) := g.circuitBreaker.readState now
  { g with circuitBreaker := b, circuitBreakerState := stateCode current }

/-- `gateway_request_duration_seconds.observe`. -/
def observe (g : GatewayClient) (duration : Rat) : GatewayClient :=
  { g with gatewayRequestDurationSeconds := g.gatewayRequestDurationSeconds ++ [duration] }

/-- `gateway_requests_total.labels(status=label).inc()`. -/
def countRequest (g : GatewayClient) (label : String) : GatewayClient :=
  { g with gatewayRequestsTotal := g.gatewayRequestsTotal ++ [label] }

/-- The failure bookkeeping shared by three branches of `_try_authorize`. -/
def failRequest (g : GatewayClient) (label : String) (t : AnswerReadings) :
    GatewayClient × List Output :=
  let (b, outputs) := g.circuitBreaker.recordFailure t.failed
  let g₁ := { g with circuitBreaker := b }.updateCircuitBreakerMetric t.gauge
  (g₁.countRequest label, outputs)

/-- `_try_authorize` from the completion of its POST on. -/
def tryAuthorize (g : GatewayClient) (credential : Credential) (startTime : Rat)
    (outcome : PostOutcome) (t : AnswerReadings) : GatewayClient × Attempt × List Output :=
  match outcome with
  | .response statusCode json =>
      let g := g.observe (t.done - startTime)
      if statusCode = 401 ∨ statusCode = 403 then
        (g.countRequest (toString statusCode), .rejected,
          [.log (.gatewayAuthRejected statusCode credential.version)])
      else if 500 ≤ statusCode then
        let (g, outputs) := g.failRequest (toString statusCode) t
        (g, .unavailable s!"Gateway returned {statusCode}", outputs)
      else
        let g := { g with circuitBreaker := g.circuitBreaker.recordSuccess }
        let g := (g.updateCircuitBreakerMetric t.gauge).countRequest (toString statusCode)
        match json with
        | .error exc => (g, .escaped exc, [])
        | .ok value =>
            match pyDict value with
            | .error exc => (g, .escaped exc, [])
            | .ok body => (g, .returned body, [])
  | .timeout error =>
      let (g, outputs) := (g.observe (t.done - startTime)).failRequest "timeout" t
      (g, .unavailable s!"Gateway timeout: {error}", outputs ++ [.log (.gatewayTimeout error)])
  | .httpError error =>
      let (g, outputs) := (g.observe (t.done - startTime)).failRequest "error" t
      (g, .unavailable s!"Gateway error: {error}", outputs ++ [.log (.gatewayHttpError error)])
  | .raised exc => (g, .escaped exc, [])

end GatewayClient

/-- The attempt's result is decided by the POST alone; the client's state only
keeps count. -/
theorem GatewayClient.tryAuthorize_attempt (g : GatewayClient) (credential : Credential)
    (startTime : Rat) (outcome : PostOutcome) (t : AnswerReadings) :
    (g.tryAuthorize credential startTime outcome t).2.1 = outcome.attempt := by
  cases outcome with
  | response statusCode json =>
      simp only [tryAuthorize, PostOutcome.attempt]
      split
      · rfl
      · split
        · rfl
        · cases json with
          | error exc => rfl
          | ok value =>
              dsimp only
              split <;> rfl
  | timeout error => rfl
  | httpError error => rfl
  | raised exc => rfl

/-! ## `authorize_payment` -/

/-- Which of its two POSTs a suspended call awaits; during the first one it
still holds the fallback it selected. -/
inductive Stage
  | primary (fallback : Option Credential)
  | fallback

/-- A call of `authorize_payment` suspended at a POST, with the payload that it
sends. -/
structure Pending where
  credential : Credential
  payload : PaymentRequest
  stage : Stage
  startTime : Rat

/-- Where `authorize_payment` gets to once a POST completed. -/
inductive Progress
  | posting (pending : Pending)
  | returned (body : PyDict)
  | failed (error : GatewayError)
  | escaped (exc : PyExc)

/-- The readings of `time.time()` before the first POST, in code order: the
endpoint's credential check, the breaker gauge, `allows_request`, the gauge
again on refusal, the start of the POST. -/
structure StartReadings where
  check : Rat
  gauge : Rat
  allow : Rat
  refuse : Rat
  send : Rat

/-- A clock that stands still between two suspensions. -/
def StartReadings.at (now : Rat) : StartReadings := ⟨now, now, now, now, now⟩

def AnswerReadings.at (now : Rat) : AnswerReadings := ⟨now, now, now, now, now⟩

namespace GatewayClient

/-- What `allows_request` answers in `authorize_payment`. -/
def allowed (g : GatewayClient) (t : StartReadings) : Bool :=
  ((g.updateCircuitBreakerMetric t.gauge).circuitBreaker.allowsRequest t.allow).1

/-- `authorize_payment` up to its first POST, or to the exception before it. -/
def beginAuthorize (g : GatewayClient) (m : CredentialManager) (payload : PaymentRequest)
    (t : StartReadings) : GatewayClient × Except GatewayError Pending :=
  let g := g.updateCircuitBreakerMetric t.gauge
  let (allowed, b) := g.circuitBreaker.allowsRequest t.allow
  let g := { g with circuitBreaker := b }
  if !allowed then
    (g.updateCircuitBreakerMetric t.refuse,
      .error (.unavailable "Circuit breaker is open; gateway requests are blocked"))
  else
    match m.getCurrentCredential with
    | none => (g, .error (.auth "No credentials available"))
    | some primary =>
        (g, .ok
          { credential := primary
            payload := payload
            stage := .primary m.getFallbackCredential
            startTime := t.send })

/-- The end of `authorize_payment` once every credential was rejected. -/
def allRejected (g : GatewayClient) : GatewayClient × Progress × List Output :=
  ({ g with gatewayAuthFailuresTotal := g.gatewayAuthFailuresTotal + 1 },
    .failed (.auth "All credentials were rejected by the gateway"),
    [.audit (auditAuthFailure (g.baseUrl ++ "/api/v1/transactions/authorize")
      "all_credentials_rejected" none)])

/-- `authorize_payment` from the completion of an awaited POST on. -/
def resumeAuthorize (g : GatewayClient) (p : Pending) (outcome : PostOutcome)
    (t : AnswerReadings) : GatewayClient × Progress × List Output :=
  match g.tryAuthorize p.credential p.startTime outcome t with
  | (g, .returned body, outputs) => (g, .returned body, outputs)
  | (g, .unavailable text, outputs) => (g, .failed (.unavailable text), outputs)
  | (g, .escaped exc, outputs) => (g, .escaped exc, outputs)
  | (g, .rejected, outputs) =>
      match p.stage with
      | .primary (some fallback) =>
          if fallback.oid ≠ p.credential.oid then
            (g, .posting { p with credential := fallback, stage := .fallback, startTime := t.send },
              outputs ++ [.log .gatewayFallbackCredentialAttempt])
          else
            let (g, progress, rejections) := g.allRejected
            (g, progress, outputs ++ rejections)
      | _ =>
          let (g, progress, rejections) := g.allRejected
          (g, progress, outputs ++ rejections)

/-- `check_reachability`, given the status code of the gateway's health endpoint, or
nothing where the request raises. -/
def checkReachability (statusCode : Option Nat) : Bool := statusCode = some 200

end GatewayClient

/-- What follows a completed POST, as a function of the suspended call and the
POST alone. -/
def Pending.progress (p : Pending) (outcome : PostOutcome) (t : AnswerReadings) : Progress :=
  match outcome.attempt with
  | .returned body => .returned body
  | .unavailable text => .failed (.unavailable text)
  | .escaped exc => .escaped exc
  | .rejected =>
      match p.stage with
      | .primary (some fallback) =>
          if fallback.oid ≠ p.credential.oid then
            .posting { p with credential := fallback, stage := .fallback, startTime := t.send }
          else .failed (.auth "All credentials were rejected by the gateway")
      | _ => .failed (.auth "All credentials were rejected by the gateway")

theorem GatewayClient.resumeAuthorize_progress (g : GatewayClient) (p : Pending)
    (outcome : PostOutcome) (t : AnswerReadings) :
    (g.resumeAuthorize p outcome t).2.1 = p.progress outcome t := by
  have hattempt := g.tryAuthorize_attempt p.credential p.startTime outcome t
  unfold resumeAuthorize Pending.progress
  rw [← hattempt]
  rcases g.tryAuthorize p.credential p.startTime outcome t with ⟨g', attempt, outputs⟩
  cases attempt with
  | returned body => rfl
  | unavailable text => rfl
  | escaped exc => rfl
  | rejected =>
      rcases p.stage with ⟨_ | fallback⟩ | _
      · rfl
      · dsimp only
        split <;> rfl
      · rfl

/-- Past the POST itself only the count of authentication failures can change. -/
theorem GatewayClient.resumeAuthorize_client (g : GatewayClient) (p : Pending)
    (outcome : PostOutcome) (t : AnswerReadings) :
    ∃ failures, (g.resumeAuthorize p outcome t).1 =
      { (g.tryAuthorize p.credential p.startTime outcome t).1 with
        gatewayAuthFailuresTotal := failures } := by
  unfold resumeAuthorize
  rcases g.tryAuthorize p.credential p.startTime outcome t with ⟨g', attempt, outputs⟩
  cases attempt with
  | returned body => exact ⟨_, rfl⟩
  | unavailable text => exact ⟨_, rfl⟩
  | escaped exc => exact ⟨_, rfl⟩
  | rejected =>
      rcases p.stage with ⟨_ | fallback⟩ | _
      · exact ⟨_, rfl⟩
      · dsimp only
        split
        · exact ⟨_, rfl⟩
        · exact ⟨_, rfl⟩
      · exact ⟨_, rfl⟩

/-- A call that gets as far as a POST was admitted by the breaker, sends the
manager's current credential and keeps its fallback. -/
theorem GatewayClient.beginAuthorize_ok {g g' : GatewayClient} {m : CredentialManager}
    {payload : PaymentRequest} {t : StartReadings} {p : Pending}
    (h : g.beginAuthorize m payload t = (g', .ok p)) :
    g.allowed t = true ∧ m.getCurrentCredential = some p.credential ∧ p.payload = payload ∧
      p.stage = .primary m.getFallbackCredential ∧ p.startTime = t.send := by
  simp only [beginAuthorize] at h
  split at h
  · simp at h
  · rename_i hallowed
    cases hc : m.getCurrentCredential with
    | none => simp [hc] at h
    | some primary =>
        simp only [hc, Prod.mk.injEq, Except.ok.injEq] at h
        obtain ⟨-, rfl⟩ := h
        exact ⟨by simpa [allowed] using hallowed, rfl, rfl, rfl, rfl⟩

/-- A call that fails before its first POST was refused by the breaker or found
no credential. -/
theorem GatewayClient.beginAuthorize_error {g g' : GatewayClient} {m : CredentialManager}
    {payload : PaymentRequest} {t : StartReadings} {error : GatewayError}
    (h : g.beginAuthorize m payload t = (g', .error error)) :
    g.allowed t = false ∨ m.getCurrentCredential = none := by
  simp only [beginAuthorize] at h
  split at h
  · rename_i hrefused
    exact Or.inl (by simpa [allowed] using hrefused)
  · cases hc : m.getCurrentCredential with
    | none => exact Or.inr rfl
    | some primary => simp [hc] at h

/-! ## A sample payment -/

theorem sampleKey_length : 1 ≤ "idem-001".length ∧ "idem-001".length ≤ 128 := by decide

def samplePayment : PaymentRequest where
  merchantId := "merchant-001"
  amount := 9999 / 100
  currency := "USD"
  cardToken := "tok_test_abc"
  idempotencyKey := "idem-001"
  merchantId_length := by decide
  amount_range := by decide +kernel
  currency_length := by decide
  cardToken_length := by decide
  idempotencyKey_length := sampleKey_length

end PaymentConnector
