import PaymentConnector.GatewayClient

/-!
# The authorize endpoint

`POST /api/v1/authorize` and the idempotency cache of the process.  Like the
gateway client it is split at its suspensions: `beginRequest` runs from the
arrival of a request to its answer or its first POST, `resumeRequest` from the
completion of a POST to the answer or the fallback POST.

A `PaymentRequest` carries the bounds that body validation checks, so a
request that reaches the handler is one by construction.
-/

namespace PaymentConnector

open Library

/-! ## Answers -/

inductive PaymentStatus
  | approved
  | declined
  | error
  deriving DecidableEq

/-- `PaymentStatus(x)`, with `PaymentStatus.ERROR` for a `ValueError`. -/
def PaymentStatus.ofJson : Json → PaymentStatus
  | .str "approved" => .approved
  | .str "declined" => .declined
  | _ => .error

/-- A payment response; the cache holds its JSON dump, field for field. -/
structure PaymentResponse where
  transactionId : String
  status : PaymentStatus
  merchantId : String
  amount : Rat
  currency : String
  timestamp : Rat
  deriving DecidableEq

/-- An authorize request as the handler receives it. -/
structure AuthorizeRequest where
  payment : PaymentRequest
  requestId : String
  xApiKey : Option String

/-- How the handler ends.  `ok` and `replay` are the two 200 answers: a fresh
response and one from the idempotency cache. -/
inductive Reply
  | ok (response : PaymentResponse)
  | replay (response : PaymentResponse)
  | httpException (statusCode : Nat) (detail : String)
  | escaped (exc : PyExc)

/-- The body of a 200 answer. -/
def Reply.body? : Reply → Option PaymentResponse
  | .ok response | .replay response => some response
  | _ => none

/-- The status code the client sees; an exception that leaves the handler
becomes a 500. -/
def Reply.statusCode : Reply → Nat
  | .ok _ | .replay _ => 200
  | .httpException statusCode _ => statusCode
  | .escaped _ => 500

/-! ## The process-wide state -/

def idempotencyCacheMaxSize : Nat := 10000

/-- The module globals of `main.py` that the handler uses. -/
structure Connector where
  settings : Settings
  credentialManager : Option CredentialManager
  gatewayClient : Option GatewayClient
  idempotencyCache : OrderedDict String PaymentResponse
  inFlight : Int

/-- Whether `_validate_api_key` lets a key pass. -/
def acceptsApiKey (settings : Settings) : Option String → Bool
  | none => false
  | some key => key ≠ "" && key ∈ settings.apiKeys

/-- `_validate_api_key`: the refusal and its audit event, or nothing. -/
def validateApiKey (settings : Settings) (apiKey : Option String) (requestId : String) :
    Option (Reply × List Output) :=
  match apiKey with
  | none | some "" =>
      some (.httpException 401 "Missing API key",
        [.audit (auditAuthFailure "/api/v1/authorize" "missing_api_key" (some requestId))])
  | some key =>
      if settings.apiKeys = [] ∨ key ∉ settings.apiKeys then
        some (.httpException 403 "Invalid API key",
          [.audit (auditAuthFailure "/api/v1/authorize" "invalid_api_key" (some requestId))])
      else none

/-- `_check_idempotency`. -/
def checkIdempotency (key : String) (cache : OrderedDict String PaymentResponse) :
    Option PaymentResponse × OrderedDict String PaymentResponse :=
  match cache.get? key with
  | some cached => (some cached, cache.moveToEnd key)
  | none => (none, cache)

/-- `_store_idempotency`, with the keys it evicts. -/
def storeIdempotency (key : String) (response : PaymentResponse)
    (cache : OrderedDict String PaymentResponse) :
    OrderedDict String PaymentResponse × List String :=
  let cache := cache.set key response
  (OrderedDict.evictOver idempotencyCacheMaxSize cache,
    OrderedDict.overflow idempotencyCacheMaxSize cache)

/-- What the endpoint makes of a gateway body: the response, or pydantic's
error when `transaction_id` is there and not a string. -/
def buildResponse (payment : PaymentRequest) (body : PyDict) (uuid : String) (now : Rat) :
    Except PyExc PaymentResponse :=
  match body.get "transaction_id" (.str uuid) with
  | .str transactionId => .ok
      { transactionId := transactionId
        status := PaymentStatus.ofJson (body.get "status" (.str "error"))
        merchantId := payment.merchantId
        amount := payment.amount
        currency := payment.currency
        timestamp := now }
  | _ => .error (.validationError "transaction_id: Input should be a valid string")

/-- Where a stretch of the handler ends. -/
inductive Advance
  | posting (pending : Pending)
  | replied (reply : Reply)

namespace Connector

/-- The `finally` clause. -/
def leave (c : Connector) : Connector := { c with inFlight := c.inFlight - 1 }

/-- The two `except` clauses around the gateway call. -/
def gatewayFailed (c : Connector) : GatewayError → Connector × Advance × List Output
  | .unavailable text =>
      (c.leave, .replied (.httpException 503 "Service unavailable: gateway unreachable"),
        [.log (.gatewayUnavailable text)])
  | .auth text =>
      (c.leave, .replied (.httpException 503 "Service unavailable: credential error"),
        [.log (.gatewayAuthError text)])

/-- `authorize_payment` of the endpoint up to its first suspension. -/
def beginRequest (c : Connector) (request : AuthorizeRequest) (t : StartReadings) :
    Connector × Advance × List Output :=
  let c := { c with inFlight := c.inFlight + 1 }
  match validateApiKey c.settings request.xApiKey request.requestId with
  | some (refusal, outputs) => (c.leave, .replied refusal, outputs)
  | none =>
      match c.credentialManager with
      | none =>
          (c.leave, .replied (.httpException 503 "Service unavailable: credential error"), [])
      | some manager =>
          match manager.hasValidCredentials t.check with
          | .error exc => (c.leave, .replied (.escaped exc), [])
          | .ok false =>
            (c.leave, .replied (.httpException 503 "Service unavailable: credential error"), [])
          | .ok true =>
            match checkIdempotency request.payment.idempotencyKey c.idempotencyCache with
            | (some cached, cache) =>
                ({ c with idempotencyCache := cache }.leave, .replied (.replay cached),
                  [.log (.idempotencyCacheHit request.payment.idempotencyKey)])
            | (none, cache) =>
                let c := { c with idempotencyCache := cache }
                match c.gatewayClient with
                | none =>
                    (c.leave, .replied
                      (.httpException 503 "Service unavailable: gateway not initialized"), [])
                | some client =>
                    match client.beginAuthorize manager request.payment t with
                    | (client, .ok pending) =>
                        ({ c with gatewayClient := some client }, .posting pending, [])
                    | (client, .error error) =>
                        { c with gatewayClient := some client }.gatewayFailed error

/-- The handler once the gateway call got to `progress`: what is left is to
suspend again, to translate an exception, or to build, store and return the
response.  `uuid` is the `uuid4` it draws and `now` the response's timestamp;
the last component lists the idempotency keys that the store evicted. -/
def finishRequest (c : Connector) (payment : PaymentRequest) (uuid : String) (now : Rat) :
    Progress → Connector × Advance × List Output × List String
  | .posting pending => (c, .posting pending, [], [])
  | .failed error =>
      let (c, advance, outputs) := c.gatewayFailed error
      (c, advance, outputs, [])
  | .escaped exc => (c.leave, .replied (.escaped exc), [], [])
  | .returned body =>
      match buildResponse payment body uuid now with
      | .error exc => (c.leave, .replied (.escaped exc), [], [])
      | .ok response =>
          let (cache, evicted) :=
            storeIdempotency payment.idempotencyKey response c.idempotencyCache
          ({ c with idempotencyCache := cache }.leave, .replied (.ok response), [], evicted)

/-- `authorize_payment` of the endpoint from the completion of a POST of
`client` on. -/
def resumeRequest (c : Connector) (client : GatewayClient) (payment : PaymentRequest)
    (p : Pending) (outcome : PostOutcome) (uuid : String) (t : AnswerReadings) :
    Connector × Advance × List Output × List String :=
  let (client, progress, outputs) := client.resumeAuthorize p outcome t
  let (c, advance, outputs', evicted) :=
    { c with gatewayClient := some client }.finishRequest payment uuid t.stamp progress
  (c, advance, outputs ++ outputs', evicted)

end Connector

/-! ## What the handler does -/

/-- The cache answers with what it holds for the key. -/
theorem checkIdempotency_fst (key : String) (cache : OrderedDict String PaymentResponse) :
    (checkIdempotency key cache).1 = cache.get? key := by
  unfold checkIdempotency
  split
  · rename_i cached hget
    exact hget.symm
  · rename_i hget
    exact hget.symm

theorem validateApiKey_eq_none_iff (settings : Settings) (apiKey : Option String)
    (requestId : String) :
    validateApiKey settings apiKey requestId = none ↔ acceptsApiKey settings apiKey = true := by
  unfold validateApiKey
  split
  · simp [acceptsApiKey]
  · simp [acceptsApiKey]
  · rename_i key hempty
    have hne : key ≠ "" := fun h => hempty (by rw [h])
    by_cases hmem : key ∈ settings.apiKeys
    · have hnil : settings.apiKeys ≠ [] := List.ne_nil_of_mem hmem
      simp [acceptsApiKey, hne, hmem, hnil]
    · simp [acceptsApiKey, hmem]

/-- The refusals of `_validate_api_key` are a 401 and a 403. -/
theorem validateApiKey_refusal {settings : Settings} {apiKey : Option String}
    {requestId : String} {reply : Reply} {outputs : List Output}
    (h : validateApiKey settings apiKey requestId = some (reply, outputs)) :
    ∃ code detail, reply = .httpException code detail ∧ (code = 401 ∨ code = 403) := by
  unfold validateApiKey at h
  split at h
  · cases h
    exact ⟨401, _, rfl, Or.inl rfl⟩
  · cases h
    exact ⟨401, _, rfl, Or.inl rfl⟩
  · split at h
    · cases h
      exact ⟨403, _, rfl, Or.inr rfl⟩
    · cases h

/-- Storing a response changes what `key` reads only if it is stored under
`key` or evicts `key`. -/
theorem get?_storeIdempotency {cache : OrderedDict String PaymentResponse} {key k : String}
    {response : PaymentResponse} (hne : key ≠ k)
    (hkept : ¬ key ∈ (storeIdempotency k response cache).2) :
    (storeIdempotency k response cache).1.get? key = cache.get? key := by
  simp only [storeIdempotency] at hkept ⊢
  rw [OrderedDict.get?_evictOver, if_neg hkept, OrderedDict.get?_set_ne _ hne]

/-- The response just stored is there, unless the store evicted it. -/
theorem get?_storeIdempotency_self {cache : OrderedDict String PaymentResponse} {key : String}
    {response : PaymentResponse} (hkept : ¬ key ∈ (storeIdempotency key response cache).2) :
    (storeIdempotency key response cache).1.get? key = some response := by
  simp only [storeIdempotency] at hkept ⊢
  rw [OrderedDict.get?_evictOver, if_neg hkept, OrderedDict.get?_set_self]

/-- A store that does not exceed the bound evicts nothing. -/
theorem storeIdempotency_evicts_nothing {cache : OrderedDict String PaymentResponse}
    {key : String} {response : PaymentResponse}
    (h : (cache.set key response).length ≤ idempotencyCacheMaxSize) :
    (storeIdempotency key response cache).2 = [] := by
  simp only [storeIdempotency, OrderedDict.overflow_eq_nil h]

/-- A store adds no key but its own. -/
theorem mem_storeIdempotency {cache : OrderedDict String PaymentResponse} {key k : String}
    {response : PaymentResponse} (h : key ∈ (storeIdempotency k response cache).1) :
    key = k ∨ key ∈ cache := by
  simp only [storeIdempotency] at h
  rw [OrderedDict.mem_evictOver, OrderedDict.mem_set] at h
  exact h.1

/-- What a store does not evict is there, whether stored or kept. -/
theorem mem_storeIdempotency_of_kept {cache : OrderedDict String PaymentResponse}
    {key k : String} {response : PaymentResponse} (h : key = k ∨ key ∈ cache)
    (hkept : ¬ key ∈ (storeIdempotency k response cache).2) :
    key ∈ (storeIdempotency k response cache).1 := by
  simp only [storeIdempotency] at hkept ⊢
  rw [OrderedDict.mem_evictOver, OrderedDict.mem_set]
  exact ⟨h, hkept⟩

/-- What the cache reads after a store is the response stored or an entry from
before. -/
theorem get?_storeIdempotency_eq_some {cache : OrderedDict String PaymentResponse}
    {key k : String} {response r : PaymentResponse}
    (h : (storeIdempotency k response cache).1.get? key = some r) :
    (key = k ∧ r = response) ∨ (key ≠ k ∧ cache.get? key = some r) := by
  simp only [storeIdempotency, OrderedDict.get?_evictOver] at h
  split at h
  · cases h
  · by_cases hkey : key = k
    · rw [hkey, OrderedDict.get?_set_self, Option.some.injEq] at h
      exact Or.inl ⟨hkey, h.symm⟩
    · rw [OrderedDict.get?_set_ne _ hkey] at h
      exact Or.inr ⟨hkey, h⟩

/-- The credentials are valid and the breaker admits the call. -/
def Connector.Ready (c : Connector) (t : StartReadings) : Prop :=
  ∃ manager client, c.credentialManager = some manager ∧
    manager.hasValidCredentials t.check = .ok true ∧ c.gatewayClient = some client ∧
    client.allowed t = true

theorem Connector.ready_iff (c : Connector) (t : StartReadings) :
    c.Ready t ↔ (c.credentialManager.any (fun m => m.hasValidCredentials t.check = .ok true) &&
      c.gatewayClient.any (fun g => g.allowed t)) = true := by
  unfold Connector.Ready
  cases c.credentialManager <;> cases c.gatewayClient <;> simp

instance (c : Connector) (t : StartReadings) : Decidable (c.Ready t) :=
  decidable_of_iff _ (c.ready_iff t).symm

/-- The current credential has a ttl that cannot be a float, so that its status
cannot be read. -/
def Connector.Untimed (c : Connector) : Prop :=
  ∃ manager ∈ c.credentialManager, ∃ credential ∈ manager.getCurrentCredential, ¬ credential.Timed

instance (c : Connector) : Decidable c.Untimed :=
  inferInstanceAs (Decidable (∃ manager ∈ c.credentialManager,
    ∃ credential ∈ manager.getCurrentCredential, ¬ credential.Timed))

/-- The credential check raises exactly on such a credential. -/
theorem Connector.untimed_iff {c : Connector} {manager : CredentialManager}
    (hmanager : c.credentialManager = some manager) (now : Rat) :
    c.Untimed ↔ ∃ exc, manager.hasValidCredentials now = .error exc := by
  rw [manager.hasValidCredentials_error_iff now]
  unfold Connector.Untimed
  simp [hmanager]

/-- A check that returns found a status. -/
theorem Connector.not_untimed_of_ok {c : Connector} {manager : CredentialManager} {now : Rat}
    {valid : Bool} (hmanager : c.credentialManager = some manager)
    (h : manager.hasValidCredentials now = .ok valid) : ¬ c.Untimed := by
  rw [Connector.untimed_iff hmanager now]
  rintro ⟨exc, hexc⟩
  rw [h] at hexc
  cases hexc

/-- The request passes the checks of API key and credentials, so that its key is
looked up in the idempotency cache. -/
def Connector.LooksUp (c : Connector) (request : AuthorizeRequest) (t : StartReadings) : Prop :=
  acceptsApiKey c.settings request.xApiKey = true ∧
    ∃ manager, c.credentialManager = some manager ∧ manager.hasValidCredentials t.check = .ok true

theorem Connector.looksUp_iff (c : Connector) (request : AuthorizeRequest) (t : StartReadings) :
    c.LooksUp request t ↔ (acceptsApiKey c.settings request.xApiKey &&
      c.credentialManager.any (fun m => m.hasValidCredentials t.check = .ok true)) = true := by
  unfold Connector.LooksUp
  cases c.credentialManager <;> simp

instance (c : Connector) (request : AuthorizeRequest) (t : StartReadings) :
    Decidable (c.LooksUp request t) :=
  decidable_of_iff _ (c.looksUp_iff request t).symm

/-- A request that is looked up found a status. -/
theorem Connector.LooksUp.timed {c : Connector} {request : AuthorizeRequest} {t : StartReadings}
    (h : c.LooksUp request t) : ¬ c.Untimed := by
  obtain ⟨-, manager, hmanager, hvalid⟩ := h
  exact Connector.not_untimed_of_ok hmanager hvalid

theorem Connector.Ready.timed {c : Connector} {t : StartReadings} (h : c.Ready t) :
    ¬ c.Untimed := by
  obtain ⟨manager, client, hmanager, hvalid, -⟩ := h
  exact Connector.not_untimed_of_ok hmanager hvalid

/-- The four things the handler can do before it suspends for the first time:
refuse without touching the idempotency cache, let the exception of the
credential check out, replay a cached response, or start the POST with the
current credential. -/
inductive BeginSpec (c : Connector) (request : AuthorizeRequest) (t : StartReadings) :
    Connector × Advance × List Output → Prop
  | refused (client : Option GatewayClient) (code : Nat) (detail : String)
      (outputs : List Output)
      (hclient : client.isSome = c.gatewayClient.isSome)
      (hcode : code = 401 ∨ code = 403 ∨ code = 503)
      (haccepted : acceptsApiKey c.settings request.xApiKey = true →
        code = 503 ∧ ¬ c.Untimed ∧ ¬ c.Ready t)
      (hmiss : c.LooksUp request t →
        c.idempotencyCache.get? request.payment.idempotencyKey = none) :
      BeginSpec c request t
        ({ c with gatewayClient := client }, .replied (.httpException code detail), outputs)
  | raised (manager : CredentialManager) (exc : PyExc)
      (haccepted : acceptsApiKey c.settings request.xApiKey = true)
      (hmanager : c.credentialManager = some manager)
      (huntimed : c.Untimed)
      (hraised : manager.hasValidCredentials t.check = .error exc) :
      BeginSpec c request t (c, .replied (.escaped exc), [])
  | replayed (manager : CredentialManager) (cached : PaymentResponse)
      (haccepted : acceptsApiKey c.settings request.xApiKey = true)
      (hmanager : c.credentialManager = some manager)
      (hvalid : manager.hasValidCredentials t.check = .ok true)
      (hcached : c.idempotencyCache.get? request.payment.idempotencyKey = some cached) :
      BeginSpec c request t
        ({ c with
            idempotencyCache := c.idempotencyCache.moveToEnd request.payment.idempotencyKey },
          .replied (.replay cached), [.log (.idempotencyCacheHit request.payment.idempotencyKey)])
  | posting (manager : CredentialManager) (client client' : GatewayClient) (primary : Credential)
      (haccepted : acceptsApiKey c.settings request.xApiKey = true)
      (hmanager : c.credentialManager = some manager)
      (hvalid : manager.hasValidCredentials t.check = .ok true)
      (hmiss : c.idempotencyCache.get? request.payment.idempotencyKey = none)
      (hclient : c.gatewayClient = some client)
      (hallowed : client.allowed t = true)
      (hprimary : manager.getCurrentCredential = some primary) :
      BeginSpec c request t
        ({ c with gatewayClient := some client', inFlight := c.inFlight + 1 },
          .posting
            { credential := primary
              payload := request.payment
              stage := .primary manager.getFallbackCredential
              startTime := t.send }, [])

@[simp] private theorem leave_enter (settings : Settings)
    (manager : Option CredentialManager) (client : Option GatewayClient)
    (cache : OrderedDict String PaymentResponse) (inFlight : Int) :
    Connector.leave ⟨settings, manager, client, cache, inFlight + 1⟩ =
      ⟨settings, manager, client, cache, inFlight⟩ := by
  simp [Connector.leave]

theorem beginRequest_spec (c : Connector) (request : AuthorizeRequest) (t : StartReadings) :
    BeginSpec c request t (c.beginRequest request t) := by
  obtain ⟨settings, manager?, client?, cache, inFlight⟩ := c
  unfold Connector.beginRequest
  cases hkey : validateApiKey settings request.xApiKey request.requestId with
  | some refusal =>
      obtain ⟨reply, outputs⟩ := refusal
      obtain ⟨code, detail, rfl, hcode⟩ := validateApiKey_refusal hkey
      have hrefused : ¬ acceptsApiKey settings request.xApiKey = true := by
        rw [← validateApiKey_eq_none_iff _ _ request.requestId, hkey]
        simp
      simp only [hkey, leave_enter]
      exact .refused client? code detail outputs rfl
        (hcode.elim Or.inl (fun h => Or.inr (Or.inl h))) (fun h => absurd h hrefused)
        (fun h => absurd h.1 hrefused)
  | none =>
      have haccepted := (validateApiKey_eq_none_iff _ _ _).mp hkey
      simp only [hkey]
      cases manager? with
      | none =>
          have hnot : ¬ Connector.Ready ⟨settings, none, client?, cache, inFlight⟩ t := by
            rintro ⟨manager, client, hmanager, -⟩
            cases hmanager
          have hblocked : ¬ Connector.LooksUp ⟨settings, none, client?, cache, inFlight⟩
              request t := by
            rintro ⟨-, manager, hmanager, -⟩
            cases hmanager
          have htimed : ¬ Connector.Untimed ⟨settings, none, client?, cache, inFlight⟩ := by
            rintro ⟨manager, hmanager, -⟩
            cases hmanager
          simp only [leave_enter]
          exact .refused client? 503 _ _ rfl (Or.inr (Or.inr rfl)) (fun _ => ⟨rfl, htimed, hnot⟩)
            (fun h => absurd h hblocked)
      | some manager =>
          cases hvalid : manager.hasValidCredentials t.check with
          | error exc =>
              simp only [hvalid, leave_enter]
              exact .raised manager exc haccepted rfl
                ((Connector.untimed_iff rfl t.check).mpr ⟨exc, hvalid⟩) hvalid
          | ok valid =>
          have htimed : ¬ Connector.Untimed
              ⟨settings, some manager, client?, cache, inFlight⟩ :=
            Connector.not_untimed_of_ok rfl hvalid
          cases valid with
          | false =>
              have hnot : ¬ Connector.Ready
                  ⟨settings, some manager, client?, cache, inFlight⟩ t := by
                rintro ⟨manager', client, hmanager, hvalid', -⟩
                cases hmanager
                rw [hvalid] at hvalid'
                cases hvalid'
              have hblocked : ¬ Connector.LooksUp
                  ⟨settings, some manager, client?, cache, inFlight⟩ request t := by
                rintro ⟨-, manager', hmanager, hvalid'⟩
                cases hmanager
                rw [hvalid] at hvalid'
                cases hvalid'
              simp only [hvalid, leave_enter]
              exact .refused client? 503 _ _ rfl (Or.inr (Or.inr rfl))
                (fun _ => ⟨rfl, htimed, hnot⟩)
                (fun h => absurd h hblocked)
          | true =>
              simp only [hvalid]
              cases hget : cache.get? request.payment.idempotencyKey with
              | some cached =>
                  simp only [checkIdempotency, hget, leave_enter]
                  exact .replayed manager cached haccepted rfl hvalid hget
              | none =>
                  simp only [checkIdempotency, hget]
                  cases client? with
                  | none =>
                      have hnot : ¬ Connector.Ready ⟨settings, some manager, none, cache, inFlight⟩
                          t := by
                        rintro ⟨manager', client, -, -, hclient, -⟩
                        cases hclient
                      simp only [leave_enter]
                      exact .refused none 503 _ _ rfl (Or.inr (Or.inr rfl))
                        (fun _ => ⟨rfl, htimed, hnot⟩)
                        (fun _ => hget)
                  | some client =>
                      simp only
                      rcases hbegin : client.beginAuthorize manager request.payment t with
                        ⟨client', result⟩
                      cases result with
                      | error error =>
                          have hnot : ¬ Connector.Ready
                              ⟨settings, some manager, some client, cache, inFlight⟩ t := by
                            rintro ⟨manager', client'', hmanager, hvalid', hclient, hallowed⟩
                            cases hmanager
                            cases hclient
                            obtain ⟨c, hc⟩ := CredentialManager.exists_current_of_valid hvalid'
                            rcases GatewayClient.beginAuthorize_error hbegin with h | h
                            · rw [hallowed] at h
                              cases h
                            · rw [hc] at h
                              cases h
                          cases error <;>
                            simp only [Connector.gatewayFailed, leave_enter] <;>
                            exact .refused (some client') 503 _ _ rfl (Or.inr (Or.inr rfl))
                              (fun _ => ⟨rfl, htimed, hnot⟩) (fun _ => hget)
                      | ok pending =>
                          obtain ⟨hallowed, hprimary, hpayload, hstage, hstart⟩ :=
                            GatewayClient.beginAuthorize_ok hbegin
                          obtain ⟨credential, payload, stage, startTime⟩ := pending
                          simp only at hprimary hpayload hstage hstart
                          subst hpayload hstage hstart
                          exact .posting manager client client' credential haccepted rfl
                            hvalid hget rfl hallowed hprimary

/-- What the handler does with the outcome of the gateway call, as a function
of the payment and that outcome alone. -/
def advanceOf (payment : PaymentRequest) (uuid : String) (now : Rat) : Progress → Advance
  | .posting pending => .posting pending
  | .failed (.unavailable _) =>
      .replied (.httpException 503 "Service unavailable: gateway unreachable")
  | .failed (.auth _) => .replied (.httpException 503 "Service unavailable: credential error")
  | .escaped exc => .replied (.escaped exc)
  | .returned body =>
      match buildResponse payment body uuid now with
      | .error exc => .replied (.escaped exc)
      | .ok response => .replied (.ok response)

/-- Whether a gateway answer becomes a 200: neither 401, 403 nor 5xx, a body
that `dict(response.json())` accepts, and no `transaction_id` or a string. -/
def PostOutcome.accepted (outcome : PostOutcome) : Bool :=
  match outcome.attempt with
  | .returned body =>
      match body.get "transaction_id" (.str "") with
      | .str _ => true
      | _ => false
  | _ => false

/-- Whether the completion of a POST makes an exception leave the handler: an
exception outside the HTTP library's own, or an answer that is neither 401, 403
nor 5xx and whose body is not accepted. -/
def PostOutcome.escapes (outcome : PostOutcome) : Bool :=
  match outcome.attempt with
  | .escaped _ => true
  | .returned _ => !outcome.accepted
  | _ => false

theorem buildResponse_ok {payment : PaymentRequest} {body : PyDict} {uuid : String} {now : Rat}
    {response : PaymentResponse} (h : buildResponse payment body uuid now = .ok response) :
    body.get "transaction_id" (.str uuid) = .str response.transactionId ∧
      response.merchantId = payment.merchantId ∧ response.amount = payment.amount ∧
      response.currency = payment.currency := by
  unfold buildResponse at h
  split at h
  · rename_i transactionId hget
    cases h
    exact ⟨hget, rfl, rfl, rfl⟩
  · cases h

/-- The default of `get` only decides what an absent key reads. -/
private theorem get_str_or {d : PyDict} {key : String} (s s' : String) :
    (∃ r, d.get key (.str s) = .str r) ↔ ∃ r, d.get key (.str s') = .str r := by
  unfold PyDict.get
  cases d.find? key with
  | none => simp
  | some x => simp

private theorem accepted_iff {outcome : PostOutcome} {body : PyDict}
    (h : outcome.attempt = .returned body) (uuid : String) :
    outcome.accepted = true ↔ ∃ r, body.get "transaction_id" (.str uuid) = .str r := by
  rw [get_str_or uuid ""]
  simp only [PostOutcome.accepted, h]
  split
  · rename_i r hr
    exact ⟨fun _ => ⟨r, hr⟩, fun _ => rfl⟩
  · rename_i hr
    simp only [Bool.false_eq_true, false_iff, not_exists]
    exact fun r h' => hr r h'

private theorem buildResponse_error {payment : PaymentRequest} {body : PyDict} {uuid : String}
    {now : Rat} {exc : PyExc} (h : buildResponse payment body uuid now = .error exc) :
    ¬ ∃ r, body.get "transaction_id" (.str uuid) = .str r := by
  rintro ⟨r, hr⟩
  simp [buildResponse, hr] at h

/-- The four ways a handler can go on after a POST, each with the kind of
completion that leads to it. -/
inductive AdvanceSpec (payment : PaymentRequest) (p : Pending) (outcome : PostOutcome)
    (uuid : String) (t : AnswerReadings) : Advance → Prop
  | stored (body : PyDict) (response : PaymentResponse)
      (haccepted : outcome.accepted = true)
      (hbody : outcome.attempt = .returned body)
      (hbuild : buildResponse payment body uuid t.stamp = .ok response) :
      AdvanceSpec payment p outcome uuid t (.replied (.ok response))
  | refused (detail : String)
      (haccepted : outcome.accepted = false) (hescapes : outcome.escapes = false)
      (hlast : outcome.attempt = .rejected →
        ∀ credential, p.stage = .primary (some credential) →
          credential.oid = p.credential.oid) :
      AdvanceSpec payment p outcome uuid t (.replied (.httpException 503 detail))
  | escaped (exc : PyExc)
      (haccepted : outcome.accepted = false) (hescapes : outcome.escapes = true)
      (hrejected : outcome.attempt ≠ .rejected) :
      AdvanceSpec payment p outcome uuid t (.replied (.escaped exc))
  | fallback (credential : Credential)
      (hrejected : outcome.attempt = .rejected)
      (hstage : p.stage = .primary (some credential))
      (hoid : credential.oid ≠ p.credential.oid) :
      AdvanceSpec payment p outcome uuid t
        (.posting { p with credential := credential, stage := .fallback, startTime := t.send })

private theorem accepted_of_attempt {outcome : PostOutcome}
    (h : ∀ body, outcome.attempt ≠ .returned body) : outcome.accepted = false := by
  unfold PostOutcome.accepted
  cases ha : outcome.attempt with
  | returned body => exact absurd ha (h body)
  | rejected => rfl
  | unavailable text => rfl
  | escaped exc => rfl

theorem advanceOf_spec (payment : PaymentRequest) (p : Pending) (outcome : PostOutcome)
    (uuid : String) (t : AnswerReadings) :
    AdvanceSpec payment p outcome uuid t
      (advanceOf payment uuid t.stamp (p.progress outcome t)) := by
  cases hattempt : outcome.attempt with
  | returned body =>
      simp only [Pending.progress, hattempt, advanceOf]
      cases hbuild : buildResponse payment body uuid t.stamp with
      | error exc =>
          have hacc : outcome.accepted = false :=
            Bool.eq_false_iff.mpr fun h =>
              buildResponse_error hbuild ((accepted_iff hattempt uuid).mp h)
          exact .escaped exc hacc (by simp [PostOutcome.escapes, hattempt, hacc])
            (by simp [hattempt])
      | ok response =>
          have hget := (buildResponse_ok hbuild).1
          exact .stored body response ((accepted_iff hattempt uuid).mpr ⟨_, hget⟩) hattempt hbuild
  | rejected =>
      have hacc : outcome.accepted = false := accepted_of_attempt (by simp [hattempt])
      have hesc : outcome.escapes = false := by simp [PostOutcome.escapes, hattempt]
      simp only [Pending.progress, hattempt]
      rcases hstage : p.stage with ⟨_ | credential⟩ | _
      · exact .refused _ hacc hesc (fun _ _ h => by rw [hstage] at h; cases h)
      · by_cases hoid : credential.oid ≠ p.credential.oid
        · simp only [hoid, not_false_eq_true, ne_eq, if_true]
          exact .fallback credential hattempt hstage hoid
        · simp only [if_neg hoid]
          refine .refused _ hacc hesc ?_
          intro _ credential' h
          rw [hstage] at h
          cases h
          exact not_not.mp hoid
      · exact .refused _ hacc hesc (fun _ _ h => by rw [hstage] at h; cases h)
  | unavailable text =>
      simp only [Pending.progress, hattempt]
      exact .refused _ (accepted_of_attempt (by simp [hattempt]))
        (by simp [PostOutcome.escapes, hattempt]) (fun h => by rw [hattempt] at h; cases h)
  | escaped exc =>
      simp only [Pending.progress, hattempt]
      exact .escaped exc (accepted_of_attempt (by simp [hattempt]))
        (by simp [PostOutcome.escapes, hattempt]) (by simp [hattempt])

/-- The cache after a stretch of the handler that ends in `advance`, and the
keys it evicted: only a fresh 200 stores. -/
def storeAdvance (key : String) (cache : OrderedDict String PaymentResponse) :
    Advance → OrderedDict String PaymentResponse × List String
  | .replied (.ok response) => storeIdempotency key response cache
  | _ => (cache, [])

theorem storeAdvance_ok (key : String) (cache : OrderedDict String PaymentResponse)
    (response : PaymentResponse) :
    storeAdvance key cache (.replied (.ok response)) = storeIdempotency key response cache := by
  simp only [storeAdvance]

theorem storeAdvance_of_ne_ok {key : String} {cache : OrderedDict String PaymentResponse}
    {advance : Advance} (h : ∀ response, advance ≠ .replied (.ok response)) :
    storeAdvance key cache advance = (cache, []) := by
  unfold storeAdvance
  split
  · rename_i response
    exact absurd rfl (h response)
  · rfl

/-- After a POST the handler does what `advanceOf` says, stores what
`storeAdvance` says and leaves the settings and the manager alone. -/
theorem resumeRequest_spec (c : Connector) (client : GatewayClient) (payment : PaymentRequest)
    (p : Pending) (outcome : PostOutcome) (uuid : String) (t : AnswerReadings) :
    ∃ client' inFlight outputs,
      c.resumeRequest client payment p outcome uuid t =
        ({ c with
            gatewayClient := some client'
            idempotencyCache := (storeAdvance payment.idempotencyKey c.idempotencyCache
              (advanceOf payment uuid t.stamp (p.progress outcome t))).1
            inFlight := inFlight },
          advanceOf payment uuid t.stamp (p.progress outcome t), outputs,
          (storeAdvance payment.idempotencyKey c.idempotencyCache
            (advanceOf payment uuid t.stamp (p.progress outcome t))).2) := by
  have hprogress := client.resumeAuthorize_progress p outcome t
  unfold Connector.resumeRequest
  rw [← hprogress]
  rcases client.resumeAuthorize p outcome t with ⟨client', progress, outputs⟩
  cases progress with
  | posting pending => exact ⟨client', _, _, rfl⟩
  | failed error => cases error <;> exact ⟨client', _, _, rfl⟩
  | escaped exc => exact ⟨client', _, _, rfl⟩
  | returned body =>
      simp only [Connector.finishRequest, advanceOf]
      cases hbuild : buildResponse payment body uuid t.stamp with
      | error exc => exact ⟨client', _, _, rfl⟩
      | ok response =>
          refine ⟨client', c.inFlight - 1, outputs ++ [], ?_⟩
          simp only [storeAdvance, Connector.leave]

/-! ## What the handler asks of the classes -/

/-- The manager with which the handler calls the gateway client: the one that it finds, where
the request passes the checks of API key and credentials and its key is not cached. -/
def Connector.callsWith? (c : Connector) (request : AuthorizeRequest) (t : StartReadings) :
    Option CredentialManager :=
  if c.LooksUp request t ∧ ¬ request.payment.idempotencyKey ∈ c.idempotencyCache then
    c.credentialManager
  else none

/-- What the first stretch of the handler asks of the gateway client: nothing, or the start of
a call, whose refusal it answers and whose POST it awaits. -/
inductive Asks (c : Connector) (client : GatewayClient) (request : AuthorizeRequest)
    (t : StartReadings) : Option GatewayClient → Advance → Prop
  | nothing (reply : Reply) (hnone : c.callsWith? request t = none) :
      Asks c client request t (some client) (.replied reply)
  | refused (manager : CredentialManager) (client' : GatewayClient) (error : GatewayError)
      (reply : Reply) (hmanager : c.callsWith? request t = some manager)
      (hbegin : client.beginAuthorize manager request.payment t = (client', .error error)) :
      Asks c client request t (some client') (.replied reply)
  | call (manager : CredentialManager) (client' : GatewayClient) (pending : Pending)
      (hmanager : c.callsWith? request t = some manager)
      (hbegin : client.beginAuthorize manager request.payment t = (client', .ok pending)) :
      Asks c client request t (some client') (.posting pending)

theorem beginRequest_asks {c : Connector} {client : GatewayClient}
    (hclient : c.gatewayClient = some client) (request : AuthorizeRequest) (t : StartReadings) :
    Asks c client request t (c.beginRequest request t).1.gatewayClient
      (c.beginRequest request t).2.1 := by
  have hnothing : ∀ reply,
      ¬ (c.LooksUp request t ∧ ¬ request.payment.idempotencyKey ∈ c.idempotencyCache) →
      Asks c client request t c.gatewayClient (.replied reply) := by
    intro reply hnot
    rw [hclient]
    exact .nothing reply (if_neg hnot)
  unfold Connector.beginRequest
  dsimp only
  split
  · rename_i reply outputs hrefused
    refine hnothing _ fun h => ?_
    rw [(validateApiKey_eq_none_iff _ _ _).mpr h.1.1] at hrefused
    cases hrefused
  · rename_i haccepted
    rw [validateApiKey_eq_none_iff] at haccepted
    split
    · rename_i hnone
      refine hnothing _ fun h => ?_
      obtain ⟨manager, hmanager, -⟩ := h.1.2
      rw [hnone] at hmanager
      cases hmanager
    · rename_i manager hmanager
      have hsame : ∀ manager', c.credentialManager = some manager' → manager' = manager :=
        fun manager' h => Option.some.inj (h.symm.trans hmanager)
      split
      · rename_i exc hraised
        refine hnothing _ fun h => ?_
        obtain ⟨manager', hmanager', hvalid⟩ := h.1.2
        rw [hsame manager' hmanager', hraised] at hvalid
        cases hvalid
      · rename_i hinvalid
        refine hnothing _ fun h => ?_
        obtain ⟨manager', hmanager', hvalid⟩ := h.1.2
        rw [hsame manager' hmanager', hinvalid] at hvalid
        cases hvalid
      · rename_i hvalid
        split
        · rename_i cached cache hhit
          have hget := checkIdempotency_fst request.payment.idempotencyKey c.idempotencyCache
          rw [hhit] at hget
          exact hnothing _ fun h => h.2 (OrderedDict.mem_of_get?_eq_some hget.symm)
        · rename_i cache hmiss
          have hget := checkIdempotency_fst request.payment.idempotencyKey c.idempotencyCache
          rw [hmiss] at hget
          have hcalls : c.callsWith? request t = some manager :=
            (if_pos ⟨⟨haccepted, manager, hmanager, hvalid⟩,
              (OrderedDict.get?_eq_none_iff _ _).mp hget.symm⟩).trans hmanager
          split
          · rename_i hnone
            rw [hclient] at hnone
            cases hnone
          · rename_i client' hclient'
            rw [hclient, Option.some.injEq] at hclient'
            subst hclient'
            split
            · rename_i client'' pending hbegin
              exact .call manager client'' pending hcalls hbegin
            · rename_i client'' error hbegin
              cases error <;> exact .refused manager client'' _ _ hcalls hbegin

/-- What the end of the handler does to the two classes: one call resumed. -/
theorem Connector.resumeRequest_classes (c : Connector) (client : GatewayClient)
    (payment : PaymentRequest) (p : Pending) (outcome : PostOutcome) (uuid : String)
    (t : AnswerReadings) :
    (c.resumeRequest client payment p outcome uuid t).1.credentialManager = c.credentialManager ∧
      (c.resumeRequest client payment p outcome uuid t).1.gatewayClient =
        some (client.resumeAuthorize p outcome t).1 := by
  unfold resumeRequest
  rcases client.resumeAuthorize p outcome t with ⟨client', progress, outputs⟩
  cases progress with
  | posting pending => exact ⟨rfl, rfl⟩
  | failed error => cases error <;> exact ⟨rfl, rfl⟩
  | escaped exc => exact ⟨rfl, rfl⟩
  | returned body =>
      simp only [finishRequest]
      split <;> exact ⟨rfl, rfl⟩

end PaymentConnector
