import PaymentConnector.Breaker
import PaymentConnector.Process

/-!
# The gate in front of the gateway

A request gets as far as a POST only through all four checks of the handler:
its API key, the current credential, the idempotency cache and the breaker.
The fallback POST of a request is covered by the checks made on its arrival.
A request that is refused has changed nothing but the state a breaker shows
when it is read, and the gateway client's own check for a missing credential
never fails: it comes after the handler's, with no suspension in between.

## Main results

* `request_posts_iff` — a request is posted exactly when it passes the gate.
* `request_refused_unchanged` — what a refusal leaves as it was.
* `failClosedGate` — both over whole runs, and the branch that is never taken.
-/

namespace PaymentConnector

open Library Library.Machine

/-! ## The four checks -/

/-- The request passes every check between its arrival and the first POST. -/
structure Connector.PassesGate (c : Connector) (request : AuthorizeRequest)
    (t : StartReadings) : Prop where
  apiKey : ∃ key, request.xApiKey = some key ∧ key ≠ "" ∧ key ∈ c.settings.apiKeys
  credential : ∃ manager credential, c.credentialManager = some manager ∧
    manager.getCurrentCredential = some credential ∧
      (manager.credentialStatus t.check = .ok .valid ∨
        manager.credentialStatus t.check = .ok .expiringSoon)
  notCached : ¬ request.key ∈ c.idempotencyCache
  breaker : ∃ client, c.gatewayClient = some client ∧ client.allowed t = true

theorem acceptsApiKey_iff (settings : Settings) (apiKey : Option String) :
    acceptsApiKey settings apiKey = true ↔
      ∃ key, apiKey = some key ∧ key ≠ "" ∧ key ∈ settings.apiKeys := by
  cases apiKey with
  | none => simp [acceptsApiKey]
  | some key => simp [acceptsApiKey]

theorem CredentialManager.hasValidCredentials_iff_status (m : CredentialManager) (now : Rat) :
    m.hasValidCredentials now = .ok true ↔
      m.credentialStatus now = .ok .valid ∨ m.credentialStatus now = .ok .expiringSoon := by
  unfold hasValidCredentials
  cases m.credentialStatus now with
  | error exc => simp
  | ok status => simp

/-- Through the gate, the client is ready. -/
theorem Connector.PassesGate.ready {c : Connector} {request : AuthorizeRequest}
    {t : StartReadings} (h : c.PassesGate request t) : c.Ready t := by
  obtain ⟨manager, credential, hmanager, -, hstatus⟩ := h.credential
  obtain ⟨client, hclient, hallowed⟩ := h.breaker
  exact ⟨manager, client, hmanager, (manager.hasValidCredentials_iff_status _).mpr hstatus,
    hclient, hallowed⟩

/-- On the arrival of a request a POST is issued exactly when the request
passes the gate. -/
theorem request_posts_iff {p p' : Process} {rid : Nat} {request : AuthorizeRequest}
    {t : StartReadings} {obs : List Obs}
    (hstep : p.step (.request rid request t) = some (p', obs)) :
    (∃ rid' payment pending, .posted rid' payment pending ∈ obs) ↔
      p.connector.PassesGate request t := by
  cases step_spec hstep with
  | refused rid request t client code detail outputs hseen hclient hcode haccepted =>
      constructor
      · intro h
        obtain ⟨rid', payment, pending, hin⟩ := h
        simp at hin
      · intro h
        have hkey := (acceptsApiKey_iff _ _).mpr h.apiKey
        exact absurd h.ready (haccepted hkey).2.2
  | raised rid request t exc outputs hseen haccepted huntimed =>
      constructor
      · intro h
        obtain ⟨rid', payment, pending, hin⟩ := h
        simp at hin
      · exact fun h => absurd huntimed h.ready.timed
  | replayed rid request t manager cached outputs hseen haccepted hmanager hvalid hcached =>
      constructor
      · intro h
        obtain ⟨rid', payment, pending, hin⟩ := h
        simp at hin
      · intro h
        exact absurd (OrderedDict.mem_of_get?_eq_some hcached) h.notCached
  | posting rid request t manager client primary hseen haccepted hmanager hvalid hmiss hready
      hprimary =>
      constructor
      · intro _
        obtain ⟨-, client', -, -, hclient, hallowed⟩ := hready
        exact
          { apiKey := (acceptsApiKey_iff _ _).mp haccepted
            credential := ⟨manager, primary, hmanager, hprimary,
              (manager.hasValidCredentials_iff_status _).mp hvalid⟩
            notCached := (OrderedDict.get?_eq_none_iff _ _).mp hmiss
            breaker := ⟨client', hclient, hallowed⟩ }
      · intro _
        exact ⟨rid, request.payment, _, List.mem_singleton.mpr rfl⟩

/-! ## Refusals -/

/-- The failure count of the client's breaker. -/
def Connector.failureCount? (c : Connector) : Option Nat :=
  c.gatewayClient.map (fun client => client.circuitBreaker.failureCount)

/-- Up to its first POST a call reads the breaker and records nothing. -/
theorem GatewayClient.beginAuthorize_failureCount (g : GatewayClient) (m : CredentialManager)
    (payload : PaymentRequest) (t : StartReadings) :
    (g.beginAuthorize m payload t).1.circuitBreaker.failureCount =
      g.circuitBreaker.failureCount := by
  simp only [beginAuthorize, updateCircuitBreakerMetric, CircuitBreaker.allowsRequest_eq]
  split
  · simp
  · cases m.getCurrentCredential <;> simp

theorem Connector.gatewayFailed_gatewayClient (c : Connector) (error : GatewayError) :
    (c.gatewayFailed error).1.gatewayClient = c.gatewayClient := by
  cases error <;> rfl

theorem Connector.beginRequest_failureCount (c : Connector) (request : AuthorizeRequest)
    (t : StartReadings) : (c.beginRequest request t).1.failureCount? = c.failureCount? := by
  unfold beginRequest
  dsimp only
  split
  · rfl
  · split
    · rfl
    · rename_i manager hmanager
      split
      · rfl
      · rfl
      · split
        · rfl
        · split
          · rfl
          · rename_i client hclient
            have hcount := client.beginAuthorize_failureCount manager request.payment t
            have hbefore : c.failureCount? = some client.circuitBreaker.failureCount := by
              rw [failureCount?, hclient]
              rfl
            rw [hbefore, ← hcount]
            split
            · rename_i client' pending hbegin
              rw [hbegin]
              rfl
            · rename_i client' error hbegin
              rw [hbegin, failureCount?, gatewayFailed_gatewayClient]
              rfl

/-- A request that is refused before a POST, be it by an exception, leaves the
manager, the idempotency cache and the breaker's failure count as they were. -/
theorem request_refused_unchanged {p p' : Process} {rid : Nat} {request : AuthorizeRequest}
    {t : StartReadings} {obs : List Obs} {reply : Reply}
    (hstep : p.step (.request rid request t) = some (p', obs))
    (hreply : .replied rid request reply ∈ obs) (hrefused : reply.body? = none) :
    p'.connector.credentialManager = p.connector.credentialManager ∧
      p'.connector.idempotencyCache = p.connector.idempotencyCache ∧
        p'.connector.failureCount? = p.connector.failureCount? := by
  have hcount : p'.connector.failureCount? = p.connector.failureCount? := by
    have hbegin := p.connector.beginRequest_failureCount request t
    simp only [Process.step] at hstep
    split at hstep
    · cases hstep
    · simp only [Option.some.injEq, Prod.mk.injEq] at hstep
      rw [← hstep.1]
      exact hbegin
  cases step_spec hstep with
  | refused => exact ⟨rfl, rfl, hcount⟩
  | raised => exact ⟨rfl, rfl, hcount⟩
  | replayed rid request t manager cached =>
      have hsame : reply = .replay cached := by simpa using hreply
      rw [hsame] at hrefused
      cases hrefused
  | posting => simp at hreply

/-! ## The branch that is never taken -/

/-- What the handler logs when the gateway client finds no credential. -/
def noCredentials : Output := .log (.gatewayAuthError "No credentials available")

theorem install_not_noCredentials (path : String) (m : CredentialManager) (c : Credential)
    (t : LoadReadings) : ¬ noCredentials ∈ (m.install path c t).2.1 := by
  unfold CredentialManager.install
  dsimp only
  split
  · simp [CredentialManager.remember, noCredentials]
  · dsimp only [CredentialManager.announce]
    split <;> simp [CredentialManager.remember, noCredentials]

theorem processSecret_not_noCredentials (path : String) (m : CredentialManager)
    (secret : SecretData) (t : LoadReadings) :
    ¬ noCredentials ∈ (m.processSecret path secret t).2.1 := by
  unfold CredentialManager.processSecret
  split
  · exact List.not_mem_nil
  · simp [noCredentials]
  · simp [noCredentials]
  · exact install_not_noCredentials path m _ t

theorem rescue_not_noCredentials {path : String}
    {r : CredentialManager × List Output × Except PyExc Bool} (h : ¬ noCredentials ∈ r.2.1) :
    ¬ noCredentials ∈ (CredentialManager.rescue path r).2.2 := by
  obtain ⟨m, outputs, result⟩ := r
  cases result with
  | ok result => exact h
  | error exc =>
      simp only [CredentialManager.rescue, CredentialManager.loadFailed, List.mem_append, not_or]
      exact ⟨h, by simp [noCredentials]⟩

theorem loadCredentials_not_noCredentials (path : String) (m : CredentialManager)
    (read : VaultRead) (t : LoadReadings) :
    ¬ noCredentials ∈ (m.loadCredentials path read t).2.2 := by
  unfold CredentialManager.loadCredentials
  split
  · simp [noCredentials, CredentialManager.loadFailed]
  · exact rescue_not_noCredentials (processSecret_not_noCredentials path m _ t)

theorem validateApiKey_not_noCredentials {settings : Settings} {apiKey : Option String}
    {requestId : String} {reply : Reply} {outputs : List Output}
    (h : validateApiKey settings apiKey requestId = some (reply, outputs)) :
    ¬ noCredentials ∈ outputs := by
  unfold validateApiKey at h
  repeat' split at h
  all_goals cases h
  all_goals simp [noCredentials]

/-- With valid credentials, the client's call fails on the breaker alone. -/
theorem GatewayClient.beginAuthorize_unavailable {g g' : GatewayClient} {m : CredentialManager}
    {payload : PaymentRequest} {t : StartReadings} {error : GatewayError}
    (hvalid : m.hasValidCredentials t.check = .ok true)
    (h : g.beginAuthorize m payload t = (g', .error error)) :
    ∃ text, error = .unavailable text := by
  obtain ⟨c, hc⟩ := CredentialManager.exists_current_of_valid hvalid
  simp only [beginAuthorize, hc] at h
  split at h
  · cases h
    exact ⟨_, rfl⟩
  · cases h

theorem Connector.beginRequest_not_noCredentials (c : Connector) (request : AuthorizeRequest)
    (t : StartReadings) : ¬ noCredentials ∈ (c.beginRequest request t).2.2 := by
  unfold beginRequest
  dsimp only
  split
  · rename_i reply outputs hrefused
    exact validateApiKey_not_noCredentials hrefused
  · split
    · exact List.not_mem_nil
    · rename_i manager hmanager
      split
      · exact List.not_mem_nil
      · exact List.not_mem_nil
      · rename_i hvalid
        split
        · simp [noCredentials]
        · split
          · exact List.not_mem_nil
          · split
            · exact List.not_mem_nil
            · rename_i client' error hbegin
              obtain ⟨text, rfl⟩ := GatewayClient.beginAuthorize_unavailable hvalid hbegin
              simp [gatewayFailed, noCredentials]

theorem GatewayClient.failRequest_not_noCredentials (g : GatewayClient) (label : String)
    (t : AnswerReadings) : ¬ noCredentials ∈ (g.failRequest label t).2 := by
  simp only [failRequest, CircuitBreaker.recordFailure]
  repeat' split
  all_goals simp [noCredentials]

theorem GatewayClient.tryAuthorize_not_noCredentials (g : GatewayClient)
    (credential : Credential) (startTime : Rat) (outcome : PostOutcome) (t : AnswerReadings) :
    ¬ noCredentials ∈ (g.tryAuthorize credential startTime outcome t).2.2 := by
  cases outcome with
  | response statusCode json =>
      simp only [tryAuthorize]
      repeat' split
      · simp [noCredentials]
      · exact failRequest_not_noCredentials _ (toString statusCode) _
      all_goals exact List.not_mem_nil
  | timeout error =>
      simp only [tryAuthorize, List.mem_append, not_or]
      exact ⟨failRequest_not_noCredentials _ _ _, by simp [noCredentials]⟩
  | httpError error =>
      simp only [tryAuthorize, List.mem_append, not_or]
      exact ⟨failRequest_not_noCredentials _ _ _, by simp [noCredentials]⟩
  | raised exc => exact List.not_mem_nil

theorem GatewayClient.resumeAuthorize_not_noCredentials (g : GatewayClient) (p : Pending)
    (outcome : PostOutcome) (t : AnswerReadings) :
    ¬ noCredentials ∈ (g.resumeAuthorize p outcome t).2.2 := by
  have htry := g.tryAuthorize_not_noCredentials p.credential p.startTime outcome t
  unfold resumeAuthorize
  generalize g.tryAuthorize p.credential p.startTime outcome t = r at htry ⊢
  obtain ⟨g', attempt, outputs⟩ := r
  cases attempt with
  | returned body => exact htry
  | unavailable text => exact htry
  | escaped exc => exact htry
  | rejected =>
      dsimp only at htry ⊢
      split
      · split
        · simpa [noCredentials] using htry
        · simpa [allRejected, noCredentials] using htry
      · simpa [allRejected, noCredentials] using htry

/-- A call that got to a POST never fails for want of a credential. -/
theorem Pending.progress_auth {p : Pending} {outcome : PostOutcome} {t : AnswerReadings}
    {text : String} (h : p.progress outcome t = .failed (.auth text)) :
    text = "All credentials were rejected by the gateway" := by
  unfold progress at h
  repeat' split at h
  all_goals cases h
  all_goals rfl

theorem Connector.resumeRequest_not_noCredentials (c : Connector) (client : GatewayClient)
    (payment : PaymentRequest) (p : Pending) (outcome : PostOutcome) (uuid : String)
    (t : AnswerReadings) :
    ¬ noCredentials ∈ (c.resumeRequest client payment p outcome uuid t).2.2.1 := by
  have hresume := client.resumeAuthorize_not_noCredentials p outcome t
  have hprogress := client.resumeAuthorize_progress p outcome t
  unfold resumeRequest
  generalize client.resumeAuthorize p outcome t = r at hresume hprogress ⊢
  obtain ⟨client', progress, outputs⟩ := r
  dsimp only at hresume hprogress ⊢
  rw [List.mem_append, not_or]
  refine ⟨hresume, ?_⟩
  cases progress with
  | posting pending => exact List.not_mem_nil
  | failed error =>
      cases error with
      | unavailable text => simp [finishRequest, gatewayFailed, noCredentials]
      | auth text =>
          have htext := Pending.progress_auth hprogress.symm
          simp [finishRequest, gatewayFailed, noCredentials, htext]
  | escaped exc => exact List.not_mem_nil
  | returned body =>
      simp only [finishRequest]
      split <;> exact List.not_mem_nil

private theorem not_output_mem_map {output : Output} {outputs : List Output}
    (h : ¬ output ∈ outputs) : ¬ .output output ∈ outputs.map Obs.output := by
  intro hin
  obtain ⟨output', hmem, heq⟩ := List.mem_map.mp hin
  rw [Obs.output.injEq] at heq
  rw [heq] at hmem
  exact h hmem

private theorem not_output_mem_advanceObs (output : Output) (rid : Nat)
    (request : AuthorizeRequest) (advance : Advance) :
    ¬ .output output ∈ advanceObs rid request advance := by
  unfold advanceObs
  split <;> simp

/-- No step takes the branch. -/
theorem step_not_noCredentials {p p' : Process} {e : Event} {obs : List Obs}
    (hstep : p.step e = some (p', obs)) : ¬ .output noCredentials ∈ obs := by
  cases e with
  | load read t =>
      simp only [Process.step] at hstep
      split at hstep
      · cases hstep
      · rename_i manager hmanager
        simp only [Option.some.injEq, Prod.mk.injEq] at hstep
        rw [← hstep.2, List.mem_append, not_or]
        exact ⟨not_output_mem_map (loadCredentials_not_noCredentials _ _ _ _), by simp⟩
  | request rid request t =>
      simp only [Process.step] at hstep
      split at hstep
      · cases hstep
      · simp only [Option.some.injEq, Prod.mk.injEq] at hstep
        rw [← hstep.2, List.mem_append, not_or]
        exact ⟨not_output_mem_map (p.connector.beginRequest_not_noCredentials request t),
          not_output_mem_advanceObs _ _ _ _⟩
  | answer rid outcome uuid t =>
      simp only [Process.step] at hstep
      split at hstep
      · rename_i client h hclient hfind
        simp only [Option.some.injEq, Prod.mk.injEq] at hstep
        rw [← hstep.2, List.mem_append, not_or]
        refine ⟨not_output_mem_map (p.connector.resumeRequest_not_noCredentials client
          h.request.payment h.pending outcome uuid t), ?_⟩
        rw [List.mem_cons, not_or, List.mem_append, not_or]
        exact ⟨by simp, by simp, not_output_mem_advanceObs _ _ _ _⟩
      · cases hstep

/-! ## Whole runs -/

/-- In the run the request arrived under the given name and passed the gate. -/
def Passed (p₀ : Process) (es : List Event) (rid : Nat) (request : AuthorizeRequest) : Prop :=
  ∃ es₁ t es₂ p tr, es = es₁ ++ .request rid request t :: es₂ ∧
    run Process.step p₀ es₁ = some (p, tr) ∧ p.connector.PassesGate request t

theorem Passed.append {p₀ : Process} {es : List Event} {rid : Nat} {request : AuthorizeRequest}
    (h : Passed p₀ es rid request) (fs : List Event) : Passed p₀ (es ++ fs) rid request := by
  obtain ⟨es₁, t, es₂, p, tr, rfl, hrun, hgate⟩ := h
  exact ⟨es₁, t, es₂ ++ fs, p, tr, by simp, hrun, hgate⟩

/-- Suspended handlers and POSTs belong to requests that passed the gate. -/
structure GatedBy (p₀ : Process) (es : List Event) (p : Process) (tr : List Obs) : Prop where
  waiting : ∀ h ∈ p.waiting, Passed p₀ es h.rid h.request
  posted : ∀ rid payment pending, .posted rid payment pending ∈ tr →
    ∃ request, request.payment = payment ∧ Passed p₀ es rid request

theorem start_gatedBy (settings : Settings) (manager : CredentialManager) :
    GatedBy (Process.start settings manager) [] (Process.start settings manager) [] where
  waiting := fun _ hin => absurd hin List.not_mem_nil
  posted := fun _ _ _ hin => absurd hin List.not_mem_nil

/-- POSTs that a step shows are of its own request or of a suspended handler. -/
private theorem posted_of_step {p p' : Process} {e : Event} {obs : List Obs} {rid : Nat}
    {payment : PaymentRequest} {pending : Pending} (hstep : p.step e = some (p', obs))
    (hin : .posted rid payment pending ∈ obs) :
    (∃ request t, e = .request rid request t ∧ request.payment = payment ∧
        p.connector.PassesGate request t) ∨
      ∃ h ∈ p.waiting, h.rid = rid ∧ h.request.payment = payment := by
  cases step_spec hstep with
  | load => simp at hin
  | refused => simp at hin
  | raised => simp at hin
  | replayed => simp at hin
  | posting rid' request t =>
      have hgate := (request_posts_iff hstep).mp ⟨rid, payment, pending, hin⟩
      rw [List.mem_singleton, Obs.posted.injEq] at hin
      obtain ⟨rfl, rfl, -⟩ := hin
      exact Or.inl ⟨request, t, rfl, rfl, hgate⟩
  | stored => simp [storedObs] at hin
  | failed => simp at hin
  | fallback h outcome uuid t client inFlight outputs credential hmem =>
      have hposted : rid = h.rid ∧ payment = h.request.payment ∧
          pending = ⟨credential, h.pending.payload, .fallback, t.send⟩ := by simpa using hin
      exact Or.inr ⟨h, hmem, hposted.1.symm, hposted.2.1.symm⟩

/-- Suspended handlers were suspended before or have just been. -/
private theorem waiting_of_step {p p' : Process} {e : Event} {obs : List Obs} {h : Handler}
    (hstep : p.step e = some (p', obs)) (hin : h ∈ p'.waiting) :
    (∃ t, e = .request h.rid h.request t ∧ p.connector.PassesGate h.request t) ∨
      ∃ h' ∈ p.waiting, h'.rid = h.rid ∧ h'.request = h.request := by
  cases step_spec hstep with
  | load => exact Or.inr ⟨h, hin, rfl, rfl⟩
  | refused => exact Or.inr ⟨h, hin, rfl, rfl⟩
  | raised => exact Or.inr ⟨h, hin, rfl, rfl⟩
  | replayed => exact Or.inr ⟨h, hin, rfl, rfl⟩
  | posting rid request t =>
      rcases List.mem_append.mp hin with hold | hnew
      · exact Or.inr ⟨h, hold, rfl, rfl⟩
      · have hgate := (request_posts_iff hstep).mp ⟨rid, request.payment, _,
          List.mem_singleton.mpr rfl⟩
        rw [List.mem_singleton.mp hnew]
        exact Or.inl ⟨t, rfl, hgate⟩
  | stored => exact Or.inr ⟨h, (mem_filter_rid hin).1, rfl, rfl⟩
  | failed => exact Or.inr ⟨h, (mem_filter_rid hin).1, rfl, rfl⟩
  | fallback h' outcome uuid t client inFlight outputs credential hmem =>
      rcases List.mem_append.mp hin with hold | hnew
      · exact Or.inr ⟨h, (mem_filter_rid hold).1, rfl, rfl⟩
      · rw [List.mem_singleton.mp hnew]
        exact Or.inr ⟨h', hmem, rfl, rfl⟩

private theorem step_gatedBy {p₀ p p' : Process} {es : List Event} {e : Event}
    {tr obs : List Obs} (hrun : run Process.step p₀ es = some (p, tr))
    (h : GatedBy p₀ es p tr) (hstep : p.step e = some (p', obs)) :
    GatedBy p₀ (es ++ [e]) p' (tr ++ obs) where
  waiting := by
    intro handler hin
    rcases waiting_of_step hstep hin with ⟨t, rfl, hgate⟩ | ⟨handler', hmem, hrid, hrequest⟩
    · exact ⟨es, t, [], p, tr, rfl, hrun, hgate⟩
    · rw [← hrid, ← hrequest]
      exact (h.waiting handler' hmem).append [e]
  posted := by
    intro rid payment pending hin
    rcases List.mem_append.mp hin with hold | hnew
    · obtain ⟨request, hpayment, hpassed⟩ := h.posted rid payment pending hold
      exact ⟨request, hpayment, hpassed.append [e]⟩
    · rcases posted_of_step hstep hnew with ⟨request, t, rfl, hpayment, hgate⟩ |
        ⟨handler, hmem, hrid, hpayment⟩
      · exact ⟨request, hpayment, es, t, [], p, tr, rfl, hrun, hgate⟩
      · have hpassed := (h.waiting handler hmem).append [e]
        rw [hrid] at hpassed
        exact ⟨handler.request, hpayment, hpassed⟩

/-- In every run: a POST is issued only for a request that passed the gate on
its arrival; in every state reached, a request that is refused leaves the
manager, the idempotency cache and the breaker's failure count as they were;
and the gateway client never fails for want of a credential. -/
theorem failClosedGate (settings : Settings) (manager : CredentialManager) (es : List Event)
    (p : Process) (tr : List Obs)
    (hrun : run Process.step (Process.start settings manager) es = some (p, tr)) :
    (∀ rid payment pending, .posted rid payment pending ∈ tr →
        ∃ request, request.payment = payment ∧
          Passed (Process.start settings manager) es rid request) ∧
      (∀ rid request t p' obs reply, p.step (.request rid request t) = some (p', obs) →
        .replied rid request reply ∈ obs → reply.body? = none →
          p'.connector.credentialManager = p.connector.credentialManager ∧
            p'.connector.idempotencyCache = p.connector.idempotencyCache ∧
              p'.connector.failureCount? = p.connector.failureCount?) ∧
        ¬ .output noCredentials ∈ tr := by
  have hgated : GatedBy (Process.start settings manager) es p tr :=
    run_history_invariant (I := GatedBy (Process.start settings manager))
      (fun _ _ _ _ _ _ hprefix h hs => step_gatedBy hprefix h hs)
      (start_gatedBy settings manager) hrun
  have hquiet : ¬ .output noCredentials ∈ tr :=
    run_invariant (I := fun _ tr => ¬ .output noCredentials ∈ tr)
      (fun _ _ _ _ _ h hs => by
        rw [List.mem_append, not_or]
        exact ⟨h, step_not_noCredentials hs⟩)
      List.not_mem_nil hrun
  refine ⟨hgated.posted, ?_, hquiet⟩
  intro rid request t p' obs reply hstep hreply hrefused
  exact request_refused_unchanged hstep hreply hrefused

theorem failClosedGate_sequential :
    ∃ p tr, run Process.step sampleProcess sequentialRun = some (p, tr) ∧
      (∀ rid payment pending, .posted rid payment pending ∈ tr →
        ∃ request, request.payment = payment ∧ Passed sampleProcess sequentialRun rid request) ∧
        ¬ .output noCredentials ∈ tr := by
  have hrun : ∃ p tr, run Process.step sampleProcess sequentialRun = some (p, tr) ∧ True :=
    exists_run (by decide +kernel)
  obtain ⟨p, tr, hrun, -⟩ := hrun
  obtain ⟨hposted, -, hquiet⟩ :=
    failClosedGate sampleSettings sampleManager sequentialRun p tr hrun
  exact ⟨p, tr, hrun, hposted, hquiet⟩

end PaymentConnector
