import PaymentConnector.Calls
import PaymentConnector.CredentialStore
import PaymentConnector.Service

/-!
# The audit trail of each function

Which audit events every modelled function writes, one lemma a function: a load
writes a rotation or a failed access, a Vault read exactly one access, the end
of a gateway call one authentication failure when it runs out of credentials,
and the rest writes nothing.

## Main results

* `CredentialManager.loadCredentials_audits` — the four ways a load can end.
* `VaultClient.readSecret_audits` — one access, and its outcome is that of the read.
* `GatewayClient.resumeAuthorize_audits` — the only event of a gateway call.
-/

namespace PaymentConnector

open Library Library.Machine

/-- The audit event that an output writes. -/
def Output.audit? : Output → Option AuditEvent
  | .audit event => some event
  | .log _ => none

/-- The audit events among outputs, in order. -/
def auditsOf (outputs : List Output) : List AuditEvent := outputs.filterMap Output.audit?

section Outputs

variable (event : AuditEvent) (line : LogLine) (outputs outputs' : List Output)

@[simp] theorem auditsOf_nil : auditsOf [] = [] := rfl

@[simp] theorem auditsOf_audit_cons :
    auditsOf (.audit event :: outputs) = event :: auditsOf outputs := rfl

@[simp] theorem auditsOf_log_cons : auditsOf (.log line :: outputs) = auditsOf outputs := rfl

@[simp] theorem auditsOf_append :
    auditsOf (outputs ++ outputs') = auditsOf outputs ++ auditsOf outputs' :=
  List.filterMap_append

@[simp] theorem auditsOf_logs {γ : Type} (line : γ → LogLine) (as : List γ) :
    auditsOf (as.map fun a => .log (line a)) = [] := by
  rw [auditsOf, List.filterMap_map, List.filterMap_eq_nil_iff]
  exact fun _ _ => rfl

end Outputs

/-! ## Loads -/

namespace CredentialManager

/-- The end of a load audits a rotation when there was a version before. -/
theorem announce_audits (path : String) (oldVersion version : Option Int) (m : CredentialManager)
    (now : Rat) :
    auditsOf (announce path oldVersion version m now).2 =
      if oldVersion ≠ none ∧ oldVersion ≠ version then
        [auditRotationEvent path oldVersion version "success"]
      else [] := by
  unfold announce
  dsimp only
  split
  · simp
  · simp

/-- What is installed is audited as a rotation when there was another version before, and as
a failure where the gauge cannot hold the version. -/
theorem loadInstalled_audits (path : String) (m : CredentialManager) (c : Credential)
    (t : LoadReadings) :
    auditsOf (m.loadInstalled path c t).2.2 =
      if Gaugeable c.version then
        if m.currentVersion ≠ none ∧ m.currentVersion ≠ c.version then
          [auditRotationEvent path m.currentVersion c.version "success"]
        else []
      else [auditCredentialAccess path none "failure"] := by
  have hevictions : auditsOf (m.remember c t).2 = [] := auditsOf_logs _ _
  by_cases hfits : Gaugeable c.version
  · rw [m.loadInstalled_of_gaugeable path c t hfits, if_pos hfits]
    dsimp only
    rw [auditsOf_append, hevictions, List.nil_append, announce_audits]
  · obtain ⟨exc, heq⟩ := m.loadInstalled_of_not_gaugeable path c t hfits
    rw [heq, if_neg hfits]
    dsimp only
    rw [auditsOf_append, hevictions]
    rfl

/-- The four ways a load can end, with its result and its audit events. -/
inductive LoadAudits (path : String) (m : CredentialManager) (read : VaultRead)
    (t : LoadReadings) : Bool → List AuditEvent → Prop
  | accepted (c : Credential) (haccepted : m.accepted? ⟨read, t⟩ = some c)
      (hfits : Gaugeable c.version) :
      LoadAudits path m read t true
        (if m.currentVersion ≠ none then
          [auditRotationEvent path m.currentVersion c.version "success"]
        else [])
  | unchanged (secret : SecretData) (hread : read = .ok secret)
      (hpair : secret.keyPair?.isSome = true) (hversion : secret.version = m.currentVersion) :
      LoadAudits path m read t true []
  | incomplete (secret : SecretData) (hread : read = .ok secret)
      (hpair : secret.keyPair? = none) : LoadAudits path m read t false []
  | raised (hrejected : ∀ secret, read = .ok secret → secret.keyPair?.isSome = true →
        secret.version ≠ m.currentVersion ∧
          ((∃ exc, secret.ttl? = .error exc) ∨ ¬ Gaugeable secret.version)) :
      LoadAudits path m read t false [auditCredentialAccess path none "failure"]

/-- What a load audits, by what it finds in the secret. -/
theorem loadCredentials_audits (path : String) (m : CredentialManager) (read : VaultRead)
    (t : LoadReadings) :
    LoadAudits path m read t (m.loadCredentials path read t).1
      (auditsOf (m.loadCredentials path read t).2.2) := by
  cases read with
  | error text => exact .raised (fun _ h => by cases h)
  | ok secret =>
      cases haccepted : m.accepted? ⟨.ok secret, t⟩ with
      | some c =>
          obtain ⟨secret', hread, -, -, hchanged, hc⟩ := accepted?_eq_some haccepted
          have hversion : c.version = secret.version := by
            rw [hc, Except.ok.inj hread]
          have hdiffers : m.currentVersion ≠ c.version := by
            rw [hc]
            exact hchanged.symm
          have hload : m.loadCredentials path (.ok secret) t = m.loadInstalled path c t :=
            loadCredentials_of_accepted path haccepted
          have hresult := m.loadInstalled_result path c t
          rw [hload, loadInstalled_audits]
          by_cases hfits : Gaugeable c.version
          · rw [hresult.mpr hfits, if_pos hfits]
            simp only [ne_eq, hdiffers, not_false_eq_true, and_true]
            exact .accepted c haccepted hfits
          · rw [Bool.eq_false_iff.mpr (mt hresult.mp hfits), if_neg hfits]
            refine .raised (fun secret'' hread' _ => ?_)
            rw [← Except.ok.inj hread', ← hversion]
            exact ⟨hdiffers.symm, Or.inr hfits⟩
      | none =>
          have hrejected : ¬ m.Changes ⟨.ok secret, t⟩ := accepted?_eq_none_iff.mp haccepted
          have hspec := m.examine_spec secret t
          unfold loadCredentials processSecret
          dsimp only
          generalize m.examine secret t = finding at hspec ⊢
          cases hspec with
          | raised exc hrejected =>
              refine .raised (fun secret' hread hsome => ?_)
              obtain ⟨pair, hpair⟩ := Option.isSome_iff_exists.mp hsome
              rw [← Except.ok.inj hread] at hpair ⊢
              obtain ⟨hchanged, exc, httl⟩ := hrejected pair hpair
              exact ⟨hchanged, Or.inl ⟨exc, httl⟩⟩
          | missingFields hnone => exact .incomplete secret rfl hnone
          | unchanged pair hpair hversion =>
              exact .unchanged secret rfl (by rw [hpair]; rfl) hversion
          | accepted credential hpair hchanged httl =>
              exact absurd ⟨secret, _, credential.ttl, rfl, hpair, httl, hchanged⟩ hrejected

end CredentialManager

/-! ## Vault reads -/

namespace VaultClient

theorem createClient_audits (c : VaultClient) (a : VaultAttempt) :
    auditsOf (c.createClient a).2 = [] := by
  unfold createClient
  repeat' split
  all_goals rfl

theorem getClient_audits (c : VaultClient) (a : VaultAttempt) :
    auditsOf (c.getClient a).2.2 = [] := by
  have hcreate := c.createClient_audits a
  unfold getClient
  cases c.client with
  | some client => rfl
  | none =>
      generalize c.createClient a = r at hcreate ⊢
      obtain ⟨result, outputs⟩ := r
      cases result with
      | ok client => exact hcreate
      | error exc => exact hcreate

theorem attemptRead_audits (c : VaultClient) (path : String) (a : VaultAttempt) :
    auditsOf (c.attemptRead path a).2.2 = [] := by
  have hget := c.getClient_audits a
  unfold attemptRead readKv2
  generalize c.getClient a = r at hget ⊢
  obtain ⟨result, c', outputs⟩ := r
  dsimp only at hget ⊢
  cases result with
  | error exc => exact hget
  | ok client =>
      dsimp only
      cases a.read client.token (parseKv2Path path).1 (parseKv2Path path).2 with
      | returned response =>
          cases response with
          | null => exact hget
          | _ =>
              dsimp only
              split
              · rename_i exc c'' outputs' heq
                split at heq
                · cases heq
                · cases heq
                  exact hget
              · rename_i d c'' outputs' heq
                split at heq <;> cases heq
                exact hget
      | invalidPath => exact hget
      | forbidden => exact hget
      | vaultError text => exact hget
      | raised exc => exact hget

theorem isAuthenticated_audits (c : VaultClient) (a : VaultAttempt) :
    auditsOf (c.isAuthenticated a).2.2 = [] := by
  have hget := c.getClient_audits a
  unfold isAuthenticated
  generalize c.getClient a = r at hget ⊢
  obtain ⟨result, c', outputs⟩ := r
  cases result with
  | error exc => exact hget
  | ok client =>
      dsimp only
      split <;> exact hget

/-- The access event of a read, by how the read ends. -/
def readAudit (path : String) : Except VaultExc KvSecret → AuditEvent
  | .ok secret => auditSecretRead path secret.version
  | .error _ => auditCredentialAccess path none "failure"

private theorem readLoop_audits (path : String) (maxRetries : Nat) (env : Nat → VaultAttempt)
    (remaining : Nat) : ∀ (attempt : Nat) (last : String) (c : VaultClient),
      auditsOf (readLoop path maxRetries env remaining attempt last c).2.2 =
        [readAudit path (readLoop path maxRetries env remaining attempt last c).1] := by
  induction remaining with
  | zero => exact fun _ _ _ => rfl
  | succ remaining ih =>
      intro attempt last c
      have hattempt := c.attemptRead_audits path (env attempt)
      unfold readLoop
      split
      · rename_i secret c' outputs hread
        rw [hread] at hattempt
        rw [auditsOf_append, hattempt]
        rfl
      · rename_i text c' outputs hread
        rw [hread] at hattempt
        rw [auditsOf_append, hattempt]
        rfl
      · rename_i text c' outputs hread
        rw [hread] at hattempt
        rw [auditsOf_append, hattempt]
        rfl
      · rename_i exc c' outputs _ _ hread
        rw [hread] at hattempt
        rw [auditsOf_append, hattempt, auditsOf_log_cons]
        exact ih (attempt + 1) exc.str c'

/-- A Vault read is audited once, with the outcome that it has, whatever its bound. -/
theorem readSecretWith_audits (n : Nat) (c : VaultClient) (settings : Settings)
    (path : Option String) (env : Nat → VaultAttempt) :
    auditsOf (readSecretWith n c settings path env).2.2 =
      [readAudit (orDefault path settings.vaultSecretPath)
        (readSecretWith n c settings path env).1] :=
  readLoop_audits _ n env n 1 "None" c

theorem readSecret_audits (c : VaultClient) (settings : Settings) (path : Option String)
    (env : Nat → VaultAttempt) :
    auditsOf (c.readSecret settings path env).2.2 =
      [readAudit (orDefault path settings.vaultSecretPath) (c.readSecret settings path env).1] :=
  readSecretWith_audits maxRetries c settings path env

end VaultClient

/-! ## Gateway calls -/

namespace GatewayClient

theorem failRequest_audits (g : GatewayClient) (label : String) (t : AnswerReadings) :
    auditsOf (g.failRequest label t).2 = [] := by
  simp only [failRequest, CircuitBreaker.recordFailure]
  repeat' split
  all_goals rfl

/-- One POST writes no audit event, rejected or not. -/
theorem tryAuthorize_audits (g : GatewayClient) (credential : Credential) (startTime : Rat)
    (outcome : PostOutcome) (t : AnswerReadings) :
    auditsOf (g.tryAuthorize credential startTime outcome t).2.2 = [] := by
  cases outcome with
  | response statusCode json =>
      simp only [tryAuthorize]
      repeat' split
      · rfl
      · exact failRequest_audits _ (toString statusCode) _
      all_goals rfl
  | timeout error =>
      simp only [tryAuthorize, auditsOf_append, auditsOf_log_cons, auditsOf_nil, List.append_nil]
      exact failRequest_audits _ _ _
  | httpError error =>
      simp only [tryAuthorize, auditsOf_append, auditsOf_log_cons, auditsOf_nil, List.append_nil]
      exact failRequest_audits _ _ _
  | raised exc => rfl

/-- The event that ends a call without a credential left. -/
def rejectionAudit (baseUrl : String) : AuditEvent :=
  auditAuthFailure (baseUrl ++ "/api/v1/transactions/authorize") "all_credentials_rejected" none

/-- A gateway call writes an event exactly when its last credential is rejected. -/
theorem resumeAuthorize_audits (g : GatewayClient) (p : Pending) (outcome : PostOutcome)
    (t : AnswerReadings) :
    (outcome.attempt = .rejected ∧ p.retry? = none ∧
        ∃ baseUrl, auditsOf (g.resumeAuthorize p outcome t).2.2 = [rejectionAudit baseUrl]) ∨
      (¬ (outcome.attempt = .rejected ∧ p.retry? = none) ∧
        auditsOf (g.resumeAuthorize p outcome t).2.2 = []) := by
  have htry := g.tryAuthorize_audits p.credential p.startTime outcome t
  have hattempt := g.tryAuthorize_attempt p.credential p.startTime outcome t
  unfold resumeAuthorize
  rw [← hattempt]
  generalize g.tryAuthorize p.credential p.startTime outcome t = r at htry ⊢
  obtain ⟨g', attempt, outputs⟩ := r
  dsimp only at htry ⊢
  cases attempt with
  | returned body => exact Or.inr ⟨fun h => Attempt.noConfusion h.1, htry⟩
  | unavailable text => exact Or.inr ⟨fun h => Attempt.noConfusion h.1, htry⟩
  | escaped exc => exact Or.inr ⟨fun h => Attempt.noConfusion h.1, htry⟩
  | rejected =>
      have hlast : auditsOf (outputs ++ g'.allRejected.2.2) = [rejectionAudit g'.baseUrl] := by
        rw [auditsOf_append, htry]
        rfl
      unfold Pending.retry?
      rcases p.stage with ⟨_ | fallback⟩ | _
      · exact Or.inl ⟨rfl, rfl, g'.baseUrl, hlast⟩
      · dsimp only
        split
        · refine Or.inr ⟨fun h => absurd h.2 (Option.some_ne_none fallback), ?_⟩
          rw [auditsOf_append, htry]
          rfl
        · exact Or.inl ⟨rfl, rfl, g'.baseUrl, hlast⟩
      · exact Or.inl ⟨rfl, rfl, g'.baseUrl, hlast⟩

end GatewayClient

/-! ## The endpoint -/

/-- Refusals of `_validate_api_key` are audited as authentication failures. -/
theorem validateApiKey_audits {settings : Settings} {apiKey : Option String}
    {requestId : String} {reply : Reply} {outputs : List Output}
    (h : validateApiKey settings apiKey requestId = some (reply, outputs)) :
    ∀ event ∈ auditsOf outputs, event.event = "auth_failure" := by
  unfold validateApiKey at h
  repeat' split at h
  all_goals cases h
  all_goals
    intro event hin
    rw [List.mem_singleton.mp hin]
    rfl

namespace Connector

theorem gatewayFailed_audits (c : Connector) (error : GatewayError) :
    auditsOf (c.gatewayFailed error).2.2 = [] := by
  cases error <;> rfl

theorem beginRequest_audits (c : Connector) (request : AuthorizeRequest) (t : StartReadings) :
    ∀ event ∈ auditsOf (c.beginRequest request t).2.2, event.event = "auth_failure" := by
  have hnone : ∀ event ∈ auditsOf [], event.event = "auth_failure" :=
    fun _ hin => absurd hin List.not_mem_nil
  unfold beginRequest
  dsimp only
  split
  · rename_i reply outputs hrefused
    exact validateApiKey_audits hrefused
  · split
    · exact hnone
    · split
      · exact hnone
      · exact hnone
      · split
        · exact hnone
        · split
          · exact hnone
          · split
            · exact hnone
            · rw [gatewayFailed_audits]
              exact hnone

/-- What the handler does after its gateway call is not audited. -/
theorem resumeRequest_audits (c : Connector) (client : GatewayClient) (payment : PaymentRequest)
    (p : Pending) (outcome : PostOutcome) (uuid : String) (t : AnswerReadings) :
    auditsOf (c.resumeRequest client payment p outcome uuid t).2.2.1 =
      auditsOf (client.resumeAuthorize p outcome t).2.2 := by
  unfold resumeRequest
  generalize client.resumeAuthorize p outcome t = r
  obtain ⟨client', progress, outputs⟩ := r
  dsimp only
  rw [auditsOf_append]
  cases progress with
  | posting pending => exact List.append_nil _
  | failed error =>
      have hfailed := gatewayFailed_audits { c with gatewayClient := some client' } error
      simp only [finishRequest, hfailed, List.append_nil]
  | escaped exc => exact List.append_nil _
  | returned body =>
      simp only [finishRequest]
      split <;> exact List.append_nil _

end Connector

/-! ## Around the process -/

theorem RateLimitMiddleware.dispatch_audits (m : RateLimitMiddleware) (client : Option String)
    (created now : Rat) : auditsOf (m.dispatch client created now).2.2.1 = [] := by
  unfold RateLimitMiddleware.dispatch
  dsimp only
  split <;> rfl

theorem readiness_audits (startTime : Rat) (vaultConnected : Bool) (credStatus : CredentialStatus)
    (gatewayReachable : Bool) (now : Rat) :
    ∀ event ∈ auditsOf (readiness startTime vaultConnected credStatus gatewayReachable now).2,
      event.event = "health_check" := by
  intro event hin
  rw [List.mem_singleton.mp hin]
  rfl

/-! ## Steps of the process -/

/-- The audit event that an observation writes. -/
def Obs.audit? : Obs → Option AuditEvent
  | .output (.audit event) => some event
  | _ => none

theorem filterMap_audit?_outputs (outputs : List Output) (obs : List Obs) :
    (outputs.map Obs.output ++ obs).filterMap Obs.audit? =
      auditsOf outputs ++ obs.filterMap Obs.audit? := by
  have hsame : Obs.audit? ∘ Obs.output = Output.audit? := by
    funext output
    cases output <;> rfl
  rw [List.filterMap_append, List.filterMap_map, hsame]
  rfl

theorem filterMap_audit?_advanceObs (rid : Nat) (request : AuthorizeRequest)
    (advance : Advance) : (advanceObs rid request advance).filterMap Obs.audit? = [] := by
  unfold advanceObs
  split <;> rfl

namespace Process

variable {p p' : Process} {obs : List Obs}

/-- Loads write accesses and rotations. -/
theorem step_load_audits {read : VaultRead} {t : LoadReadings}
    (hstep : p.step (.load read t) = some (p', obs)) :
    ∀ event ∈ obs.filterMap Obs.audit?,
      event.event = "credential_access" ∨ event.event = "credential_rotation" := by
  simp only [step] at hstep
  split at hstep
  · cases hstep
  · rename_i manager hmanager
    simp only [Option.some.injEq, Prod.mk.injEq] at hstep
    rw [← hstep.2, filterMap_audit?_outputs]
    have haudits := manager.loadCredentials_audits p.connector.settings.vaultSecretPath read t
    generalize manager.loadCredentials p.connector.settings.vaultSecretPath read t = r at haudits
    obtain ⟨result, manager', outputs⟩ := r
    dsimp only at haudits ⊢
    intro event hin
    have hnil : [Obs.loaded result].filterMap Obs.audit? = [] := rfl
    rw [hnil, List.append_nil] at hin
    generalize auditsOf outputs = events at haudits hin
    cases haudits with
    | accepted c haccepted =>
        split at hin
        · rw [List.mem_singleton.mp hin]
          exact Or.inr rfl
        · exact absurd hin List.not_mem_nil
    | unchanged => exact absurd hin List.not_mem_nil
    | incomplete => exact absurd hin List.not_mem_nil
    | raised =>
        rw [List.mem_singleton.mp hin]
        exact Or.inl rfl

/-- The arrival of a request writes refusals. -/
theorem step_request_audits {rid : Nat} {request : AuthorizeRequest} {t : StartReadings}
    (hstep : p.step (.request rid request t) = some (p', obs)) :
    ∀ event ∈ obs.filterMap Obs.audit?, event.event = "auth_failure" := by
  simp only [step] at hstep
  split at hstep
  · cases hstep
  · simp only [Option.some.injEq, Prod.mk.injEq] at hstep
    rw [← hstep.2, filterMap_audit?_outputs, filterMap_audit?_advanceObs, List.append_nil]
    exact p.connector.beginRequest_audits request t

/-- The completion of a POST writes an event exactly when it leaves its call
without a credential. -/
theorem step_answer_audits {rid : Nat} {outcome : PostOutcome} {uuid : String}
    {t : AnswerReadings} (hstep : p.step (.answer rid outcome uuid t) = some (p', obs)) :
    ∃ h ∈ p.waiting, h.rid = rid ∧
      ((outcome.attempt = .rejected ∧ h.pending.retry? = none ∧
          ∃ baseUrl, obs.filterMap Obs.audit? = [GatewayClient.rejectionAudit baseUrl]) ∨
        (¬ (outcome.attempt = .rejected ∧ h.pending.retry? = none) ∧
          obs.filterMap Obs.audit? = [])) := by
  simp only [step] at hstep
  split at hstep
  · rename_i client h hclient hfind
    have hrid : h.rid = rid := by simpa using List.find?_some hfind
    simp only [Option.some.injEq, Prod.mk.injEq] at hstep
    refine ⟨h, List.mem_of_find?_eq_some hfind, hrid, ?_⟩
    have haudits := client.resumeAuthorize_audits h.pending outcome t
    rw [← p.connector.resumeRequest_audits client h.request.payment h.pending outcome uuid t]
      at haudits
    rw [← hstep.2, filterMap_audit?_outputs, List.filterMap_cons_none rfl, List.filterMap_append,
      filterMap_map_eq_nil (fun _ => rfl), filterMap_audit?_advanceObs, List.append_nil,
      List.append_nil]
    exact haudits
  · cases hstep

end Process

end PaymentConnector
