import PaymentConnector.Responses
import PaymentConnector.RotationAudit

/-!
# What the metrics say

The counters that `/metrics` exports are raised in five places of two classes.  Over any
schedule they agree with what the process did: every completed POST is counted and timed once,
under its status code or the kind of its failure, except where an exception other than the
HTTP library's ends it; every call without a credential left and every rotation is counted as
often as it is audited; and every load that returned `False` is a fetch error.  An answer of
`/metrics` gives the counters of the moment at which its request was handled.

## Main results

* `Process.step_counters` — what a step adds to the counters is what it shows.
* `Service.metricsTruth` — an exported counter is the count of what was shown before.
-/

namespace PaymentConnector

open Library Library.Machine

/-! ## What a trace counts -/

/-- The label under which `_try_authorize` counts a POST that completed. -/
def PostOutcome.label? : PostOutcome → Option String
  | .response statusCode _ => some (toString statusCode)
  | .timeout _ => some "timeout"
  | .httpError _ => some "error"
  | .raised _ => none

def Obs.label? : Obs → Option String
  | .answered _ _ outcome => outcome.label?
  | _ => none

/-- The reason that an authentication failure gives. -/
def AuditEvent.reason? (event : AuditEvent) : Option String :=
  match event.metadata.lookup "reason" with
  | some (.str reason) => some reason
  | _ => none

def AuditEvent.allRejected (event : AuditEvent) : Bool :=
  event.reason? = some "all_credentials_rejected"

def AuditEvent.rotation (event : AuditEvent) : Bool := event.event = "credential_rotation"

/-- The counters of a connector; of the histogram only its count. -/
structure Counters where
  gatewayRequests : List String
  gatewayRequestDurations : Nat
  gatewayAuthFailures : Nat
  credentialRotations : Nat
  credentialFetchErrors : Nat
  deriving DecidableEq

def Counters.add (n k : Counters) : Counters where
  gatewayRequests := n.gatewayRequests ++ k.gatewayRequests
  gatewayRequestDurations := n.gatewayRequestDurations + k.gatewayRequestDurations
  gatewayAuthFailures := n.gatewayAuthFailures + k.gatewayAuthFailures
  credentialRotations := n.credentialRotations + k.credentialRotations
  credentialFetchErrors := n.credentialFetchErrors + k.credentialFetchErrors

/-- The counters among the metrics. -/
def Metrics.counters? (metrics : Metrics) : Option Counters :=
  match metrics.credentials, metrics.gateway with
  | some credentials, some gateway => some
      { gatewayRequests := gateway.gatewayRequestsTotal
        gatewayRequestDurations := gateway.gatewayRequestDurationSeconds.length
        gatewayAuthFailures := gateway.gatewayAuthFailuresTotal
        credentialRotations := credentials.credentialRotationTotal
        credentialFetchErrors := credentials.credentialFetchErrorsTotal }
  | _, _ => none

/-- The counters that fit what a process showed. -/
def countersOf (tr : List Obs) : Counters where
  gatewayRequests := tr.filterMap Obs.label?
  gatewayRequestDurations := (tr.filterMap Obs.label?).length
  gatewayAuthFailures := (tr.filterMap Obs.audit?).countP AuditEvent.allRejected
  credentialRotations := (tr.filterMap Obs.audit?).countP AuditEvent.rotation
  credentialFetchErrors := tr.countP Obs.loadFailed

theorem countersOf_append (tr obs : List Obs) :
    countersOf (tr ++ obs) = (countersOf tr).add (countersOf obs) := by
  simp only [countersOf, Counters.add, List.filterMap_append, List.length_append,
    List.countP_append]

section Shown

/-- What outputs count. -/
theorem countersOf_outputs (outputs : List Output) :
    countersOf (outputs.map Obs.output) =
      ⟨[], 0, (auditsOf outputs).countP AuditEvent.allRejected,
        (auditsOf outputs).countP AuditEvent.rotation, 0⟩ := by
  have hlabels : (outputs.map Obs.output).filterMap Obs.label? = [] := by
    rw [List.filterMap_map]
    exact List.filterMap_none outputs
  have haudits : (outputs.map Obs.output).filterMap Obs.audit? = auditsOf outputs := by
    have happend := filterMap_audit?_outputs outputs []
    rw [List.append_nil] at happend
    exact happend.trans (List.append_nil _)
  have hloads : (outputs.map Obs.output).countP Obs.loadFailed = 0 := by
    rw [List.countP_map]
    exact List.countP_eq_zero.mpr fun _ _ => Bool.false_ne_true
  unfold countersOf
  rw [hlabels, haudits, hloads]
  rfl

/-- Observations that count nothing. -/
theorem countersOf_of_idle {obs : List Obs}
    (h : ∀ x ∈ obs, x.label? = none ∧ x.audit? = none ∧ x.loadFailed = false) :
    countersOf obs = countersOf [] := by
  have hlabels : obs.filterMap Obs.label? = [] :=
    List.filterMap_eq_nil_iff.mpr fun x hin => (h x hin).1
  have haudits : obs.filterMap Obs.audit? = [] :=
    List.filterMap_eq_nil_iff.mpr fun x hin => (h x hin).2.1
  have hloads : obs.countP Obs.loadFailed = 0 :=
    List.countP_eq_zero.mpr fun x hin => by simp [(h x hin).2.2]
  unfold countersOf
  rw [hlabels, haudits, hloads]
  rfl

private theorem countersOf_advanceObs (rid : Nat) (request : AuthorizeRequest)
    (advance : Advance) : countersOf (advanceObs rid request advance) = countersOf [] := by
  refine countersOf_of_idle fun x hin => ?_
  unfold advanceObs at hin
  split at hin
  · rw [List.mem_singleton.mp hin]
    exact ⟨rfl, rfl, rfl⟩
  · rcases List.mem_cons.mp hin with rfl | hin
    · exact ⟨rfl, rfl, rfl⟩
    · rw [List.mem_singleton.mp hin]
      exact ⟨rfl, rfl, rfl⟩
  · rw [List.mem_singleton.mp hin]
    exact ⟨rfl, rfl, rfl⟩

theorem Counters.add_nil (n : Counters) : n.add (countersOf []) = n := by
  simp only [countersOf, Counters.add, List.filterMap_nil, List.length_nil, List.countP_nil,
    List.append_nil, Nat.add_zero]

/-- What a load shows. -/
theorem countersOf_load (outputs : List Output) (result : Bool) :
    countersOf (outputs.map Obs.output ++ [Obs.loaded result]) =
      ⟨[], 0, (auditsOf outputs).countP AuditEvent.allRejected,
        (auditsOf outputs).countP AuditEvent.rotation, if result then 0 else 1⟩ := by
  rw [countersOf_append, countersOf_outputs]
  cases result <;> rfl

/-- What the arrival of a request shows. -/
theorem countersOf_request (outputs : List Output) (rid : Nat) (request : AuthorizeRequest)
    (advance : Advance) :
    countersOf (outputs.map Obs.output ++ advanceObs rid request advance) =
      ⟨[], 0, (auditsOf outputs).countP AuditEvent.allRejected,
        (auditsOf outputs).countP AuditEvent.rotation, 0⟩ := by
  rw [countersOf_append, countersOf_outputs, countersOf_advanceObs, Counters.add_nil]

/-- What the completion of a POST shows. -/
theorem countersOf_answer (outputs : List Output) (rid : Nat) (key : String)
    (outcome : PostOutcome) (evicted : List String) (request : AuthorizeRequest)
    (advance : Advance) :
    countersOf (outputs.map Obs.output ++ .answered rid key outcome ::
        (evicted.map Obs.evicted ++ advanceObs rid request advance)) =
      ⟨outcome.label?.toList, outcome.label?.toList.length,
        (auditsOf outputs).countP AuditEvent.allRejected,
        (auditsOf outputs).countP AuditEvent.rotation, 0⟩ := by
  have hevicted : countersOf (evicted.map Obs.evicted) = countersOf [] := by
    refine countersOf_of_idle fun x hin => ?_
    obtain ⟨key, -, rfl⟩ := List.mem_map.mp hin
    exact ⟨rfl, rfl, rfl⟩
  have hanswered : countersOf [.answered rid key outcome] =
      ⟨outcome.label?.toList, outcome.label?.toList.length, 0, 0, 0⟩ := by
    have hlabels : [Obs.answered rid key outcome].filterMap Obs.label? =
        outcome.label?.toList := by
      rw [List.filterMap_cons, show (Obs.answered rid key outcome).label? = outcome.label? from rfl]
      cases outcome.label? <;> rfl
    unfold countersOf
    rw [hlabels]
    rfl
  rw [countersOf_append, countersOf_outputs, ← List.singleton_append, countersOf_append,
    hanswered, countersOf_append, hevicted, countersOf_advanceObs, Counters.add_nil,
    Counters.add_nil]
  simp only [Counters.add, List.nil_append, Nat.zero_add, Nat.add_zero]

end Shown

/-! ## What the classes count -/

namespace CredentialManager

/-- A load counts the rotations that it audits. -/
theorem loadCredentials_rotationTotal (path : String) (m : CredentialManager) (read : VaultRead)
    (t : LoadReadings) :
    (m.loadCredentials path read t).2.1.credentialRotationTotal =
      m.credentialRotationTotal +
        (auditsOf (m.loadCredentials path read t).2.2).countP AuditEvent.rotation := by
  cases haccepted : m.accepted? ⟨read, t⟩ with
  | some c =>
      have hload := loadCredentials_of_accepted path haccepted
      dsimp only at hload
      rw [hload, loadInstalled_credentialRotationTotal, loadInstalled_audits]
      by_cases hfits : Gaugeable c.version
      · rw [if_pos hfits]
        by_cases hrotates : m.currentVersion ≠ none ∧ m.currentVersion ≠ c.version
        · rw [if_pos ⟨hfits, hrotates⟩, if_pos hrotates]
          rfl
        · rw [if_neg (fun h => hrotates h.2), if_neg hrotates]
          rfl
      · rw [if_neg (fun h => hfits h.1), if_neg hfits]
        rfl
  | none =>
      have hkept := accepted?_eq_none_iff.mp haccepted
      have htotal := rotationTotal_of_not_changes path hkept
      have hrotations := loadRotations_of_not_changes path hkept
      rw [show (m.loadCredentials path read t).2.1.credentialRotationTotal =
        m.credentialRotationTotal from htotal]
      rw [List.countP_eq_length_filter,
        show (auditsOf (m.loadCredentials path read t).2.2).filter AuditEvent.rotation = [] from
          hrotations]
      rfl

/-- A load counts an error when it returns `False`. -/
theorem loadCredentials_fetchErrors (path : String) (m : CredentialManager) (read : VaultRead)
    (t : LoadReadings) :
    (m.loadCredentials path read t).2.1.credentialFetchErrorsTotal =
      m.credentialFetchErrorsTotal + if (m.loadCredentials path read t).1 then 0 else 1 := by
  have hage : ∀ (m : CredentialManager) now,
      (m.updateAgeMetric now).credentialFetchErrorsTotal = m.credentialFetchErrorsTotal := by
    intro m now
    unfold updateAgeMetric
    split <;> rfl
  have hspec := loadCredentials_spec path m read t
  generalize m.loadCredentials path read t = r at hspec ⊢
  cases hspec with
  | failed => rfl
  | unchanged secret t => exact hage m t.age
  | installed secret t credential =>
      by_cases hfits : Gaugeable credential.version
      · rw [m.loadInstalled_of_gaugeable path credential t hfits]
        show (announce _ _ _ _ t.age).1.credentialFetchErrorsTotal = _
        unfold announce
        dsimp only
        split <;> exact hage _ t.age
      · obtain ⟨exc, heq⟩ := m.loadInstalled_of_not_gaugeable path credential t hfits
        rw [heq]
        rfl

/-- Loads never audit that a call was left without a credential. -/
theorem loadCredentials_allRejected (path : String) (m : CredentialManager) (read : VaultRead)
    (t : LoadReadings) :
    (auditsOf (m.loadCredentials path read t).2.2).countP AuditEvent.allRejected = 0 := by
  have haudits := m.loadCredentials_audits path read t
  generalize m.loadCredentials path read t = r at haudits
  obtain ⟨result, m', outputs⟩ := r
  dsimp only at haudits ⊢
  generalize auditsOf outputs = events at haudits
  cases haudits with
  | accepted c haccepted =>
      split <;> rfl
  | _ => rfl

end CredentialManager

namespace GatewayClient

/-- The counters of a client. -/
def counts (g : GatewayClient) : List String × Nat × Nat :=
  (g.gatewayRequestsTotal, g.gatewayRequestDurationSeconds.length, g.gatewayAuthFailuresTotal)

/-- The start of a call counts nothing. -/
theorem beginAuthorize_counts (g : GatewayClient) (m : CredentialManager)
    (payload : PaymentRequest) (t : StartReadings) :
    (g.beginAuthorize m payload t).1.counts = g.counts := by
  simp only [beginAuthorize]
  split
  · rfl
  · split <;> rfl

/-- A POST is counted and timed under its label, or not at all. -/
theorem tryAuthorize_counts (g : GatewayClient) (credential : Credential) (startTime : Rat)
    (outcome : PostOutcome) (t : AnswerReadings) :
    (g.tryAuthorize credential startTime outcome t).1.counts =
      (g.gatewayRequestsTotal ++ outcome.label?.toList,
        g.gatewayRequestDurationSeconds.length + outcome.label?.toList.length,
        g.gatewayAuthFailuresTotal) := by
  have hdone : (g.gatewayRequestDurationSeconds ++ [t.done - startTime]).length =
      g.gatewayRequestDurationSeconds.length + 1 := List.length_append
  cases outcome with
  | timeout error => exact congrArg (fun n => (_, n, _)) hdone
  | httpError error => exact congrArg (fun n => (_, n, _)) hdone
  | raised exc =>
      show (_, _, _) = (_ ++ [], _, _)
      rw [List.append_nil]
      rfl
  | response statusCode json =>
      simp only [tryAuthorize]
      split
      · exact congrArg (fun n => (_, n, _)) hdone
      · split
        · exact congrArg (fun n => (_, n, _)) hdone
        · cases json with
          | error exc => exact congrArg (fun n => (_, n, _)) hdone
          | ok value =>
              dsimp only
              split <;> exact congrArg (fun n => (_, n, _)) hdone

/-- A call counts the failure that it audits. -/
theorem resumeAuthorize_counts (g : GatewayClient) (p : Pending) (outcome : PostOutcome)
    (t : AnswerReadings) :
    (g.resumeAuthorize p outcome t).1.counts =
      (g.gatewayRequestsTotal ++ outcome.label?.toList,
        g.gatewayRequestDurationSeconds.length + outcome.label?.toList.length,
        g.gatewayAuthFailuresTotal +
          (auditsOf (g.resumeAuthorize p outcome t).2.2).countP AuditEvent.allRejected) := by
  have hcounts := g.tryAuthorize_counts p.credential p.startTime outcome t
  have haudits := g.tryAuthorize_audits p.credential p.startTime outcome t
  unfold resumeAuthorize
  generalize g.tryAuthorize p.credential p.startTime outcome t = r at hcounts haudits ⊢
  obtain ⟨g', attempt, outputs⟩ := r
  dsimp only at hcounts haudits ⊢
  have hlast : (auditsOf (outputs ++ g'.allRejected.2.2)).countP AuditEvent.allRejected = 1 := by
    rw [auditsOf_append, haudits]
    rfl
  have hfailed : g'.allRejected.1.counts =
      (g.gatewayRequestsTotal ++ outcome.label?.toList,
        g.gatewayRequestDurationSeconds.length + outcome.label?.toList.length,
        g.gatewayAuthFailuresTotal + 1) := by
    simp only [counts, Prod.mk.injEq] at hcounts
    obtain ⟨hrequests, hdurations, hfailures⟩ := hcounts
    show (g'.gatewayRequestsTotal, g'.gatewayRequestDurationSeconds.length,
      g'.gatewayAuthFailuresTotal + 1) = _
    rw [hrequests, hdurations, hfailures]
  cases attempt with
  | returned body => rw [hcounts, haudits]; rfl
  | unavailable text => rw [hcounts, haudits]; rfl
  | escaped exc => rw [hcounts, haudits]; rfl
  | rejected =>
      rcases p.stage with ⟨_ | fallback⟩ | _
      · rw [hlast, hfailed]
      · dsimp only
        split
        · rw [auditsOf_append, haudits, hcounts]
          rfl
        · rw [hlast, hfailed]
      · rw [hlast, hfailed]

theorem resumeAuthorize_rotation (g : GatewayClient) (p : Pending) (outcome : PostOutcome)
    (t : AnswerReadings) :
    (auditsOf (g.resumeAuthorize p outcome t).2.2).countP AuditEvent.rotation = 0 := by
  rcases g.resumeAuthorize_audits p outcome t with ⟨-, -, baseUrl, hone⟩ | ⟨-, hnone⟩
  · rw [hone]
    rfl
  · rw [hnone]
    rfl

end GatewayClient

/-! ## What a step counts -/

namespace Connector

/-- The counters of the two classes. -/
def counters? (c : Connector) : Option Counters := c.metrics.counters?

theorem counters?_eq_some {c : Connector} {n : Counters} (h : c.counters? = some n) :
    ∃ manager client, c.credentialManager = some manager ∧ c.gatewayClient = some client ∧
      n = ⟨client.counts.1, client.counts.2.1, client.counts.2.2,
        manager.credentialRotationTotal, manager.credentialFetchErrorsTotal⟩ := by
  unfold counters? metrics Metrics.counters? at h
  cases hmanager : c.credentialManager with
  | none => rw [hmanager] at h; cases h
  | some manager =>
      cases hclient : c.gatewayClient with
      | none => rw [hmanager, hclient] at h; cases h
      | some client =>
          rw [hmanager, hclient] at h
          cases h
          exact ⟨manager, client, rfl, rfl, rfl⟩

theorem counters?_of {c : Connector} {manager : CredentialManager} {client : GatewayClient}
    (hmanager : c.credentialManager = some manager) (hclient : c.gatewayClient = some client) :
    c.counters? = some ⟨client.counts.1, client.counts.2.1, client.counts.2.2,
      manager.credentialRotationTotal, manager.credentialFetchErrorsTotal⟩ := by
  unfold counters? metrics Metrics.counters?
  rw [hmanager, hclient]
  rfl

/-- Nothing that the handler audits before its first suspension counts. -/
theorem beginRequest_countless (c : Connector) (request : AuthorizeRequest) (t : StartReadings) :
    (auditsOf (c.beginRequest request t).2.2).countP AuditEvent.allRejected = 0 ∧
      (auditsOf (c.beginRequest request t).2.2).countP AuditEvent.rotation = 0 := by
  unfold beginRequest
  dsimp only
  split
  · rename_i reply outputs hrefused
    unfold validateApiKey at hrefused
    repeat' split at hrefused
    all_goals cases hrefused
    all_goals exact ⟨rfl, rfl⟩
  · split
    · exact ⟨rfl, rfl⟩
    · split
      · exact ⟨rfl, rfl⟩
      · exact ⟨rfl, rfl⟩
      · split
        · exact ⟨rfl, rfl⟩
        · split
          · exact ⟨rfl, rfl⟩
          · split
            · exact ⟨rfl, rfl⟩
            · rw [gatewayFailed_audits]
              exact ⟨rfl, rfl⟩

/-- The handler up to its first suspension keeps the counters. -/
theorem beginRequest_counters (c : Connector) (request : AuthorizeRequest) (t : StartReadings) :
    (c.beginRequest request t).1.counters? = c.counters? := by
  unfold beginRequest
  dsimp only
  split
  · rfl
  · split
    · rfl
    · rename_i manager hmanager
      split
      · rfl
      · rfl
      · split
        · rfl
        · split
          · rfl
          · rename_i client hclient
            have hcounts := client.beginAuthorize_counts manager request.payment t
            have hkept : ∀ client' : GatewayClient, client'.counts = client.counts →
                ∀ c' : Connector, c'.credentialManager = c.credentialManager →
                  c'.gatewayClient = some client' → c'.counters? = c.counters? := by
              intro client' heq c' hmanager' hclient'
              rw [counters?_of (hmanager'.trans hmanager) hclient', counters?_of hmanager hclient,
                heq]
            split
            · rename_i client' pending hbegin
              rw [hbegin] at hcounts
              exact hkept client' hcounts _ rfl rfl
            · rename_i client' error hbegin
              rw [hbegin] at hcounts
              cases error <;> exact hkept client' hcounts _ rfl rfl

end Connector

namespace Process

variable {p p' : Process} {e : Event} {obs : List Obs}

/-- A load adds what it shows. -/
private theorem load_counters {read : VaultRead} {t : LoadReadings} {n : Counters}
    (hn : p.connector.counters? = some n) (hstep : p.step (.load read t) = some (p', obs)) :
    p'.connector.counters? = some (n.add (countersOf obs)) := by
  obtain ⟨manager, client, hmanager, hclient, rfl⟩ := Connector.counters?_eq_some hn
  simp only [step, hmanager, Option.some.injEq, Prod.mk.injEq] at hstep
  obtain ⟨rfl, rfl⟩ := hstep
  have hnext := Connector.counters?_of
    (c := { p.connector with
      credentialManager :=
        some (manager.loadCredentials p.connector.settings.vaultSecretPath read t).2.1 })
    rfl hclient
  refine hnext.trans ?_
  rw [countersOf_load, CredentialManager.loadCredentials_rotationTotal,
    CredentialManager.loadCredentials_fetchErrors, CredentialManager.loadCredentials_allRejected]
  simp only [Counters.add, List.append_nil, Nat.add_zero]

/-- So does the arrival of a request, which shows nothing that counts. -/
private theorem request_counters {rid : Nat} {request : AuthorizeRequest} {t : StartReadings}
    {n : Counters} (hn : p.connector.counters? = some n)
    (hstep : p.step (.request rid request t) = some (p', obs)) :
    p'.connector.counters? = some (n.add (countersOf obs)) := by
  have haudits := p.connector.beginRequest_countless request t
  simp only [step] at hstep
  split at hstep
  · cases hstep
  · simp only [Option.some.injEq, Prod.mk.injEq] at hstep
    obtain ⟨rfl, rfl⟩ := hstep
    rw [countersOf_request, haudits.1, haudits.2]
    show (p.connector.beginRequest request t).1.counters? = _
    rw [Connector.beginRequest_counters, hn]
    exact congrArg some (Counters.add_nil n).symm

/-- And the completion of a POST. -/
private theorem answer_counters {rid : Nat} {outcome : PostOutcome} {uuid : String}
    {t : AnswerReadings} {n : Counters} (hn : p.connector.counters? = some n)
    (hstep : p.step (.answer rid outcome uuid t) = some (p', obs)) :
    p'.connector.counters? = some (n.add (countersOf obs)) := by
  obtain ⟨manager, client, hmanager, hclient, rfl⟩ := Connector.counters?_eq_some hn
  simp only [step, hclient] at hstep
  split at hstep
  · rename_i client' handler heq hfind
    cases heq
    simp only [Option.some.injEq, Prod.mk.injEq] at hstep
    obtain ⟨rfl, rfl⟩ := hstep
    rw [countersOf_answer, Connector.resumeRequest_audits]
    obtain ⟨hkept, hclient'⟩ := p.connector.resumeRequest_classes client handler.request.payment
      handler.pending outcome uuid t
    refine (Connector.counters?_of (hkept.trans hmanager) hclient').trans ?_
    rw [GatewayClient.resumeAuthorize_counts, GatewayClient.resumeAuthorize_rotation]
    rfl
  · cases hstep

theorem step_counters {n : Counters} (hn : p.connector.counters? = some n)
    (hstep : p.step e = some (p', obs)) :
    p'.connector.counters? = some (n.add (countersOf obs)) := by
  cases e with
  | load read t => exact load_counters hn hstep
  | request rid request t => exact request_counters hn hstep
  | answer rid outcome uuid t => exact answer_counters hn hstep

/-- The counters of a process are those of its trace. -/
theorem run_counters {settings : Settings} {es : List Event} {tr : List Obs}
    (hrun : run step (start settings .init) es = some (p, tr)) :
    p.connector.counters? = some (countersOf tr) := by
  refine run_invariant (I := fun p tr => p.connector.counters? = some (countersOf tr)) ?_ rfl hrun
  intro p tr e p' obs h hstep
  rw [countersOf_append]
  exact step_counters h hstep

end Process

/-! ## The route -/

namespace Service

/-- The counters of the metrics are those of the trace before the request was handled. -/
def Exports (s₀ : Service) (es : List ServiceEvent) (rid : Nat) (metrics : Metrics) : Prop :=
  ∃ es₁ vault t es₂ s tr, es = es₁ ++ .handle rid vault t :: es₂ ∧
    run step s₀ es₁ = some (s, tr) ∧
    metrics.counters? = some (countersOf (tr.filterMap ServiceObs.process?))

theorem Exports.concat {s₀ : Service} {es : List ServiceEvent} {rid : Nat} {metrics : Metrics}
    (h : Exports s₀ es rid metrics) (e : ServiceEvent) : Exports s₀ (es ++ [e]) rid metrics := by
  obtain ⟨es₁, vault, t, es₂, s, tr, rfl, hrun, hcounters⟩ := h
  exact ⟨es₁, vault, t, es₂ ++ [e], s, tr, by simp, hrun, hcounters⟩

/-- What an answer says of the counters. -/
def Exported (s₀ : Service) (es : List ServiceEvent) (rid : Nat) : CallStage → Prop
  | .answered (.response _ (.metrics metrics)) => Exports s₀ es rid metrics
  | _ => True

theorem Exported.concat {s₀ : Service} {es : List ServiceEvent} {rid : Nat} {stage : CallStage}
    (h : Exported s₀ es rid stage) (e : ServiceEvent) : Exported s₀ (es ++ [e]) rid stage := by
  unfold Exported at h ⊢
  split at h
  · exact Exports.concat h e
  · trivial

/-- In a run, what a step sets exports the counters of the trace before it. -/
theorem exported_of_reaches {settings : Settings} {now : Rat} {es : List ServiceEvent}
    {s : Service} {tr : List ServiceObs} {e : ServiceEvent} {rid : Nat} {stage : CallStage}
    (hrun : run step (start settings now) es = some (s, tr)) (hreaches : s.Reaches e rid stage) :
    Exported (start settings now) (es ++ [e]) rid stage := by
  cases hreaches with
  | exported rid vault t =>
      obtain ⟨es', hprocess⟩ := run_process hrun
      exact ⟨es, vault, t, [], s, tr, rfl, hrun, Process.run_counters hprocess⟩
  | authorizing e rid stage payment hfits =>
      unfold Exported
      split
      · cases hfits
      · trivial
  | framework rid vault t statusCode detail =>
      unfold frameworkAnswer
      split <;> trivial
  | probing rid vault t =>
      cases s.process.connector.credentialStatus t.check <;> trivial
  | _ => trivial

/-- For every schedule: the counters that an answer exports are those of what the process had
shown when the request was handled: one request and one duration for each POST completed, under
its label, one failure for each call that was audited as left without a credential, one rotation
for each audited, one error for each load that returned `False`. -/
theorem metricsTruth (settings : Settings) (now : Rat) (es : List ServiceEvent) (s : Service)
    (tr : List ServiceObs) (hrun : run step (start settings now) es = some (s, tr)) (rid : Nat)
    (statusCode : Nat) (metrics : Metrics) (id : Option String)
    (hshown : .responded rid ⟨statusCode, .metrics metrics, id⟩ ∈ tr) :
    Exports (start settings now) es rid metrics := by
  have hknows : Knows (Exported (start settings now) es) s tr :=
    run_knows (fun _ e _ _ h => Exported.concat h e)
      (fun _ _ _ _ _ _ hrun _ hreaches => exported_of_reaches hrun hreaches) hrun
  rcases hknows.shown rid statusCode (.metrics metrics) id hshown with hbare | hexports
  · cases hbare
  · exact hexports

/-- A payment, and a scrape after it. -/
def scrapedPayment : List ServiceEvent :=
  paymentRun "key-a" ++
    [.receive 9 ⟨"GET", "/metrics", "/metrics", none, none, none, .metrics, rfl, rfl⟩ "uuid-9" 5,
      .limit 9 5 5, .handle 9 (attemptWith "key-v1") (.at 5), .respond 9 5]

/-- The metrics that an observation shows. -/
def shownMetrics? : ServiceObs → Option Metrics
  | .responded _ ⟨_, .metrics metrics, _⟩ => some metrics
  | _ => none

theorem metricsTruth_scraped :
    ∃ s tr rid statusCode metrics id,
      run step (start sampleSettings 1) scrapedPayment = some (s, tr) ∧
      .responded rid ⟨statusCode, .metrics metrics, id⟩ ∈ tr ∧
      metrics.counters? = some ⟨["200"], 1, 0, 0, 0⟩ ∧
      Exports (start sampleSettings 1) scrapedPayment rid metrics := by
  obtain ⟨s, tr, hrun, hscraped⟩ : ∃ s tr,
      run step (start sampleSettings 1) scrapedPayment = some (s, tr) ∧
        (tr.filterMap shownMetrics?).map Metrics.counters? = [some ⟨["200"], 1, 0, 0, 0⟩] :=
    exists_run (by decide +kernel)
  obtain ⟨metrics, hin, hcounters⟩ :=
    List.mem_map.mp (hscraped ▸ List.mem_singleton_self (some (⟨["200"], 1, 0, 0, 0⟩ : Counters)))
  obtain ⟨o, hshown, hmetrics⟩ := List.mem_filterMap.mp hin
  unfold shownMetrics? at hmetrics
  split at hmetrics
  · rename_i rid statusCode metrics' id
    cases hmetrics
    exact ⟨s, tr, rid, statusCode, metrics, id, hrun, hshown, hcounters,
      metricsTruth sampleSettings 1 scrapedPayment s tr hrun rid statusCode metrics id hshown⟩
  · cases hmetrics

end Service

end PaymentConnector
