import PaymentConnector.Redaction

/-!
# Secrets do not reach the outputs

Two runs of the whole service in which everything outside behaves the same, except
that Vault holds other non-empty strings under `api_key` and `api_secret`, write the
same audit events, answer every request alike and export the same metrics.  The
service commutes with redaction, and the events of two such runs are the same once
redacted.

## Main results

* `Service.step_redact` — one stretch of code.
* `Service.noninterference` — whole runs.
-/

namespace PaymentConnector

open Library Library.Machine

/-! ## The service commutes with redaction -/

def ServiceEvent.redact : ServiceEvent → ServiceEvent
  | .load env t => .load (fun i => (env i).redact) t
  | .handle rid vault t => .handle rid vault.redact t
  | e => e

def Service.redact (s : Service) : Service := { s with process := s.process.redact }

def ServiceObs.redact : ServiceObs → ServiceObs
  | .process obs => .process obs.redact
  | obs => obs

theorem stageAfter_redact (obs : List Obs) : stageAfter (obs.map Obs.redact) = stageAfter obs := by
  have hreply : ∀ o : Obs, o.redact.reply? = o.reply? := by
    intro o
    cases o <;> rfl
  unfold stageAfter
  rw [List.findSome?_map, show Obs.reply? ∘ Obs.redact = Obs.reply? from funext hreply]

theorem Service.errorsAfter_redact (s : Service) (obs : List Obs) :
    s.redact.errorsAfter (obs.map Obs.redact) = s.errorsAfter obs := by
  have hfailed : ∀ o : Obs, o.redact.loadFailed = o.loadFailed := by
    intro o
    cases o <;> rfl
  unfold Service.errorsAfter
  rw [List.any_map, show Obs.loadFailed ∘ Obs.redact = Obs.loadFailed from funext hfailed]
  rfl

theorem refreshSleep_redact (settings : Settings) (errors : Nat) :
    (refreshSleep settings errors).map ServiceObs.redact = refreshSleep settings errors := by
  unfold refreshSleep
  split <;> rfl

private theorem map_output_redact (outputs : List Output) :
    (outputs.map ServiceObs.output).map ServiceObs.redact = outputs.map ServiceObs.output := by
  rw [List.map_map]
  rfl

private theorem map_process_redact (obs : List Obs) :
    (obs.map ServiceObs.process).map ServiceObs.redact =
      (obs.map Obs.redact).map ServiceObs.process := by
  rw [List.map_map, List.map_map]
  rfl

namespace Service

theorem load_redact (s : Service) (env : Nat → VaultAttempt) (t : LoadReadings) :
    s.redact.load (fun i => (env i).redact) t =
      (s.load env t).map fun r => (r.1.redact, r.2.map ServiceObs.redact) := by
  have hread : s.redact.vaultClient.readSecret s.redact.process.connector.settings none
      (fun i => (env i).redact) =
        ((s.vaultClient.readSecret s.process.connector.settings none env).1.map KvSecret.redact,
          (s.vaultClient.readSecret s.process.connector.settings none env).2) :=
    s.vaultClient.readSecret_redact s.process.connector.settings none env
  unfold load
  dsimp only
  rw [hread]
  rcases s.vaultClient.readSecret s.process.connector.settings none env with
    ⟨result, vaultClient, outputs⟩
  simp only [vaultRead?_redact]
  cases vaultRead? result with
  | none => rfl
  | some read =>
      have hstep := s.process.step_redact (.load read t)
      simp only [Option.map_some, redact]
      simp only [Event.redact] at hstep
      rw [hstep]
      cases s.process.step (.load read t) with
      | none => rfl
      | some r =>
          obtain ⟨process, obs⟩ := r
          have herrors := s.errorsAfter_redact obs
          simp only [redact] at herrors
          simp only [Option.map_some, herrors, List.map_append, map_output_redact,
            map_process_redact, refreshSleep_redact]
          rfl

theorem handle_redact (s : Service) (call : HttpCall) (vault : VaultAttempt)
    (t : StartReadings) :
    s.redact.handle call vault.redact t =
      (s.handle call vault t).map fun r => (r.1.redact, r.2.map ServiceObs.redact) := by
  unfold handle
  cases call.request.route with
  | authorize payment =>
      have hstep := s.process.step_redact (.request call.rid
        { payment := payment, requestId := call.requestId, xApiKey := call.request.xApiKey } t)
      simp only [Event.redact] at hstep
      simp only [redact, hstep]
      cases s.process.step (.request call.rid
          { payment := payment, requestId := call.requestId, xApiKey := call.request.xApiKey }
          t) with
      | none => rfl
      | some r =>
          simp only [Option.map_some, stageAfter_redact, map_process_redact]
          rfl
  | liveness => rfl
  | readiness =>
      have hstatus : s.redact.process.connector.credentialStatus t.check =
          s.process.connector.credentialStatus t.check :=
        s.process.connector.credentialStatus_redact t.check
      have hvault : s.redact.vaultClient.isAuthenticated vault.redact =
          s.vaultClient.isAuthenticated vault := rfl
      simp only [hstatus, hvault, Option.map_some, map_output_redact]
      rfl
  | metrics =>
      have hmetrics : s.redact.process.connector.metrics = s.process.connector.metrics :=
        s.process.connector.metrics_redact
      simp only [hmetrics]
      rfl
  | framework statusCode detail => rfl

private theorem respond_redact (call : HttpCall) (answer : HttpAnswer) (now : Rat) :
    (respond call answer now).map ServiceObs.redact = respond call answer now := by
  cases answer with
  | response statusCode body =>
      simp only [respond, List.map_append, map_output_redact]
      rfl
  | raised exc => rfl

/-- A step of the redacted service is the redaction of the step. -/
theorem step_redact (s : Service) (e : ServiceEvent) :
    s.redact.step e.redact =
      (s.step e).map fun r => (r.1.redact, r.2.map ServiceObs.redact) := by
  have hcall : ∀ rid, s.redact.call? rid = s.call? rid := fun _ => rfl
  cases e with
  | load env t => exact s.load_redact env t
  | receive rid request uuid now =>
      by_cases hrefused : s.consecutiveErrors = none ∨ rid ∈ s.received
      · have hredacted : s.redact.consecutiveErrors = none ∨ rid ∈ s.redact.received := hrefused
        simp only [ServiceEvent.redact, step, if_pos hrefused, if_pos hredacted, Option.map_none]
      · have hredacted : ¬ (s.redact.consecutiveErrors = none ∨ rid ∈ s.redact.received) := hrefused
        simp only [ServiceEvent.redact, step, if_neg hrefused, if_neg hredacted]
        rfl
  | limit rid created now =>
      simp only [ServiceEvent.redact, step, hcall]
      split
      · simp only [Option.map_some, map_output_redact]
        rfl
      · rfl
  | handle rid vault t =>
      simp only [ServiceEvent.redact, step, hcall]
      split
      · exact s.handle_redact _ vault t
      · rfl
  | answer rid outcome uuid t =>
      have hstep := s.process.step_redact (.answer rid outcome uuid t)
      simp only [Event.redact] at hstep
      simp only [ServiceEvent.redact, step, redact, hstep]
      cases s.process.step (.answer rid outcome uuid t) with
      | none => rfl
      | some r =>
          simp only [Option.map_some, stageAfter_redact, map_process_redact]
          rfl
  | reach rid statusCode now =>
      simp only [ServiceEvent.redact, step, hcall]
      split
      · simp only [Option.map_some, map_output_redact]
        rfl
      · rfl
  | respond rid now =>
      simp only [ServiceEvent.redact, step, hcall]
      split
      · simp only [Option.map_some, respond_redact]
        rfl
      · rfl

end Service

/-! ## Two runs -/

/-- The audit event that an observation writes. -/
def ServiceObs.audit? : ServiceObs → Option AuditEvent
  | .output (.audit event) | .process (.output (.audit event)) => some event
  | _ => none

/-- The request that an observation answers, and how. -/
def ServiceObs.response? : ServiceObs → Option (Nat × HttpResponse)
  | .responded rid response => some (rid, response)
  | _ => none

/-- Events that differ at most in the values of `api_key` and `api_secret` in what
Vault returns, and there only in non-empty strings. -/
def SameButSecrets (es fs : List ServiceEvent) : Prop :=
  es.map ServiceEvent.redact = fs.map ServiceEvent.redact

private theorem filterMap_of_redact_eq {γ : Type} {shown : ServiceObs → Option γ}
    (hshown : ∀ o, shown (ServiceObs.redact o) = shown o) {tr tr' : List ServiceObs}
    (h : tr.map ServiceObs.redact = tr'.map ServiceObs.redact) :
    tr.filterMap shown = tr'.filterMap shown := by
  have hsame : shown ∘ ServiceObs.redact = shown := funext hshown
  have hmapped := congrArg (List.filterMap shown) h
  rwa [List.filterMap_map, List.filterMap_map, hsame] at hmapped

theorem ServiceObs.audit?_redact (o : ServiceObs) : o.redact.audit? = o.audit? := by
  cases o with
  | process obs => cases obs <;> rfl
  | _ => rfl

theorem ServiceObs.response?_redact (o : ServiceObs) : o.redact.response? = o.response? := by
  cases o <;> rfl

namespace Service

/-- Noninterference: a run and one that differs from it only in the keys and secrets
read from Vault write the same audit events, answer the same requests alike and end
with the same metrics. -/
theorem noninterference (settings : Settings) (now : Rat) (es fs : List ServiceEvent)
    (hsame : SameButSecrets es fs) (s : Service) (tr : List ServiceObs)
    (hrun : run step (start settings now) es = some (s, tr)) :
    ∃ t tr', run step (start settings now) fs = some (t, tr') ∧
      tr.filterMap ServiceObs.audit? = tr'.filterMap ServiceObs.audit? ∧
      tr.filterMap ServiceObs.response? = tr'.filterMap ServiceObs.response? ∧
      s.process.connector.metrics = t.process.connector.metrics := by
  obtain ⟨t, tr', hother, hstate, htrace⟩ := run_of_map_eq step_redact rfl hsame hrun
  have hmetrics : s.redact.process.connector.metrics = t.redact.process.connector.metrics := by
    rw [hstate]
  refine ⟨t, tr', hother, filterMap_of_redact_eq ServiceObs.audit?_redact htrace,
    filterMap_of_redact_eq ServiceObs.response?_redact htrace, ?_⟩
  rw [← s.process.connector.metrics_redact, ← t.process.connector.metrics_redact]
  exact hmetrics

/-- A Vault that holds version 1 with the given key. -/
def attemptWith (apiKey : String) : VaultAttempt where
  tokenFile := .text "jwt"
  login := fun _ _ => .ok "hvs.1"
  read := fun _ _ _ => .returned (.obj [("data", .obj [
    ("data", .obj [("api_key", .str apiKey), ("api_secret", .str "secret-v1")]),
    ("metadata", .obj [("version", .int 1)])])])
  lookup := fun _ => .ok true

/-- A Vault that cannot be read. -/
def unreachable : VaultAttempt :=
  { attemptWith "key-v1" with read := fun _ _ _ => .raised (.other "connection refused") }

def sampleHttpRequest : HttpRequest where
  method := "POST"
  path := "/api/v1/authorize"
  urlPath := "/api/v1/authorize"
  client := some "10.0.0.1"
  xRequestId := none
  xApiKey := some "default-api-key"
  route := .authorize samplePayment
  registered := ⟨rfl, rfl⟩

/-- A load, and a payment with the key it read. -/
def paymentRun (apiKey : String) : List ServiceEvent :=
  [.load (fun _ => attemptWith apiKey) (.at 1), .receive 1 sampleHttpRequest "uuid-1" 2,
    .limit 1 2 2, .handle 1 (attemptWith apiKey) (.at 2),
    .answer 1 (answerWith 200 "txn-1") "uuid-2" (.at 3), .respond 1 4]

theorem noninterference_otherKey :
    ∃ s tr t tr', run step (start sampleSettings 1) (paymentRun "key-a") = some (s, tr) ∧
      run step (start sampleSettings 1) (paymentRun "key-b") = some (t, tr') ∧
      (tr.filterMap ServiceObs.response?).map (fun r => r.2.statusCode) = [200] ∧
      tr.filterMap ServiceObs.audit? = tr'.filterMap ServiceObs.audit? ∧
      tr.filterMap ServiceObs.response? = tr'.filterMap ServiceObs.response? ∧
      s.process.connector.metrics = t.process.connector.metrics := by
  obtain ⟨s, tr, hrun, hanswered⟩ : ∃ s tr,
      run step (start sampleSettings 1) (paymentRun "key-a") = some (s, tr) ∧
        (tr.filterMap ServiceObs.response?).map (fun r => r.2.statusCode) = [200] :=
    exists_run (by decide +kernel)
  obtain ⟨t, tr', hother, hsame⟩ :=
    noninterference sampleSettings 1 (paymentRun "key-a") (paymentRun "key-b") rfl s tr hrun
  exact ⟨s, tr, t, tr', hrun, hother, hanswered, hsame⟩

end Service

end PaymentConnector
