import PaymentConnector.Responses

/-!
# What the readiness probe says

`readiness` asks Vault for its token and looks at the current credential in one stretch,
awaits the gateway, and then answers.  Other tasks run meanwhile, so the answer is about the
moment of that stretch: it is a 200 exactly when Vault confirmed a token there and the
current credential was within its lifetime.  Every answer is audited once, as it is.  Where the
status cannot be read the route raises and there is neither an answer of its own nor an event.

## Main results

* `Service.readinessTruth` — what a health answer says holds of the state that it looked at.
* `Service.readinessAudited` — the health events of a run are those of its health answers.
-/

namespace PaymentConnector

open Library Library.Machine

/-- The health that a request is answered with, once it is. -/
def HttpCall.health? (call : HttpCall) : Option HealthStatus :=
  match call.stage with
  | .answered (.response _ (.health health)) => some health
  | _ => none

/-- The health that a response shows. -/
def ServiceObs.health? : ServiceObs → Option HealthStatus
  | .responded _ ⟨_, .health health, _⟩ => some health
  | _ => none

/-- The health event that an observation writes. -/
def ServiceObs.healthAudit? (o : ServiceObs) : Option AuditEvent :=
  match o.audit? with
  | some event => if event.event = "health_check" then some event else none
  | none => none

/-- The event of a health answer. -/
def HealthStatus.audit (health : HealthStatus) : AuditEvent :=
  auditHealthCheck health.status health.modelDump

namespace Service

/-- In a run, the request was handled in a state in which Vault and the credentials were as
given. -/
def Probed (s₀ : Service) (es : List ServiceEvent) (rid : Nat) (vaultConnected : Bool)
    (credStatus : CredentialStatus) : Prop :=
  ∃ es₁ vault t es₂ s tr, es = es₁ ++ .handle rid vault t :: es₂ ∧
    run step s₀ es₁ = some (s, tr) ∧
    vaultConnected = (s.vaultClient.isAuthenticated vault).1 ∧
    (vaultConnected = true → ∃ token, vault.lookup token = .ok true) ∧
    s.process.connector.credentialStatus t.check = .ok credStatus

/-- A health answer tells what was found: ready when Vault was there and the current credential
within its lifetime, not ready otherwise. -/
def Reports (s₀ : Service) (es : List ServiceEvent) (rid statusCode : Nat)
    (health : HealthStatus) : Prop :=
  ∃ credStatus, Probed s₀ es rid health.vaultConnected credStatus ∧
    health.credentialStatus = credStatus.value ∧
    ((health.vaultConnected = true ∧ (credStatus = .valid ∨ credStatus = .expiringSoon)) ∧
        statusCode = 200 ∧ health.status = "ready" ∨
      ¬ (health.vaultConnected = true ∧ (credStatus = .valid ∨ credStatus = .expiringSoon)) ∧
        statusCode = 503 ∧ health.status = "not_ready")

theorem Probed.concat {s₀ : Service} {es : List ServiceEvent} {rid : Nat}
    {vaultConnected : Bool} {credStatus : CredentialStatus}
    (h : Probed s₀ es rid vaultConnected credStatus) (e : ServiceEvent) :
    Probed s₀ (es ++ [e]) rid vaultConnected credStatus := by
  obtain ⟨es₁, vault, t, es₂, s, tr, rfl, hrun, hvault, hcred⟩ := h
  exact ⟨es₁, vault, t, es₂ ++ [e], s, tr, by simp, hrun, hvault, hcred⟩

theorem Reports.concat {s₀ : Service} {es : List ServiceEvent} {rid statusCode : Nat}
    {health : HealthStatus} (h : Reports s₀ es rid statusCode health) (e : ServiceEvent) :
    Reports s₀ (es ++ [e]) rid statusCode health := by
  obtain ⟨credStatus, hprobed, hrest⟩ := h
  exact ⟨credStatus, hprobed.concat e, hrest⟩

/-- Vault is there when it confirmed a token. -/
theorem isAuthenticated_lookup {c : VaultClient} {vault : VaultAttempt}
    (h : (c.isAuthenticated vault).1 = true) : ∃ token, vault.lookup token = .ok true := by
  unfold VaultClient.isAuthenticated at h
  split at h
  · cases h
  · rename_i client c' outputs hget
    split at h
    · rename_i answer hlookup
      dsimp only at h
      rw [h] at hlookup
      exact ⟨client.token, hlookup⟩
    · cases h

/-- The end of `readiness` reports what its beginning found. -/
theorem reports_of_probed {s₀ : Service} {es : List ServiceEvent} {rid statusCode : Nat}
    {vaultConnected : Bool} {credStatus : CredentialStatus} {health : HealthStatus}
    {startTime now : Rat} {gatewayReachable : Bool}
    (h : Probed s₀ es rid vaultConnected credStatus)
    (hanswer : (readiness startTime vaultConnected credStatus gatewayReachable now).1 =
      .response statusCode (.health health)) : Reports s₀ es rid statusCode health := by
  unfold readiness at hanswer
  dsimp only at hanswer
  cases hanswer
  refine ⟨credStatus, h, rfl, ?_⟩
  cases vaultConnected <;> cases credStatus <;> simp

/-- What a stage says of the health: a probe under way what it found, an answer what it
reports. -/
def Informed (s₀ : Service) (es : List ServiceEvent) (rid : Nat) : CallStage → Prop
  | .probing vaultConnected credStatus => Probed s₀ es rid vaultConnected credStatus
  | .answered (.response statusCode (.health health)) => Reports s₀ es rid statusCode health
  | _ => True

variable {s₀ s s' : Service} {e : ServiceEvent} {es : List ServiceEvent}
  {tr obs : List ServiceObs}

theorem Informed.concat {rid : Nat} {stage : CallStage} (h : Informed s₀ es rid stage)
    (e : ServiceEvent) : Informed s₀ (es ++ [e]) rid stage := by
  unfold Informed at h ⊢
  split at h
  · exact Probed.concat h e
  · exact Reports.concat h e
  · trivial

/-- The handler of the authorize route says nothing about the health. -/
theorem stageAfter_not_health {p p' : Process} {e : Event} {obs : List Obs}
    (hstep : p.step e = some (p', obs)) (hrid : e.rid? ≠ none) (statusCode : Nat)
    (health : HealthStatus) :
    stageAfter obs ≠ .answered (.response statusCode (.health health)) := by
  intro heq
  have hfits := stageAfter_fits hstep hrid samplePayment
  rw [heq] at hfits
  cases hfits

/-- What a step sets is informed by the state before it. -/
theorem informed_of_reaches (hrun : run step s₀ es = some (s, tr))
    (h : Knows (Informed s₀ es) s tr) {rid : Nat} {stage : CallStage}
    (hreaches : s.Reaches e rid stage) : Informed s₀ (es ++ [e]) rid stage := by
  cases hreaches with
  | probing rid vault t =>
      cases hstatus : s.process.connector.credentialStatus t.check with
      | error exc => trivial
      | ok credStatus =>
          exact ⟨es, vault, t, [], s, tr, rfl, hrun, rfl, isAuthenticated_lookup, hstatus⟩
  | probed rid statusCode now call vaultConnected credStatus hcall hstage =>
      have hprobed := h.calls call (call?_mem hcall)
      rw [s.call?_rid hcall, hstage] at hprobed
      exact reports_of_probed (Probed.concat hprobed _) rfl
  | authorizing e rid stage payment hfits =>
      unfold Informed
      split
      · cases hfits
      · cases hfits
      · trivial
  | framework rid vault t statusCode detail =>
      unfold frameworkAnswer
      split <;> trivial
  | _ => trivial

/-- For every schedule: a health answer is a 200 exactly when, in the state in which its request
was handled, Vault confirmed a token and the current credential was valid or near its expiry; and
it names that credential status. -/
theorem readinessTruth (settings : Settings) (now : Rat) (es : List ServiceEvent) (s : Service)
    (tr : List ServiceObs) (hrun : run step (start settings now) es = some (s, tr)) (rid : Nat)
    (statusCode : Nat) (health : HealthStatus) (id : Option String)
    (hshown : .responded rid ⟨statusCode, .health health, id⟩ ∈ tr) :
    Reports (start settings now) es rid statusCode health := by
  have hknows : Knows (Informed (start settings now) es) s tr :=
    run_knows (fun _ e _ _ h => Informed.concat h e)
      (fun _ _ _ _ _ _ hrun h hreaches => informed_of_reaches hrun h hreaches) hrun
  rcases hknows.shown rid statusCode (.health health) id hshown with hbare | hreports
  · cases hbare
  · exact hreports

def probeRequest : HttpRequest where
  method := "GET"
  path := "/health/ready"
  urlPath := "/health/ready"
  client := none
  xRequestId := some "probe-1"
  xApiKey := none
  route := .readiness
  registered := ⟨rfl, rfl⟩

/-- A probe after a load, with the gateway there. -/
def probeRun : List ServiceEvent :=
  [.load (fun _ => attemptWith "key-v1") (.at 1),
    .receive 1 probeRequest "uuid-1" 2, .limit 1 2 2, .handle 1 (attemptWith "key-v1") (.at 2),
    .reach 1 (some 200) 3, .respond 1 3]

/-- The health answers that a trace shows to the clients. -/
def healthShown (tr : List ServiceObs) : List (Nat × Nat × HealthStatus × Option String) :=
  tr.filterMap fun
    | .responded rid ⟨statusCode, .health health, id⟩ => some (rid, statusCode, health, id)
    | _ => none

theorem mem_healthShown {rid statusCode : Nat} {health : HealthStatus} {id : Option String}
    (h : (rid, statusCode, health, id) ∈ healthShown tr) :
    .responded rid ⟨statusCode, .health health, id⟩ ∈ tr := by
  obtain ⟨o, hin, hshows⟩ := List.mem_filterMap.mp h
  split at hshows
  · cases hshows
    exact hin
  · cases hshows

theorem readinessTruth_probe :
    ∃ s tr health, run step (start sampleSettings 1) probeRun = some (s, tr) ∧
      .responded 1 ⟨200, .health health, some "probe-1"⟩ ∈ tr ∧
      Reports (start sampleSettings 1) probeRun 1 200 health := by
  obtain ⟨s, tr, hrun, hready⟩ : ∃ s tr,
      run step (start sampleSettings 1) probeRun = some (s, tr) ∧
        (healthShown tr).map (fun answer => (answer.1, answer.2.1, answer.2.2.2)) =
          [(1, 200, some "probe-1")] := exists_run (by decide +kernel)
  obtain ⟨⟨rid, statusCode, health, id⟩, hin, heq⟩ :=
    List.mem_map.mp (hready ▸ List.mem_singleton_self _)
  cases heq
  have hshown := mem_healthShown hin
  exact ⟨s, tr, health, hrun, hshown,
    readinessTruth sampleSettings 1 probeRun s tr hrun 1 200 health (some "probe-1") hshown⟩

/-! ## The events -/

/-- The request with a name, between the others. -/
theorem calls_split {rid : Nat} {call : HttpCall} (hdistinct : (s.calls.map HttpCall.rid).Nodup)
    (hcall : s.call? rid = some call) :
    ∃ pre post, s.calls = pre ++ call :: post ∧ (∀ other ∈ pre, other.rid ≠ rid) ∧
      ∀ other ∈ post, other.rid ≠ rid := by
  have hrid := s.call?_rid hcall
  obtain ⟨pre, post, hsplit⟩ := List.append_of_mem (call?_mem hcall)
  rw [hsplit, List.map_append, List.map_cons, List.nodup_append, List.nodup_cons] at hdistinct
  obtain ⟨-, ⟨hpost, -⟩, hpre⟩ := hdistinct
  refine ⟨pre, post, hsplit, ?_, ?_⟩
  · intro other hin heq
    exact hpre other.rid (List.mem_map_of_mem hin) call.rid List.mem_cons_self
      (heq.trans hrid.symm)
  · intro other hin heq
    exact hpost (heq.trans hrid.symm ▸ List.mem_map_of_mem hin)

private theorem map_stage_of_ne {calls : List HttpCall} {rid : Nat} {stage : CallStage}
    (h : ∀ call ∈ calls, call.rid ≠ rid) :
    (calls.map fun call => if call.rid = rid then { call with stage := stage } else call) =
      calls := by
  refine (List.map_congr_left fun call hin => ?_).trans (List.map_id calls)
  rw [if_neg (h call hin)]
  rfl

private theorem filter_of_ne {calls : List HttpCall} {rid : Nat}
    (h : ∀ call ∈ calls, call.rid ≠ rid) :
    (calls.filter fun call => call.rid ≠ rid) = calls :=
  List.filter_eq_self.mpr fun call hin => decide_eq_true (h call hin)

/-- The health answers of a trace and of the requests that still wait for theirs. -/
def healthAnswers (s : Service) (tr : List ServiceObs) : List HealthStatus :=
  tr.filterMap ServiceObs.health? ++ s.calls.filterMap HttpCall.health?

private theorem filterMap_health? (call : HttpCall) (calls : List HttpCall) :
    (call :: calls).filterMap HttpCall.health? =
      call.health?.toList ++ calls.filterMap HttpCall.health? := by
  rw [List.filterMap_cons]
  cases call.health? <;> rfl

/-- A request without a health answer moves to another stage. -/
theorem healthAnswers_setStage (tr : List ServiceObs) (stage : CallStage) {s₁ : Service}
    {rid : Nat} {call : HttpCall} (hdistinct : (s.calls.map HttpCall.rid).Nodup)
    (hcalls : s₁.calls = s.calls) (hcall : s.call? rid = some call) (hnone : call.health? = none)
    (hsilent : obs.filterMap ServiceObs.health? = []) :
    (healthAnswers (s₁.setStage rid stage) (tr ++ obs)).Perm
      ((HttpCall.health? { call with stage := stage }).toList ++ healthAnswers s tr) := by
  obtain ⟨pre, post, hsplit, hpre, hpost⟩ := calls_split hdistinct hcall
  have hmoved : (s₁.setStage rid stage).calls = pre ++ { call with stage := stage } :: post := by
    rw [setStage, hcalls, hsplit]
    dsimp only
    rw [List.map_append, List.map_cons, map_stage_of_ne hpre, map_stage_of_ne hpost,
      if_pos (s.call?_rid hcall)]
  rw [healthAnswers, healthAnswers, hmoved, hsplit, List.filterMap_append, List.filterMap_append,
    List.filterMap_append, filterMap_health?, filterMap_health?, hnone, hsilent]
  simp only [Option.toList_none, List.nil_append, List.append_nil]
  generalize (HttpCall.health? { call with stage := stage }).toList = new
  have hinner := (List.perm_append_comm_assoc (pre.filterMap HttpCall.health?) new
    (post.filterMap HttpCall.health?)).append_left (tr.filterMap ServiceObs.health?)
  exact hinner.trans (List.perm_append_comm_assoc _ _ _)

/-- A request is answered. -/
theorem healthAnswers_remove (tr : List ServiceObs) {rid : Nat} {call : HttpCall}
    (hdistinct : (s.calls.map HttpCall.rid).Nodup) (hcall : s.call? rid = some call)
    (hshown : obs.filterMap ServiceObs.health? = call.health?.toList) :
    (healthAnswers { s with calls := s.calls.filter (fun call => call.rid ≠ rid) }
      (tr ++ obs)).Perm (healthAnswers s tr) := by
  obtain ⟨pre, post, hsplit, hpre, hpost⟩ := calls_split hdistinct hcall
  have hleft : (s.calls.filter fun call => call.rid ≠ rid) = pre ++ post := by
    rw [hsplit, List.filter_append, List.filter_cons_of_neg (by simp [s.call?_rid hcall]),
      filter_of_ne hpre, filter_of_ne hpost]
  rw [healthAnswers, healthAnswers, hleft, hsplit, List.filterMap_append, List.filterMap_append,
    List.filterMap_append, filterMap_health?, hshown, List.append_assoc]
  exact (List.perm_append_comm_assoc _ _ _).append_left _

section Audits

/-- The health events among audit events. -/
def healthEvents (events : List AuditEvent) : List AuditEvent :=
  events.filter fun event => event.event = "health_check"

theorem filterMap_healthAudit? (tr : List ServiceObs) :
    tr.filterMap ServiceObs.healthAudit? = healthEvents (tr.filterMap ServiceObs.audit?) := by
  induction tr with
  | nil => rfl
  | cons o tr ih =>
      rw [List.filterMap_cons, List.filterMap_cons, ih, ServiceObs.healthAudit?]
      cases o.audit? with
      | none => rfl
      | some event =>
          dsimp only
          by_cases hevent : event.event = "health_check"
          · rw [if_pos hevent, healthEvents, healthEvents,
              List.filter_cons_of_pos (by simp [hevent])]
          · rw [if_neg hevent, healthEvents, healthEvents,
              List.filter_cons_of_neg (by simp [hevent])]

theorem healthEvents_eq_nil {events : List AuditEvent}
    (h : ∀ event ∈ events, event.event ≠ "health_check") : healthEvents events = [] :=
  List.filter_eq_nil_iff.mpr fun event hin => by simpa using h event hin

private theorem audit?_outputs (outputs : List Output) :
    (outputs.map ServiceObs.output).filterMap ServiceObs.audit? = auditsOf outputs := by
  have hsame : ServiceObs.audit? ∘ ServiceObs.output = Output.audit? := by
    funext output
    cases output <;> rfl
  rw [List.filterMap_map, hsame]
  rfl

private theorem audit?_process (obs : List Obs) :
    (obs.map ServiceObs.process).filterMap ServiceObs.audit? = obs.filterMap Obs.audit? := by
  have hsame : ServiceObs.audit? ∘ ServiceObs.process = Obs.audit? := by
    funext o
    cases o with
    | output output => cases output <;> rfl
    | _ => rfl
  rw [List.filterMap_map, hsame]

private theorem audit?_refreshSleep (settings : Settings) (errors : Nat) :
    (refreshSleep settings errors).filterMap ServiceObs.audit? = [] := by
  unfold refreshSleep
  dsimp only
  split <;> rfl

private theorem healthAudit?_outputs {outputs : List Output} (h : auditsOf outputs = []) :
    (outputs.map ServiceObs.output).filterMap ServiceObs.healthAudit? = [] := by
  rw [filterMap_healthAudit?, audit?_outputs, h]
  rfl

private theorem healthAudit?_process {obs : List Obs}
    (h : ∀ event ∈ obs.filterMap Obs.audit?, event.event ≠ "health_check") :
    (obs.map ServiceObs.process).filterMap ServiceObs.healthAudit? = [] := by
  rw [filterMap_healthAudit?, audit?_process, healthEvents_eq_nil h]

private theorem healthAudit?_respond (call : HttpCall) (answer : HttpAnswer) (now : Rat) :
    (respond call answer now).filterMap ServiceObs.healthAudit? = [] := by
  cases answer with
  | raised exc => rfl
  | response statusCode body =>
      rw [respond, auditApiAccess]
      split <;> rfl

private theorem health?_respond (now : Rat) {call : HttpCall} {answer : HttpAnswer}
    (hstage : call.stage = .answered answer) :
    (respond call answer now).filterMap ServiceObs.health? = call.health?.toList := by
  have houtputs : ∀ outputs : List Output,
      (outputs.map ServiceObs.output).filterMap ServiceObs.health? = [] := by
    intro outputs
    rw [List.filterMap_map]
    exact List.filterMap_none outputs
  rw [HttpCall.health?, hstage]
  cases answer with
  | raised exc => rfl
  | response statusCode body =>
      rw [respond, List.filterMap_append, houtputs]
      cases body <;> rfl

private theorem health?_of_silent {obs : List ServiceObs}
    (h : obs.filterMap ServiceObs.respondedRid? = []) : obs.filterMap ServiceObs.health? = [] := by
  rw [List.filterMap_eq_nil_iff] at h ⊢
  intro o hin
  have hnone := h o hin
  cases o with
  | responded rid response => cases hnone
  | _ => rfl

private theorem readSecret_not_health (c : VaultClient) (settings : Settings)
    (env : Nat → VaultAttempt) :
    ∀ event ∈ auditsOf (c.readSecret settings none env).2.2, event.event ≠ "health_check" := by
  rw [VaultClient.readSecret_audits, List.forall_mem_singleton]
  unfold VaultClient.readAudit
  split
  · show "credential_access" ≠ "health_check"
    decide
  · show "credential_access" ≠ "health_check"
    decide

end Audits

/-- The health events written are those of the health answers given and on their way. -/
def HealthAudited (s : Service) (tr : List ServiceObs) : Prop :=
  (tr.filterMap ServiceObs.healthAudit?).Perm ((healthAnswers s tr).map HealthStatus.audit)

/-- A step without a health event that leaves the requests as they are. -/
private theorem HealthAudited.of_same_calls (h : HealthAudited s tr)
    (hcalls : s'.calls.filterMap HttpCall.health? = s.calls.filterMap HttpCall.health?)
    (haudits : obs.filterMap ServiceObs.healthAudit? = [])
    (hsilent : obs.filterMap ServiceObs.respondedRid? = []) : HealthAudited s' (tr ++ obs) := by
  rw [HealthAudited, healthAnswers, List.filterMap_append, List.filterMap_append, hcalls, haudits,
    health?_of_silent hsilent, List.append_nil, List.append_nil]
  exact h

/-- A request moved to a stage with as many health answers as the step writes health events. -/
private theorem HealthAudited.of_setStage (h : HealthAudited s tr) (hserved : Served es s tr)
    {s₁ : Service} {rid : Nat} {call : HttpCall} {stage : CallStage}
    (hcalls : s₁.calls = s.calls) (hcall : s.call? rid = some call) (hnone : call.health? = none)
    (haudits : obs.filterMap ServiceObs.healthAudit? =
      (HttpCall.health? { call with stage := stage }).toList.map HealthStatus.audit)
    (hsilent : obs.filterMap ServiceObs.respondedRid? = []) :
    HealthAudited (s₁.setStage rid stage) (tr ++ obs) := by
  have hmoved := healthAnswers_setStage tr stage hserved.distinct hcalls hcall hnone
    (health?_of_silent hsilent)
  rw [HealthAudited, List.filterMap_append, haudits]
  refine List.Perm.trans ?_ (hmoved.map HealthStatus.audit).symm
  rw [List.map_append]
  exact List.perm_append_comm.trans (h.append_left _)

theorem HealthAudited.step (h : HealthAudited s tr) (hserved : Served es s tr)
    (hstep : s.step e = some (s', obs)) : HealthAudited s' (tr ++ obs) := by
  cases step_cases hstep with
  | loaded env t read process obs hread hload =>
      have hprocess : (obs.map ServiceObs.process).filterMap ServiceObs.healthAudit? = [] := by
        refine healthAudit?_process fun event hin => ?_
        rcases Process.step_load_audits hload event hin with heq | heq <;> rw [heq] <;> decide
      have hreadAudits : ((s.vaultClient.readSecret s.process.connector.settings none env).2.2.map
          ServiceObs.output).filterMap ServiceObs.healthAudit? = [] := by
        rw [filterMap_healthAudit?, audit?_outputs,
          healthEvents_eq_nil (readSecret_not_health _ _ _)]
      refine h.of_same_calls rfl ?_ ?_
      · rw [List.filterMap_append, List.filterMap_append, hreadAudits, hprocess,
          filterMap_healthAudit?, audit?_refreshSleep]
        rfl
      · simp only [List.filterMap_append, respondedRid?_outputs, respondedRid?_process,
          respondedRid?_refreshSleep, List.append_nil]
  | received rid request uuid now hstarted hfresh =>
      refine h.of_same_calls ?_ rfl rfl
      rw [List.filterMap_append]
      exact List.append_nil _
  | admitted rid created now call hcall hstage =>
      refine h.of_setStage hserved rfl hcall ?_ ?_ (respondedRid?_outputs _)
      · rw [HttpCall.health?, hstage]
      · exact healthAudit?_outputs (s.rateLimit.dispatch_audits _ _ _)
  | limited rid created now call hcall hstage =>
      refine h.of_setStage hserved rfl hcall ?_ ?_ (respondedRid?_outputs _)
      · rw [HttpCall.health?, hstage]
      · exact healthAudit?_outputs (s.rateLimit.dispatch_audits _ _ _)
  | authorizing rid vault t call payment process obs hcall hstage hroute hrequest =>
      have hnot := stageAfter_not_health hrequest (by simp [Event.rid?])
      refine h.of_setStage hserved rfl hcall ?_ ?_ (respondedRid?_process _)
      · rw [HttpCall.health?, hstage]
      · rw [healthAudit?_process fun event hin => by
          rw [Process.step_request_audits hrequest event hin]
          decide]
        unfold HttpCall.health?
        split
        · rename_i heq
          exact absurd heq (hnot _ _)
        · rfl
  | answeredAtOnce rid vault t call answer hcall hstage hroute =>
      refine h.of_setStage hserved rfl hcall ?_ ?_ rfl
      · rw [HttpCall.health?, hstage]
      · rcases hroute with ⟨-, rfl⟩ | ⟨-, rfl⟩ | ⟨statusCode, detail, -, rfl⟩
        · rfl
        · rfl
        · unfold frameworkAnswer
          split <;> rfl
  | probing rid vault t call hcall hstage hroute =>
      refine h.of_setStage hserved rfl hcall ?_ ?_ (respondedRid?_outputs _)
      · rw [HttpCall.health?, hstage]
      · rw [healthAudit?_outputs (s.vaultClient.isAuthenticated_audits vault)]
        cases s.process.connector.credentialStatus t.check <;> rfl
  | resumed rid outcome uuid t process obs hanswer =>
      obtain ⟨⟨handler, hmem, hrid⟩, -, -⟩ := step_answer_stage hanswer
      obtain ⟨call, hcall, hstage⟩ := hserved.consistent.handling handler hmem
      rw [hrid] at hcall
      have hnot := stageAfter_not_health hanswer (by simp [Event.rid?])
      refine h.of_setStage hserved rfl hcall ?_ ?_ (respondedRid?_process _)
      · rw [HttpCall.health?, hstage]
      · have haudits : ∀ event ∈ obs.filterMap Obs.audit?, event.event ≠ "health_check" := by
          obtain ⟨_, -, -, ⟨-, -, baseUrl, hone⟩ | ⟨-, hnone⟩⟩ :=
            Process.step_answer_audits hanswer
          · rw [hone, List.forall_mem_singleton]
            show "auth_failure" ≠ "health_check"
            decide
          · rw [hnone]
            exact fun _ hin => absurd hin List.not_mem_nil
        rw [healthAudit?_process haudits]
        unfold HttpCall.health?
        split
        · rename_i heq
          exact absurd heq (hnot _ _)
        · rfl
  | probed rid statusCode now call vaultConnected credStatus hcall hstage =>
      refine h.of_setStage hserved rfl hcall ?_ rfl (respondedRid?_outputs _)
      rw [HttpCall.health?, hstage]
  | responded rid now call answer hcall hstage =>
      have hremoved := healthAnswers_remove tr hserved.distinct hcall
        (health?_respond now hstage)
      rw [HealthAudited, List.filterMap_append, healthAudit?_respond, List.append_nil]
      exact List.Perm.trans h (hremoved.map HealthStatus.audit).symm

/-- For every schedule, the health events of a run are exactly those of the health answers that
it gave and of those on their way to the client, each with that answer's outcome and details. -/
theorem readinessAudited (settings : Settings) (now : Rat) (es : List ServiceEvent) (s : Service)
    (tr : List ServiceObs) (hrun : run step (start settings now) es = some (s, tr)) :
    (tr.filterMap ServiceObs.healthAudit?).Perm ((healthAnswers s tr).map HealthStatus.audit) :=
  (run_history_invariant (I := fun es s tr => Served es s tr ∧ HealthAudited s tr)
    (fun _ _ _ _ _ _ _ h hstep => ⟨h.1.step hstep, h.2.step h.1 hstep⟩)
    ⟨start_served settings now, List.Perm.refl _⟩ hrun).2

theorem readinessAudited_probe :
    ∃ s tr, run step (start sampleSettings 1) probeRun = some (s, tr) ∧
      (healthAnswers s tr).map HealthStatus.status = ["ready"] ∧
      (tr.filterMap ServiceObs.healthAudit?).Perm
        ((healthAnswers s tr).map HealthStatus.audit) := by
  obtain ⟨s, tr, hrun, hready⟩ : ∃ s tr,
      run step (start sampleSettings 1) probeRun = some (s, tr) ∧
        (healthAnswers s tr).map HealthStatus.status = ["ready"] := exists_run (by decide +kernel)
  exact ⟨s, tr, hrun, hready, readinessAudited sampleSettings 1 probeRun s tr hrun⟩

end Service

end PaymentConnector
