import PaymentConnector.AccessAudit
import PaymentConnector.OwnSteps

/-!
# Requests and their responses

The middlewares and the routes of the service run interleaved, a stretch of one request at
a time.  Whatever the schedule, a request gets at most one response, after its arrival,
under its own `X-Request-ID`, and one that its route can give: a payment or a refusal of
the authorize route, the states of the health routes, the metrics, or the 429 of the rate
limiter.  Only an exception leaves it without its id: one of the authorize handler, of the
readiness route on a status that cannot be read, or of the framework on an answer that it
cannot render.

## Main results

* `Service.step_cases` — everything a step of the service can do.
* `Service.responses` — every response answers one request that arrived, fitly and once.
* `Service.run_knows` — the run rule for what is known of a request when its stage is set.
-/

namespace PaymentConnector

open Library Library.Machine

namespace Service

/-! ## What a step can do -/

/-- The request that the authorize handler gets. -/
def authorizeRequest (call : HttpCall) (payment : PaymentRequest) : AuthorizeRequest where
  payment := payment
  requestId := call.requestId
  xApiKey := call.request.xApiKey

/-- Whether `check_reachability` finds the gateway. -/
def reachable (s : Service) (statusCode : Option Nat) : Bool :=
  s.process.connector.gatewayClient.isSome && GatewayClient.checkReachability statusCode

/-- Everything a step can do, with the guard under which it does it. -/
inductive Step (s : Service) : ServiceEvent → Service → List ServiceObs → Prop
  | loaded (env : Nat → VaultAttempt) (t : LoadReadings) (read : VaultRead) (process : Process)
      (obs : List Obs)
      (hread : vaultRead?
        (s.vaultClient.readSecret s.process.connector.settings none env).1 = some read)
      (hstep : s.process.step (.load read t) = some (process, obs)) :
      Step s (.load env t)
        { s with
          vaultClient := (s.vaultClient.readSecret s.process.connector.settings none env).2.1
          process := process
          consecutiveErrors := some (s.errorsAfter obs) }
        ((s.vaultClient.readSecret s.process.connector.settings none env).2.2.map .output ++
          obs.map .process ++ refreshSleep s.process.connector.settings (s.errorsAfter obs))
  | received (rid : Nat) (request : HttpRequest) (uuid : String) (now : Rat)
      (hstarted : s.consecutiveErrors ≠ none) (hfresh : ¬ rid ∈ s.received) :
      Step s (.receive rid request uuid now)
        { s with
          calls := s.calls ++ [⟨rid, request, request.xRequestId.getD uuid, now, .received⟩]
          received := rid :: s.received } []
  | admitted (rid : Nat) (created now : Rat) (call : HttpCall) (hcall : s.call? rid = some call)
      (hstage : call.stage = .received)
      (hdispatch : (s.rateLimit.dispatch call.request.client created now).2.1 = .callNext) :
      Step s (.limit rid created now)
        ({ s with
          rateLimit := (s.rateLimit.dispatch call.request.client created now).1 }.setStage rid
            .admitted)
        ((s.rateLimit.dispatch call.request.client created now).2.2.1.map .output)
  | limited (rid : Nat) (created now : Rat) (call : HttpCall) (hcall : s.call? rid = some call)
      (hstage : call.stage = .received)
      (hdispatch : (s.rateLimit.dispatch call.request.client created now).2.1 =
        .response 429 "Rate limit exceeded") :
      Step s (.limit rid created now)
        ({ s with
          rateLimit := (s.rateLimit.dispatch call.request.client created now).1 }.setStage rid
            (.answered (.response 429 (.detail (.str "Rate limit exceeded")))))
        ((s.rateLimit.dispatch call.request.client created now).2.2.1.map .output)
  | authorizing (rid : Nat) (vault : VaultAttempt) (t : StartReadings) (call : HttpCall)
      (payment : PaymentRequest) (process : Process) (obs : List Obs)
      (hcall : s.call? rid = some call) (hstage : call.stage = .admitted)
      (hroute : call.request.route = .authorize payment)
      (hstep : s.process.step (.request rid (authorizeRequest call payment) t) =
        some (process, obs)) :
      Step s (.handle rid vault t) ({ s with process := process }.setStage rid (stageAfter obs))
        (obs.map .process)
  | answeredAtOnce (rid : Nat) (vault : VaultAttempt) (t : StartReadings) (call : HttpCall)
      (answer : HttpAnswer) (hcall : s.call? rid = some call) (hstage : call.stage = .admitted)
      (hroute : call.request.route = .liveness ∧ answer = .response 200 .alive ∨
        call.request.route = .metrics ∧
          answer = .response 200 (.metrics s.process.connector.metrics) ∨
        ∃ statusCode detail, call.request.route = .framework statusCode detail ∧
          answer = frameworkAnswer statusCode detail) :
      Step s (.handle rid vault t) (s.setStage rid (.answered answer)) []
  | probing (rid : Nat) (vault : VaultAttempt) (t : StartReadings) (call : HttpCall)
      (hcall : s.call? rid = some call) (hstage : call.stage = .admitted)
      (hroute : call.request.route = .readiness) :
      Step s (.handle rid vault t)
        ({ s with vaultClient := (s.vaultClient.isAuthenticated vault).2.1 }.setStage rid
          (readinessStage (s.vaultClient.isAuthenticated vault).1
            (s.process.connector.credentialStatus t.check)))
        ((s.vaultClient.isAuthenticated vault).2.2.map .output)
  | resumed (rid : Nat) (outcome : PostOutcome) (uuid : String) (t : AnswerReadings)
      (process : Process) (obs : List Obs)
      (hstep : s.process.step (.answer rid outcome uuid t) = some (process, obs)) :
      Step s (.answer rid outcome uuid t)
        ({ s with process := process }.setStage rid (stageAfter obs)) (obs.map .process)
  | probed (rid : Nat) (statusCode : Option Nat) (now : Rat) (call : HttpCall)
      (vaultConnected : Bool) (credStatus : CredentialStatus) (hcall : s.call? rid = some call)
      (hstage : call.stage = .probing vaultConnected credStatus) :
      Step s (.reach rid statusCode now)
        (s.setStage rid (.answered
          (readiness s.startTime vaultConnected credStatus (s.reachable statusCode) now).1))
        ((readiness s.startTime vaultConnected credStatus (s.reachable statusCode) now).2.map
          .output)
  | responded (rid : Nat) (now : Rat) (call : HttpCall) (answer : HttpAnswer)
      (hcall : s.call? rid = some call) (hstage : call.stage = .answered answer) :
      Step s (.respond rid now)
        { s with calls := s.calls.filter (fun call => call.rid ≠ rid) }
        (respond call answer now)

variable {s s' : Service} {e : ServiceEvent} {obs : List ServiceObs}

/-- The limiter passes a request on, or has one answer. -/
theorem dispatch_cases (m : RateLimitMiddleware) (client : Option String) (created now : Rat) :
    (m.dispatch client created now).2.1 = .callNext ∨
      (m.dispatch client created now).2.1 = .response 429 "Rate limit exceeded" := by
  unfold RateLimitMiddleware.dispatch
  dsimp only
  split
  · exact Or.inr rfl
  · exact Or.inl rfl

private theorem limit_cases {rid : Nat} {created now : Rat}
    (h : s.step (.limit rid created now) = some (s', obs)) :
    Step s (.limit rid created now) s' obs := by
  simp only [step] at h
  split at h
  · rename_i rid' request requestId startTime hcall
    have hdispatch := dispatch_cases s.rateLimit request.client created now
    rcases hm : s.rateLimit.dispatch request.client created now with ⟨m, d, outputs, evicted⟩
    rw [hm] at hdispatch
    simp only [hm] at h
    rcases hdispatch with rfl | rfl
    · cases h
      have hadmitted := Step.admitted rid created now _ hcall rfl (by rw [hm])
      simpa only [hm] using hadmitted
    · cases h
      have hlimited := Step.limited rid created now _ hcall rfl (by rw [hm])
      simpa only [hm] using hlimited
  · cases h

private theorem handle_cases {rid : Nat} {vault : VaultAttempt} {t : StartReadings}
    (h : s.step (.handle rid vault t) = some (s', obs)) :
    Step s (.handle rid vault t) s' obs := by
  simp only [step] at h
  split at h
  · rename_i rid' request requestId startTime hcall
    have hrid : rid' = rid := s.call?_rid hcall
    subst hrid
    unfold handle at h
    cases hroute : request.route with
    | authorize payment =>
        simp only [hroute] at h
        split at h
        · cases h
        · rename_i process obs' hstep
          cases h
          exact .authorizing rid' vault t _ payment process obs' hcall rfl hroute hstep
    | liveness =>
        simp only [hroute] at h
        cases h
        exact .answeredAtOnce rid' vault t _ _ hcall rfl (Or.inl ⟨hroute, rfl⟩)
    | readiness =>
        simp only [hroute, Option.some.injEq, Prod.mk.injEq] at h
        obtain ⟨rfl, rfl⟩ := h
        exact .probing rid' vault t _ hcall rfl hroute
    | metrics =>
        simp only [hroute] at h
        cases h
        exact .answeredAtOnce rid' vault t _ _ hcall rfl (Or.inr (Or.inl ⟨hroute, rfl⟩))
    | framework statusCode detail =>
        simp only [hroute] at h
        cases h
        exact .answeredAtOnce rid' vault t _ _ hcall rfl
          (Or.inr (Or.inr ⟨statusCode, detail, hroute, rfl⟩))
  · cases h

theorem step_cases (h : s.step e = some (s', obs)) : Step s e s' obs := by
  cases e with
  | load env t =>
      simp only [step, load] at h
      split at h
      · cases h
      · rename_i read hread
        split at h
        · cases h
        · rename_i process obs' hstep
          cases h
          exact .loaded env t read process obs' hread hstep
  | receive rid request uuid now =>
      simp only [step] at h
      split at h
      · cases h
      · rename_i hnew
        cases h
        exact .received rid request uuid now (fun heq => hnew (Or.inl heq))
          (fun hin => hnew (Or.inr hin))
  | limit rid created now => exact limit_cases h
  | handle rid vault t => exact handle_cases h
  | answer rid outcome uuid t =>
      simp only [step] at h
      split at h
      · cases h
      · rename_i process obs' hstep
        cases h
        exact .resumed rid outcome uuid t process obs' hstep
  | reach rid statusCode now =>
      simp only [step] at h
      split at h
      · rename_i rid' request requestId startTime vaultConnected credStatus hcall
        simp only [Option.some.injEq, Prod.mk.injEq] at h
        obtain ⟨rfl, rfl⟩ := h
        exact .probed rid statusCode now _ vaultConnected credStatus hcall rfl
      · cases h
  | respond rid now =>
      simp only [step] at h
      split at h
      · rename_i rid' request requestId startTime answer hcall
        have hrid : rid' = rid := s.call?_rid hcall
        subst hrid
        cases h
        exact .responded rid' now _ answer hcall rfl
      · cases h

end Service

/-! ## What a route answers -/

/-- The answers that a request can get below the two outer middlewares. -/
inductive Answers : Route → HttpAnswer → Prop
  | limited (route : Route) :
      Answers route (.response 429 (.detail (.str "Rate limit exceeded")))
  | paid (payment : PaymentRequest) (response : PaymentResponse) :
      Answers (.authorize payment) (.response 200 (.payment response))
  | refused (payment : PaymentRequest) (statusCode : Nat) (detail : String)
      (hcode : statusCode = 401 ∨ statusCode = 403 ∨ statusCode = 503) :
      Answers (.authorize payment) (.response statusCode (.detail (.str detail)))
  | raised (payment : PaymentRequest) (exc : PyExc) :
      Answers (.authorize payment) (.raised exc)
  | alive : Answers .liveness (.response 200 .alive)
  | healthy (health : HealthStatus) (hstatus : health.status = "ready") :
      Answers .readiness (.response 200 (.health health))
  | unhealthy (health : HealthStatus) (hstatus : health.status = "not_ready") :
      Answers .readiness (.response 503 (.health health))
  | unreadable (exc : PyExc) : Answers .readiness (.raised exc)
  | exported (metrics : Metrics) : Answers .metrics (.response 200 (.metrics metrics))
  | framework (statusCode : Nat) (detail : Json) (hrenders : renders detail = true) :
      Answers (.framework statusCode detail) (.response statusCode (.detail detail))
  | unrenderable (statusCode : Nat) (detail : Json) (exc : PyExc)
      (hrenders : renders detail = false) :
      Answers (.framework statusCode detail) (.raised exc)

/-- A stage that a request of the route can be in. -/
def CallStage.Fits (route : Route) : CallStage → Prop
  | .received | .admitted => True
  | .authorizing => ∃ payment, route = .authorize payment
  | .probing _ _ => route = .readiness
  | .answered answer => Answers route answer

/-- What the client receives for an answer from below: that answer under the request's id, or
a bare 500 for an exception. -/
inductive Responds (request : HttpRequest) (uuid : String) : HttpResponse → Prop
  | passed (statusCode : Nat) (body : ResponseBody)
      (hanswer : Answers request.route (.response statusCode body)) :
      Responds request uuid ⟨statusCode, body, some (request.xRequestId.getD uuid)⟩
  | bare (exc : PyExc) (hanswer : Answers request.route (.raised exc)) :
      Responds request uuid ⟨500, .internalServerError, none⟩

theorem frameworkAnswer_answers (statusCode : Nat) (detail : Json) :
    Answers (.framework statusCode detail) (frameworkAnswer statusCode detail) := by
  unfold frameworkAnswer
  split
  · rename_i hrenders
    exact .framework statusCode detail hrenders
  · rename_i hrenders
    exact .unrenderable statusCode detail _ (Bool.eq_false_iff.mpr hrenders)

theorem readinessStage_fits (vaultConnected : Bool) (status : Except PyExc CredentialStatus) :
    (readinessStage vaultConnected status).Fits .readiness := by
  cases status with
  | ok credStatus => exact rfl
  | error exc => exact .unreadable exc

theorem readiness_answers (startTime : Rat) (vaultConnected : Bool)
    (credStatus : CredentialStatus) (gatewayReachable : Bool) (now : Rat) :
    Answers .readiness
      (readiness startTime vaultConnected credStatus gatewayReachable now).1 := by
  unfold readiness
  dsimp only
  split
  · exact .healthy _ rfl
  · exact .unhealthy _ rfl

/-- Where the handler of the authorize route gets to in one stretch. -/
theorem stageAfter_fits {p p' : Process} {e : Event} {obs : List Obs}
    (hstep : p.step e = some (p', obs)) (hrid : e.rid? ≠ none) (payment : PaymentRequest) :
    (stageAfter obs).Fits (.authorize payment) := by
  have hsilent : ∀ output : Output, (Obs.output output).reply? = none := fun _ => rfl
  cases step_spec hstep with
  | load => exact absurd rfl hrid
  | refused rid request t client code detail outputs hseen hclient hcode =>
      rw [stageAfter_map hsilent]
      exact .refused payment code detail hcode
  | raised rid request t exc =>
      rw [stageAfter_map hsilent]
      exact .raised payment exc
  | replayed rid request t manager cached =>
      rw [stageAfter_map hsilent]
      exact .paid payment cached
  | posting => exact ⟨payment, rfl⟩
  | stored handler outcome uuid t client inFlight outputs body response =>
      rw [stageAfter_storedObs]
      exact .paid payment response
  | failed handler outcome uuid t client inFlight outputs reply hmem haccepted hreply =>
      rw [stageAfter_map hsilent]
      rcases hreply with ⟨-, detail, rfl⟩ | ⟨-, exc, rfl⟩
      · exact .refused payment 503 detail (Or.inr (Or.inr rfl))
      · exact .raised payment exc
  | fallback =>
      rw [stageAfter_map hsilent]
      exact ⟨payment, rfl⟩

/-- The request whose arrival an event is. -/
def ServiceEvent.receivedRid? : ServiceEvent → Option Nat
  | .receive rid _ _ _ => some rid
  | _ => none

/-- The request that an observation answers. -/
def ServiceObs.respondedRid? : ServiceObs → Option Nat
  | .responded rid _ => some rid
  | _ => none

namespace Service

/-- What a run says of the requests on their way and of those answered. -/
structure Served (es : List ServiceEvent) (s : Service) (tr : List ServiceObs) : Prop where
  consistent : s.Consistent
  distinct : (s.calls.map HttpCall.rid).Nodup
  fits : ∀ call ∈ s.calls, call.stage.Fits call.request.route
  arrived : ∀ call ∈ s.calls, ∃ uuid now,
    .receive call.rid call.request uuid now ∈ es ∧
      call.requestId = call.request.xRequestId.getD uuid
  received_iff : ∀ rid, rid ∈ s.received ↔ rid ∈ es.filterMap ServiceEvent.receivedRid?
  arrivals : (es.filterMap ServiceEvent.receivedRid?).Nodup
  open' : ∀ call ∈ s.calls, ¬ call.rid ∈ tr.filterMap ServiceObs.respondedRid?
  known : ∀ rid ∈ tr.filterMap ServiceObs.respondedRid?, rid ∈ s.received
  once : (tr.filterMap ServiceObs.respondedRid?).Nodup
  fitly : ∀ rid response, .responded rid response ∈ tr → ∃ request uuid now,
    .receive rid request uuid now ∈ es ∧ Responds request uuid response

variable {s s' : Service} {e : ServiceEvent} {es : List ServiceEvent} {tr obs : List ServiceObs}

theorem start_served (settings : Settings) (now : Rat) :
    Served [] (start settings now) [] where
  consistent := start_consistent settings now
  distinct := List.nodup_nil
  fits := fun _ h => absurd h List.not_mem_nil
  arrived := fun _ h => absurd h List.not_mem_nil
  received_iff := fun _ => Iff.rfl
  arrivals := List.nodup_nil
  open' := fun _ h => absurd h List.not_mem_nil
  known := fun _ h => absurd h List.not_mem_nil
  once := List.nodup_nil
  fitly := fun _ _ h => absurd h List.not_mem_nil

@[simp] theorem respondedRid?_outputs (outputs : List Output) :
    (outputs.map ServiceObs.output).filterMap ServiceObs.respondedRid? = [] := by
  rw [List.filterMap_map]
  exact List.filterMap_none outputs

@[simp] theorem respondedRid?_process (obs : List Obs) :
    (obs.map ServiceObs.process).filterMap ServiceObs.respondedRid? = [] := by
  rw [List.filterMap_map]
  exact List.filterMap_none obs

@[simp] theorem respondedRid?_refreshSleep (settings : Settings) (errors : Nat) :
    (refreshSleep settings errors).filterMap ServiceObs.respondedRid? = [] := by
  unfold refreshSleep
  dsimp only
  split <;> rfl

theorem respondedRid?_respond {call : HttpCall} {answer : HttpAnswer} {now : Rat} :
    (respond call answer now).filterMap ServiceObs.respondedRid? = [call.rid] := by
  cases answer with
  | response statusCode body =>
      rw [respond, List.filterMap_append, respondedRid?_outputs]
      rfl
  | raised exc => rfl

theorem mem_respondedRid? {rid : Nat} {response : HttpResponse}
    (h : .responded rid response ∈ tr) : rid ∈ tr.filterMap ServiceObs.respondedRid? :=
  List.mem_filterMap.mpr ⟨_, h, rfl⟩

/-- A step that answers no request and receives none. -/
private theorem Served.of_silent (h : Served es s tr) (hconsistent : s'.Consistent)
    (hreceived : s'.received = s.received) (hevent : e.receivedRid? = none)
    (hsilent : obs.filterMap ServiceObs.respondedRid? = [])
    (hrids : s'.calls.map HttpCall.rid = s.calls.map HttpCall.rid)
    (hcalls : ∀ call' ∈ s'.calls, call'.stage.Fits call'.request.route ∧
      ∃ call ∈ s.calls, call'.rid = call.rid ∧ call'.request = call.request ∧
        call'.requestId = call.requestId) : Served (es ++ [e]) s' (tr ++ obs) := by
  have hes : (es ++ [e]).filterMap ServiceEvent.receivedRid? =
      es.filterMap ServiceEvent.receivedRid? := by
    rw [List.filterMap_append, List.filterMap_cons_none hevent]
    exact List.append_nil _
  have htr : (tr ++ obs).filterMap ServiceObs.respondedRid? =
      tr.filterMap ServiceObs.respondedRid? := by
    rw [List.filterMap_append, hsilent, List.append_nil]
  refine ⟨hconsistent, hrids ▸ h.distinct, fun call hin => (hcalls call hin).1, ?_, ?_, ?_, ?_,
    ?_, ?_, ?_⟩
  · intro call' hin
    obtain ⟨call, hmem, hrid, hrequest, hid⟩ := (hcalls call' hin).2
    obtain ⟨uuid, now, harrived, heq⟩ := h.arrived call hmem
    rw [hrid, hrequest, hid]
    exact ⟨uuid, now, List.mem_append_left _ harrived, heq⟩
  · rw [hes, hreceived]
    exact h.received_iff
  · rw [hes]
    exact h.arrivals
  · intro call' hin
    obtain ⟨call, hmem, hrid, -, -⟩ := (hcalls call' hin).2
    rw [htr, hrid]
    exact h.open' call hmem
  · rw [htr, hreceived]
    exact h.known
  · rw [htr]
    exact h.once
  · intro rid response hin
    have hold : .responded rid response ∈ tr := by
      rcases List.mem_append.mp hin with hin | hin
      · exact hin
      · have hshown := mem_respondedRid? hin
        rw [hsilent] at hshown
        exact absurd hshown List.not_mem_nil
    obtain ⟨request, uuid, now, harrived, hresponds⟩ := h.fitly rid response hold
    exact ⟨request, uuid, now, List.mem_append_left _ harrived, hresponds⟩

/-- A step that takes one request to another stage. -/
private theorem Served.of_setStage (h : Served es s tr) {s₁ : Service} {rid : Nat}
    {call : HttpCall} {stage : CallStage} (hconsistent : (s₁.setStage rid stage).Consistent)
    (hcalls : s₁.calls = s.calls) (hreceived : s₁.received = s.received)
    (hevent : e.receivedRid? = none)
    (hsilent : obs.filterMap ServiceObs.respondedRid? = []) (hcall : s.call? rid = some call)
    (hfits : stage.Fits call.request.route) :
    Served (es ++ [e]) (s₁.setStage rid stage) (tr ++ obs) := by
  refine h.of_silent hconsistent hreceived hevent hsilent ?_ ?_
  · rw [setStage, List.map_map, hcalls]
    refine List.map_congr_left fun call' _ => ?_
    simp only [Function.comp_apply]
    split <;> rfl
  · intro call' hin
    obtain ⟨call₀, hmem, rfl⟩ := List.mem_map.mp hin
    rw [hcalls] at hmem
    by_cases hrid : call₀.rid = rid
    · have hsame : call₀ = call :=
        List.inj_on_of_nodup_map h.distinct hmem (call?_mem hcall)
          (hrid.trans (s.call?_rid hcall).symm)
      rw [if_pos hrid, hsame]
      exact ⟨hfits, call, call?_mem hcall, rfl, rfl, rfl⟩
    · rw [if_neg hrid]
      exact ⟨h.fits call₀ hmem, call₀, hmem, rfl, rfl, rfl⟩

/-- The arrival of a request. -/
private theorem Served.step_received (h : Served es s tr) {rid : Nat} {request : HttpRequest}
    {uuid : String} {now : Rat} (hfresh : ¬ rid ∈ s.received)
    (hconsistent : Consistent { s with
      calls := s.calls ++ [⟨rid, request, request.xRequestId.getD uuid, now, .received⟩]
      received := rid :: s.received }) :
    Served (es ++ [.receive rid request uuid now])
      { s with
        calls := s.calls ++ [⟨rid, request, request.xRequestId.getD uuid, now, .received⟩]
        received := rid :: s.received } tr where
  consistent := hconsistent
  distinct := by
    rw [List.map_append, List.map_cons, List.map_nil, ← List.concat_eq_append]
    refine h.distinct.concat fun hin => ?_
    obtain ⟨call, hmem, heq⟩ := List.mem_map.mp hin
    have hrid : call.rid = rid := heq
    exact hfresh (hrid ▸ h.consistent.named call hmem)
  fits := by
    intro call hin
    rcases List.mem_append.mp hin with hold | hnew
    · exact h.fits call hold
    · rw [List.mem_singleton.mp hnew]
      trivial
  arrived := by
    intro call hin
    rcases List.mem_append.mp hin with hold | hnew
    · obtain ⟨uuid', now', harrived, heq⟩ := h.arrived call hold
      exact ⟨uuid', now', List.mem_append_left _ harrived, heq⟩
    · rw [List.mem_singleton.mp hnew]
      exact ⟨uuid, now, List.mem_append_right _ List.mem_cons_self, rfl⟩
  received_iff := by
    intro rid'
    rw [List.filterMap_append, List.mem_append, ← h.received_iff rid', List.mem_cons, or_comm]
    simp [ServiceEvent.receivedRid?]
  arrivals := by
    rw [List.filterMap_append]
    show (es.filterMap ServiceEvent.receivedRid? ++ [rid]).Nodup
    rw [← List.concat_eq_append]
    exact h.arrivals.concat fun hin => hfresh ((h.received_iff rid).mpr hin)
  open' := by
    intro call hin
    rcases List.mem_append.mp hin with hold | hnew
    · exact h.open' call hold
    · rw [List.mem_singleton.mp hnew]
      exact fun hshown => hfresh (h.known rid hshown)
  known := fun rid' hin => List.mem_cons_of_mem _ (h.known rid' hin)
  once := h.once
  fitly := by
    intro rid' response hin
    obtain ⟨request', uuid', now', harrived, hresponds⟩ := h.fitly rid' response hin
    exact ⟨request', uuid', now', List.mem_append_left _ harrived, hresponds⟩

/-- What leaves the outer middlewares is fit for the request. -/
private theorem Served.respond_fitly (h : Served es s tr) {rid : Nat} {call : HttpCall}
    {answer : HttpAnswer} {now : Rat} (hcall : s.call? rid = some call)
    (hstage : call.stage = .answered answer) {rid' : Nat} {response : HttpResponse}
    (hin : .responded rid' response ∈ respond call answer now) :
    rid' = rid ∧ ∃ request uuid arrival,
      .receive rid request uuid arrival ∈ es ∧ Responds request uuid response := by
  have hrid := s.call?_rid hcall
  obtain ⟨uuid, arrival, harrived, hid⟩ := h.arrived call (call?_mem hcall)
  have hfits := h.fits call (call?_mem hcall)
  rw [hstage] at hfits
  rw [hrid] at harrived
  cases answer with
  | response statusCode body =>
      rcases List.mem_append.mp hin with hin | hin
      · simp at hin
      · cases List.mem_singleton.mp hin
        rw [hid]
        exact ⟨hrid, call.request, uuid, arrival, harrived, .passed statusCode body hfits⟩
  | raised exc =>
      cases List.mem_singleton.mp hin
      exact ⟨hrid, call.request, uuid, arrival, harrived, .bare exc hfits⟩

/-- The response of a request. -/
private theorem Served.step_responded (h : Served es s tr) {rid : Nat} {call : HttpCall}
    {answer : HttpAnswer} {now : Rat} (hcall : s.call? rid = some call)
    (hstage : call.stage = .answered answer)
    (hconsistent : Consistent { s with calls := s.calls.filter (fun call => call.rid ≠ rid) }) :
    Served (es ++ [.respond rid now])
      { s with calls := s.calls.filter (fun call => call.rid ≠ rid) }
      (tr ++ respond call answer now) := by
  have hes : (es ++ [ServiceEvent.respond rid now]).filterMap ServiceEvent.receivedRid? =
      es.filterMap ServiceEvent.receivedRid? := by
    rw [List.filterMap_append]
    exact List.append_nil _
  have htr : (tr ++ respond call answer now).filterMap ServiceObs.respondedRid? =
      tr.filterMap ServiceObs.respondedRid? ++ [rid] := by
    rw [List.filterMap_append, respondedRid?_respond, s.call?_rid hcall]
  have hopen := h.open' call (call?_mem hcall)
  rw [s.call?_rid hcall] at hopen
  refine ⟨hconsistent, h.distinct.sublist (List.filter_sublist.map _),
    fun call' hin => h.fits call' (List.mem_of_mem_filter hin), ?_, ?_, ?_, ?_, ?_, ?_, ?_⟩
  · intro call' hin
    obtain ⟨uuid, arrival, harrived, heq⟩ := h.arrived call' (List.mem_of_mem_filter hin)
    exact ⟨uuid, arrival, List.mem_append_left _ harrived, heq⟩
  · rw [hes]
    exact h.received_iff
  · rw [hes]
    exact h.arrivals
  · intro call' hin
    have hboth := List.mem_filter.mp hin
    rw [htr, List.mem_append, List.mem_singleton]
    rintro (hold | heq)
    · exact h.open' call' hboth.1 hold
    · exact of_decide_eq_true hboth.2 heq
  · intro rid' hin
    rw [htr, List.mem_append, List.mem_singleton] at hin
    rcases hin with hold | rfl
    · exact h.known rid' hold
    · exact s.call?_rid hcall ▸ h.consistent.named call (call?_mem hcall)
  · rw [htr, ← List.concat_eq_append]
    exact h.once.concat hopen
  · intro rid' response hin
    rcases List.mem_append.mp hin with hold | hnew
    · obtain ⟨request, uuid, arrival, harrived, hresponds⟩ := h.fitly rid' response hold
      exact ⟨request, uuid, arrival, List.mem_append_left _ harrived, hresponds⟩
    · obtain ⟨rfl, request, uuid, arrival, harrived, hresponds⟩ :=
        h.respond_fitly hcall hstage hnew
      exact ⟨request, uuid, arrival, List.mem_append_left _ harrived, hresponds⟩

theorem Served.step (h : Served es s tr) (hstep : s.step e = some (s', obs)) :
    Served (es ++ [e]) s' (tr ++ obs) := by
  have hconsistent := (step_moves h.consistent hstep).1
  cases step_cases hstep with
  | loaded env t read process obs hread hload =>
      refine h.of_silent hconsistent rfl rfl ?_ rfl
        (fun call hin => ⟨h.fits call hin, call, hin, rfl, rfl, rfl⟩)
      simp only [List.filterMap_append, respondedRid?_outputs, respondedRid?_process,
        respondedRid?_refreshSleep, List.append_nil]
  | received rid request uuid now hstarted hfresh =>
      rw [List.append_nil]
      exact h.step_received hfresh hconsistent
  | admitted rid created now call hcall =>
      exact h.of_setStage hconsistent rfl rfl rfl (respondedRid?_outputs _) hcall trivial
  | limited rid created now call hcall =>
      exact h.of_setStage hconsistent rfl rfl rfl (respondedRid?_outputs _) hcall
        (.limited call.request.route)
  | authorizing rid vault t call payment process obs hcall hstage hroute hrequest =>
      refine h.of_setStage hconsistent rfl rfl rfl (respondedRid?_process _) hcall ?_
      rw [hroute]
      exact stageAfter_fits hrequest (by simp [Event.rid?]) payment
  | answeredAtOnce rid vault t call answer hcall hstage hroute =>
      refine h.of_setStage hconsistent rfl rfl rfl rfl hcall ?_
      rcases hroute with ⟨hroute, rfl⟩ | ⟨hroute, rfl⟩ | ⟨statusCode, detail, hroute, rfl⟩
      · rw [hroute]
        exact .alive
      · rw [hroute]
        exact .exported _
      · rw [hroute]
        exact frameworkAnswer_answers statusCode detail
  | probing rid vault t call hcall hstage hroute =>
      refine h.of_setStage hconsistent rfl rfl rfl (respondedRid?_outputs _) hcall ?_
      rw [hroute]
      exact readinessStage_fits _ _
  | resumed rid outcome uuid t process obs hanswer =>
      obtain ⟨⟨handler, hmem, hrid⟩, -, -⟩ := step_answer_stage hanswer
      obtain ⟨call, hcall, hstage⟩ := h.consistent.handling handler hmem
      have hfits := h.fits call (call?_mem hcall)
      rw [hstage] at hfits
      obtain ⟨payment, hroute⟩ := hfits
      rw [hrid] at hcall
      refine h.of_setStage hconsistent rfl rfl rfl (respondedRid?_process _) hcall ?_
      rw [hroute]
      exact stageAfter_fits hanswer (by simp [Event.rid?]) payment
  | probed rid statusCode now call vaultConnected credStatus hcall hstage =>
      have hroute := h.fits call (call?_mem hcall)
      rw [hstage] at hroute
      refine h.of_setStage hconsistent rfl rfl rfl (respondedRid?_outputs _) hcall ?_
      rw [show call.request.route = .readiness from hroute]
      exact readiness_answers s.startTime vaultConnected credStatus _ now
  | responded rid now call answer hcall hstage =>
      exact h.step_responded hcall hstage hconsistent

theorem run_served {settings : Settings} {now : Rat}
    (hrun : run step (start settings now) es = some (s, tr)) : Served es s tr :=
  run_history_invariant (I := fun es s tr => Served es s tr)
    (fun _ _ _ _ _ _ _ h hstep => h.step hstep) (start_served settings now) hrun

/-- For every schedule of any requests, each arrives once and is answered at most once; and
every answer is one that its route can give, under the request's own id, or the bare 500 for an
exception that the route can raise. -/
theorem responses (settings : Settings) (now : Rat) (es : List ServiceEvent) (s : Service)
    (tr : List ServiceObs) (hrun : run step (start settings now) es = some (s, tr)) :
    (es.filterMap ServiceEvent.receivedRid?).Nodup ∧
      (tr.filterMap ServiceObs.respondedRid?).Nodup ∧
      ∀ rid response, .responded rid response ∈ tr → ∃ request uuid arrival,
        .receive rid request uuid arrival ∈ es ∧ Responds request uuid response := by
  have hserved := run_served hrun
  exact ⟨hserved.arrivals, hserved.once, hserved.fitly⟩

theorem responses_payment :
    ∃ s tr, run step (start sampleSettings 1) (paymentRun "key-a") = some (s, tr) ∧
      (1, 200) ∈ statuses tr ∧
      ((paymentRun "key-a").filterMap ServiceEvent.receivedRid?).Nodup ∧
      (tr.filterMap ServiceObs.respondedRid?).Nodup ∧
      ∀ rid response, .responded rid response ∈ tr → ∃ request uuid arrival,
        .receive rid request uuid arrival ∈ paymentRun "key-a" ∧
          Responds request uuid response := by
  obtain ⟨s, tr, hrun, hanswered⟩ : ∃ s tr,
      run step (start sampleSettings 1) (paymentRun "key-a") = some (s, tr) ∧
        (1, 200) ∈ statuses tr := exists_run (by decide +kernel)
  exact ⟨s, tr, hrun, hanswered, responses sampleSettings 1 (paymentRun "key-a") s tr hrun⟩

/-! ## What is known of an answer -/

/-- A step takes the request to the stage. -/
inductive Reaches (s : Service) : ServiceEvent → Nat → CallStage → Prop
  | received (rid : Nat) (request : HttpRequest) (uuid : String) (now : Rat) :
      Reaches s (.receive rid request uuid now) rid .received
  | admitted (rid : Nat) (created now : Rat) : Reaches s (.limit rid created now) rid .admitted
  | limited (rid : Nat) (created now : Rat) :
      Reaches s (.limit rid created now) rid
        (.answered (.response 429 (.detail (.str "Rate limit exceeded"))))
  | authorizing (e : ServiceEvent) (rid : Nat) (stage : CallStage) (payment : PaymentRequest)
      (hfits : stage.Fits (.authorize payment)) : Reaches s e rid stage
  | alive (rid : Nat) (vault : VaultAttempt) (t : StartReadings) :
      Reaches s (.handle rid vault t) rid (.answered (.response 200 .alive))
  | exported (rid : Nat) (vault : VaultAttempt) (t : StartReadings) :
      Reaches s (.handle rid vault t) rid
        (.answered (.response 200 (.metrics s.process.connector.metrics)))
  | framework (rid : Nat) (vault : VaultAttempt) (t : StartReadings) (statusCode : Nat)
      (detail : Json) :
      Reaches s (.handle rid vault t) rid (.answered (frameworkAnswer statusCode detail))
  | probing (rid : Nat) (vault : VaultAttempt) (t : StartReadings) :
      Reaches s (.handle rid vault t) rid
        (readinessStage (s.vaultClient.isAuthenticated vault).1
          (s.process.connector.credentialStatus t.check))
  | probed (rid : Nat) (statusCode : Option Nat) (now : Rat) (call : HttpCall)
      (vaultConnected : Bool) (credStatus : CredentialStatus) (hcall : s.call? rid = some call)
      (hstage : call.stage = .probing vaultConnected credStatus) :
      Reaches s (.reach rid statusCode now) rid
        (.answered
          (readiness s.startTime vaultConnected credStatus (s.reachable statusCode) now).1)

/-- `K` holds of every request on its way at its stage, and held of every answer given. -/
structure Knows (K : Nat → CallStage → Prop) (s : Service) (tr : List ServiceObs) : Prop where
  calls : ∀ call ∈ s.calls, K call.rid call.stage
  shown : ∀ rid statusCode body id, .responded rid ⟨statusCode, body, id⟩ ∈ tr →
    body = .internalServerError ∨ K rid (.answered (.response statusCode body))

variable {K K' : Nat → CallStage → Prop}

theorem start_knows (settings : Settings) (now : Rat) : Knows K (start settings now) [] where
  calls := fun _ h => absurd h List.not_mem_nil
  shown := fun _ _ _ _ h => absurd h List.not_mem_nil

/-- A step that answers nothing. -/
private theorem Knows.of_silent (h : Knows K s tr) (hK : ∀ rid stage, K rid stage → K' rid stage)
    (hcalls : ∀ call' ∈ s'.calls, K' call'.rid call'.stage)
    (hsilent : obs.filterMap ServiceObs.respondedRid? = []) : Knows K' s' (tr ++ obs) := by
  refine ⟨hcalls, fun rid statusCode body id hin => ?_⟩
  rcases List.mem_append.mp hin with hold | hnew
  · exact (h.shown rid statusCode body id hold).imp_right (hK rid _)
  · have hshown := mem_respondedRid? hnew
    rw [hsilent] at hshown
    exact absurd hshown List.not_mem_nil

private theorem Knows.of_setStage (h : Knows K s tr)
    (hK : ∀ rid stage, K rid stage → K' rid stage) {s₁ : Service} {rid : Nat} {stage : CallStage}
    (hcalls : s₁.calls = s.calls) (hstage : K' rid stage)
    (hsilent : obs.filterMap ServiceObs.respondedRid? = []) :
    Knows K' (s₁.setStage rid stage) (tr ++ obs) := by
  refine h.of_silent hK (fun call' hin => ?_) hsilent
  obtain ⟨call, hmem, rfl⟩ := List.mem_map.mp hin
  rw [hcalls] at hmem
  by_cases hrid : call.rid = rid
  · rw [if_pos hrid]
    exact hrid ▸ hstage
  · rw [if_neg hrid]
    exact hK _ _ (h.calls call hmem)

/-- What holds of the stages that a step sets, and goes on to hold of the others, holds of all
of them and of the answers. -/
theorem Knows.step (h : Knows K s tr) (hK : ∀ rid stage, K rid stage → K' rid stage)
    (hstep : s.step e = some (s', obs))
    (hnew : ∀ rid stage, s.Reaches e rid stage → K' rid stage) : Knows K' s' (tr ++ obs) := by
  have hold : ∀ call ∈ s.calls, K' call.rid call.stage :=
    fun call hin => hK _ _ (h.calls call hin)
  cases step_cases hstep with
  | loaded env t read process obs hread hload =>
      refine h.of_silent hK hold ?_
      simp only [List.filterMap_append, respondedRid?_outputs, respondedRid?_process,
        respondedRid?_refreshSleep, List.append_nil]
  | received rid request uuid now =>
      refine h.of_silent hK (fun call hin => ?_) rfl
      rcases List.mem_append.mp hin with hin | hin
      · exact hold call hin
      · rw [List.mem_singleton.mp hin]
        exact hnew _ _ (.received rid request uuid now)
  | admitted rid created now call hcall =>
      exact h.of_setStage hK rfl (hnew _ _ (.admitted rid created now)) (respondedRid?_outputs _)
  | limited rid created now call hcall =>
      exact h.of_setStage hK rfl (hnew _ _ (.limited rid created now)) (respondedRid?_outputs _)
  | authorizing rid vault t call payment process obs hcall hstage hroute hrequest =>
      have hfits := stageAfter_fits hrequest (by simp [Event.rid?]) payment
      exact h.of_setStage hK rfl (hnew _ _ (.authorizing _ rid _ payment hfits))
        (respondedRid?_process _)
  | answeredAtOnce rid vault t call answer hcall hstage hroute =>
      refine h.of_setStage hK rfl (hnew _ _ ?_) rfl
      rcases hroute with ⟨-, rfl⟩ | ⟨-, rfl⟩ | ⟨statusCode, detail, -, rfl⟩
      · exact .alive rid vault t
      · exact .exported rid vault t
      · exact .framework rid vault t statusCode detail
  | probing rid vault t call hcall hstage hroute =>
      exact h.of_setStage hK rfl (hnew _ _ (.probing rid vault t)) (respondedRid?_outputs _)
  | resumed rid outcome uuid t process obs hanswer =>
      have hfits := stageAfter_fits hanswer (by simp [Event.rid?]) samplePayment
      exact h.of_setStage hK rfl (hnew _ _ (.authorizing _ rid _ samplePayment hfits))
        (respondedRid?_process _)
  | probed rid statusCode now call vaultConnected credStatus hcall hstage =>
      exact h.of_setStage hK rfl
        (hnew _ _ (.probed rid statusCode now call vaultConnected credStatus hcall hstage))
        (respondedRid?_outputs _)
  | responded rid now call answer hcall hstage =>
      refine ⟨fun call' hin => hold call' (List.mem_of_mem_filter hin), ?_⟩
      intro rid' statusCode body id hin
      rcases List.mem_append.mp hin with hin | hin
      · exact (h.shown rid' statusCode body id hin).imp_right (hK rid' _)
      · have hknown := hold call (call?_mem hcall)
        rw [hstage] at hknown
        cases answer with
        | response statusCode' body' =>
            rcases List.mem_append.mp hin with hin | hin
            · simp at hin
            · cases List.mem_singleton.mp hin
              exact Or.inr hknown
        | raised exc =>
            cases List.mem_singleton.mp hin
            exact Or.inl rfl

/-- The run rule, for what is known in terms of the events so far. -/
theorem run_knows {K : List ServiceEvent → Nat → CallStage → Prop} {settings : Settings}
    {now : Rat} (hK : ∀ es e rid stage, K es rid stage → K (es ++ [e]) rid stage)
    (hnew : ∀ es s tr e rid stage, run step (start settings now) es = some (s, tr) →
      Knows (K es) s tr → s.Reaches e rid stage → K (es ++ [e]) rid stage)
    (hrun : run step (start settings now) es = some (s, tr)) : Knows (K es) s tr :=
  run_history_invariant (I := fun es s tr => Knows (K es) s tr)
    (fun es s tr e _ _ hrun h hstep =>
      h.step (hK es e) hstep fun rid stage => hnew es s tr e rid stage hrun h)
    (start_knows settings now) hrun

end Service

end PaymentConnector
