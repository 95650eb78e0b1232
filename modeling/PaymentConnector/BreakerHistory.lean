import PaymentConnector.CallsRefinement
import PaymentConnector.FailClosed
import PaymentConnector.Gate

/-!
# The breaker behind the service

The breaker of the running service is read and written by any number of handlers, between the
loads and the probes of others.  On a clock that is not set back, what it answers is all the
same a function of how the POSTs to the gateway completed: it is closed below five failures
since the last success, open for thirty seconds after the last failure, and half-open from
then on.  Together with the checks before it, this says when a payment reaches the gateway.

## Main results

* `Process.step_remembers` — a step of the process adds what its POST records.
* `Service.run_remembers` — after any run the breaker answers from the record of the run.
* `Service.postGate` — when the handler of a payment makes its first POST.
-/

namespace PaymentConnector

open Library Library.Machine

/-! ## What a run records -/

def Event.recorded? : Event → Option Recorded
  | .answer _ outcome _ t => outcome.recorded? t
  | _ => none

def ServiceEvent.recorded? : ServiceEvent → Option Recorded
  | .answer _ outcome _ t => outcome.recorded? t
  | _ => none

/-- The successes and failures of the POSTs that completed, with the instants of the failures. -/
def gatewayRecord (es : List ServiceEvent) : List Recorded := es.filterMap ServiceEvent.recorded?

theorem gatewayRecord_concat (es : List ServiceEvent) (e : ServiceEvent) :
    gatewayRecord (es ++ [e]) = gatewayRecord es ++ e.recorded?.toList := by
  rw [gatewayRecord, List.filterMap_append, List.filterMap_cons]
  cases e.recorded? <;> rfl

/-! ## The breaker in a call -/

namespace CircuitBreaker

variable {b : CircuitBreaker} {rs : List Recorded} {failureThreshold : Nat}
  {timeoutSeconds now : Rat}

/-- The start of a call only reads. -/
theorem Tracks.afterStart {t : StartReadings} (h : b.Tracks failureThreshold timeoutSeconds rs now)
    (hgauge : now ≤ t.gauge) (hallow : t.gauge ≤ t.allow) (hrefuse : t.allow ≤ t.refuse) :
    (b.afterStart t).Tracks failureThreshold timeoutSeconds rs t.refuse := by
  have hallowed := ((h.mono hgauge).readState.mono hallow).readState.mono hrefuse
  unfold CircuitBreaker.afterStart
  dsimp only
  split
  · exact hallowed.readState
  · exact hallowed

/-- The completion of a POST adds what it records. -/
theorem Tracks.afterAnswer {t : AnswerReadings} (outcome : PostOutcome)
    (h : b.Tracks failureThreshold timeoutSeconds rs now) (hfailed : now ≤ t.failed)
    (hgauge : t.failed ≤ t.gauge) :
    (b.afterAnswer outcome t).Tracks failureThreshold timeoutSeconds
      (rs ++ (outcome.recorded? t).toList) t.gauge := by
  have hnow := h.mono hfailed
  unfold CircuitBreaker.afterAnswer
  cases hrecorded : outcome.recorded? t with
  | none =>
      rw [Option.toList_none, List.append_nil]
      exact hnow.mono hgauge
  | some r =>
      refine Tracks.readState (Tracks.mono ?_ hgauge)
      cases r with
      | success => exact hnow.perform .recordSuccess (fun _ heq => by cases heq)
      | failure at' =>
          obtain rfl := PostOutcome.recorded?_failure hrecorded
          exact hnow.perform (.recordFailure t.failed) (fun _ heq => by cases heq; rfl)

/-- `allows_request`, after the gauge was read. -/
theorem Tracks.allowed_iff {g : GatewayClient} {t : StartReadings}
    (h : g.circuitBreaker.Tracks failureThreshold timeoutSeconds rs now) (hgauge : now ≤ t.gauge)
    (hallow : t.gauge ≤ t.allow) :
    g.allowed t = true ↔
      Recorded.stateOf failureThreshold timeoutSeconds rs t.allow ≠ .openState := by
  have hread := ((h.mono hgauge).readState.mono hallow).readState_eq
  rw [GatewayClient.allowed, allowsRequest_eq, updateCircuitBreakerMetric_circuitBreaker, hread]
  exact decide_eq_true_iff

end CircuitBreaker

/-! ## The breaker of the process -/

namespace Process

variable {p p' : Process} {e : Event} {obs : List Obs} {rs : List Recorded} {now now' : Rat}

/-- The breaker of the client answers from a record. -/
def Remembers (rs : List Recorded) (now : Rat) (p : Process) : Prop :=
  ∃ client, p.connector.gatewayClient = some client ∧ client.circuitBreaker.Tracks 5 30 rs now

theorem start_remembers (settings : Settings) (manager : CredentialManager) (now : Rat) :
    (start settings manager).Remembers [] now :=
  ⟨_, rfl, CircuitBreaker.new_tracks (by decide) 30 now⟩

theorem Remembers.mono (h : p.Remembers rs now) (hle : now ≤ now') : p.Remembers rs now' := by
  obtain ⟨client, hclient, htracks⟩ := h
  exact ⟨client, hclient, htracks.mono hle⟩

theorem step_remembers (h : p.Remembers rs now) (hclock : (now :: e.readings).Pairwise (· ≤ ·))
    (hbefore : ∀ r ∈ now :: e.readings, r ≤ now') (hstep : p.step e = some (p', obs)) :
    p'.Remembers (rs ++ e.recorded?.toList) now' := by
  obtain ⟨client, hclient, htracks⟩ := h
  have hle : now ≤ now' := hbefore now List.mem_cons_self
  cases e with
  | load read t =>
      cases step_spec hstep with
      | load read t manager manager' result outputs hmanager hload =>
          show Remembers (rs ++ []) now' _
          rw [List.append_nil]
          exact ⟨client, hclient, htracks.mono hle⟩
  | request rid request t =>
      show Remembers (rs ++ []) now' _
      rw [List.append_nil]
      have hasks := beginRequest_asks hclient request t
      have hordered :
          (now :: (CallEvent.call rid .init request.payment t).readings).Pairwise (· ≤ ·) :=
        hclock.sublist (.cons_cons _ (.cons _ (.refl _)))
      obtain ⟨hgauge, hallow, hrefuse, hsend⟩ := CallEvent.call_ordered hordered
      have hasked : ∀ manager,
          (client.beginAuthorize manager request.payment t).1.circuitBreaker.Tracks 5 30 rs
            now' := by
        intro manager
        rw [beginAuthorize_circuitBreaker]
        exact (htracks.afterStart hgauge hallow hrefuse).mono
          (hbefore t.refuse (by simp [Event.readings]))
      simp only [step] at hstep
      split at hstep
      · cases hstep
      · simp only [Option.some.injEq, Prod.mk.injEq] at hstep
        obtain ⟨rfl, -⟩ := hstep
        show ∃ client', (p.connector.beginRequest request t).1.gatewayClient = some client' ∧ _
        generalize (p.connector.beginRequest request t).1.gatewayClient = client?,
          (p.connector.beginRequest request t).2.1 = advance at hasks
        cases hasks with
        | nothing reply => exact ⟨client, rfl, htracks.mono hle⟩
        | refused manager client' error reply hmanager hbegin =>
            have hnext := hasked manager
            rw [hbegin] at hnext
            exact ⟨client', rfl, hnext⟩
        | call manager client' pending hmanager hbegin =>
            have hnext := hasked manager
            rw [hbegin] at hnext
            exact ⟨client', rfl, hnext⟩
  | answer rid outcome uuid t =>
      have hordered : (now :: (CallEvent.answer rid outcome t).readings).Pairwise (· ≤ ·) := by
        refine hclock.sublist (.cons_cons _ ?_)
        exact List.sublist_append_left [t.done, t.failed, t.gauge, t.send] [t.stamp]
      obtain ⟨hdone, hfailed, hgauge, hsend⟩ := CallEvent.answer_ordered hordered
      simp only [step] at hstep
      split at hstep
      · rename_i client' handler hclient' hfind
        rw [hclient, Option.some.injEq] at hclient'
        subst hclient'
        simp only [Option.some.injEq, Prod.mk.injEq] at hstep
        obtain ⟨rfl, -⟩ := hstep
        refine ⟨_, (p.connector.resumeRequest_classes client _ _ outcome uuid t).2, ?_⟩
        rw [resumeAuthorize_circuitBreaker]
        exact (htracks.afterAnswer outcome (le_trans hdone hfailed) hgauge).mono
          (hbefore t.gauge (by simp [Event.readings]))
      · cases hstep

end Process

/-! ## The breaker of the service -/

/-- The payment that a route authorizes. -/
def Route.payment? : Route → Option PaymentRequest
  | .authorize payment => some payment
  | _ => none

theorem Route.payment?_eq_some {route : Route} {payment : PaymentRequest}
    (h : route.payment? = some payment) : route = .authorize payment := by
  cases route with
  | authorize payment' =>
      rw [Option.some.inj h]
  | _ => cases h

namespace Service

variable {s s' : Service} {e : ServiceEvent} {es : List ServiceEvent}
  {tr obs : List ServiceObs} {rs : List Recorded} {now now' : Rat}

theorem step_remembers (h : s.process.Remembers rs now)
    (hclock : (now :: e.readings).Pairwise (· ≤ ·)) (hbefore : ∀ r ∈ now :: e.readings, r ≤ now')
    (hstep : s.step e = some (s', obs)) :
    s'.process.Remembers (rs ++ e.recorded?.toList) now' := by
  have hsilent : s.process.Remembers (rs ++ []) now' := by
    rw [List.append_nil]
    exact h.mono (hbefore now List.mem_cons_self)
  cases step_cases hstep with
  | loaded env t read process obs hread hload =>
      exact Process.step_remembers (e := .load read t) h hclock hbefore hload
  | authorizing rid vault t call payment process obs hcall hstage hroute hrequest =>
      exact Process.step_remembers (e := .request rid (authorizeRequest call payment) t) h hclock
        hbefore hrequest
  | resumed rid outcome uuid t process obs hanswer =>
      exact Process.step_remembers (e := .answer rid outcome uuid t) h hclock hbefore hanswer
  | received => exact hsilent
  | admitted => exact hsilent
  | limited => exact hsilent
  | answeredAtOnce => exact hsilent
  | probing => exact hsilent
  | probed => exact hsilent
  | responded => exact hsilent

/-- A run adds what its POSTs record. -/
theorem run_remembers_from (h : s.process.Remembers rs now)
    (hrun : run step s es = some (s', tr)) (hforward : Forward ServiceEvent.readings now es)
    (hlater : now ≤ now') (huntil : Until ServiceEvent.readings now' es) :
    s'.process.Remembers (rs ++ gatewayRecord es) now' := by
  refine run_forward (I := fun c es s _ => s.process.Remembers (rs ++ gatewayRecord es) c)
    (fun hle h => h.mono hle) ?_ ?_ hrun hforward hlater huntil
  · intro c c' es s tr e s' o h hhere hbefore hs
    rw [gatewayRecord_concat, ← List.append_assoc]
    exact step_remembers h hhere hbefore hs
  · show Process.Remembers (rs ++ []) now s.process
    rw [List.append_nil]
    exact h

/-- The breaker of the service answers from the record of the run. -/
theorem run_remembers {settings : Settings} {started : Rat}
    (hrun : run step (start settings started) es = some (s, tr))
    (hforward : Forward ServiceEvent.readings started es) (hstarted : started ≤ now)
    (huntil : Until ServiceEvent.readings now es) :
    s.process.Remembers (gatewayRecord es) now :=
  run_remembers_from (Process.start_remembers settings .init started) hrun hforward hstarted huntil

/-- The settings stay. -/
theorem run_settings {settings : Settings} {started : Rat}
    (hrun : run step (start settings started) es = some (s, tr)) :
    s.process.connector.settings = settings := by
  obtain ⟨es', hprocess⟩ := run_process hrun
  exact (run_state_invariant (I := Validated settings) (fun _ _ _ _ h hs => step_validated h hs)
    (start_validated settings .init) hprocess).settings_eq

/-- Something was posted. -/
private theorem filterMap_post?_ne_nil_iff {obs : List Obs} :
    obs.filterMap Obs.post? ≠ [] ↔
      ∃ rid payment pending, .posted rid payment pending ∈ obs := by
  constructor
  · intro hsome
    obtain ⟨⟨rid, pending⟩, hin⟩ := List.exists_mem_of_ne_nil _ hsome
    obtain ⟨x, hx, hpost⟩ := List.mem_filterMap.mp hin
    cases x with
    | posted rid' payment pending' => exact ⟨rid', payment, pending', hx⟩
    | _ => cases hpost
  · rintro ⟨rid, payment, pending, hin⟩ hnil
    have hmem : (rid, pending) ∈ obs.filterMap Obs.post? := List.mem_filterMap.mpr ⟨_, hin, rfl⟩
    rw [hnil] at hmem
    exact List.not_mem_nil hmem

/-- The gate, by what is known of its parts. -/
private theorem passesGate_iff {c : Connector} {settings : Settings} {request : AuthorizeRequest}
    {t : StartReadings} {client : GatewayClient} {C : Prop} (hsettings : c.settings = settings)
    (hclient : c.gatewayClient = some client) (hallowed : client.allowed t = true ↔ C) :
    c.PassesGate request t ↔
      acceptsApiKey settings request.xApiKey = true ∧
        (∃ manager credential, c.credentialManager = some manager ∧
          manager.getCurrentCredential = some credential ∧ credential.Timed ∧
            credential.status t.check ≠ .ok .expired) ∧
        ¬ request.key ∈ c.idempotencyCache ∧ C := by
  subst hsettings
  constructor
  · intro h
    obtain ⟨manager, credential, hmanager, -, hstatus⟩ := h.credential
    obtain ⟨client', hclient', hpasses⟩ := h.breaker
    rw [hclient, Option.some.injEq] at hclient'
    subst hclient'
    obtain ⟨credential', hcurrent, htimed, hunexpired⟩ :=
      (manager.hasValidCredentials_iff _).mp
        ((manager.hasValidCredentials_iff_status _).mpr hstatus)
    exact ⟨(acceptsApiKey_iff _ _).mpr h.apiKey,
      ⟨manager, credential', hmanager, hcurrent, htimed, hunexpired⟩, h.notCached,
      hallowed.mp hpasses⟩
  · rintro ⟨hkey, ⟨manager, credential, hmanager, hcurrent, htimed, hunexpired⟩, hmiss, hC⟩
    have hvalid := (manager.hasValidCredentials_iff t.check).mpr
      ⟨credential, hcurrent, htimed, hunexpired⟩
    exact
      { apiKey := (acceptsApiKey_iff _ _).mp hkey
        credential := ⟨manager, credential, hmanager, hcurrent,
          (manager.hasValidCredentials_iff_status _).mp hvalid⟩
        notCached := hmiss
        breaker := ⟨client, hclient, hallowed.mpr hC⟩ }

/-- On a clock that is not set back: the handler of a payment that got past the middlewares makes
its first POST exactly when its API key is accepted, the current credential has no ttl that
cannot be a float and is not expired at the check, no response is cached under its idempotency
key, and of the POSTs completed so far fewer than five failed since the last success, or the last
failure was thirty seconds before. -/
theorem postGate (settings : Settings) (started now : Rat) (es : List ServiceEvent) (s s' : Service)
    (tr obs : List ServiceObs) (hrun : run step (start settings started) es = some (s, tr))
    (hforward : Forward ServiceEvent.readings started es) (hstarted : started ≤ now)
    (huntil : Until ServiceEvent.readings now es) (rid : Nat) (vault : VaultAttempt)
    (t : StartReadings) (hlater : now ≤ t.gauge ∧ t.gauge ≤ t.allow) (call : HttpCall)
    (payment : PaymentRequest) (hcall : s.call? rid = some call)
    (hroute : call.request.route = .authorize payment)
    (hstep : s.step (.handle rid vault t) = some (s', obs)) :
    obs.filterMap ServiceObs.post? ≠ [] ↔
      acceptsApiKey settings call.request.xApiKey = true ∧
        (∃ manager credential, s.process.connector.credentialManager = some manager ∧
          manager.getCurrentCredential = some credential ∧ credential.Timed ∧
            credential.status t.check ≠ .ok .expired) ∧
        ¬ payment.idempotencyKey ∈ s.process.connector.idempotencyCache ∧
        Recorded.stateOf 5 30 (gatewayRecord es) t.allow ≠ .openState := by
  obtain ⟨client, hclient, htracks⟩ := run_remembers hrun hforward hstarted huntil
  have hallowed := htracks.allowed_iff hlater.1 hlater.2
  have hsettings := run_settings hrun
  cases step_cases hstep with
  | authorizing rid vault t call' payment' process obs' hcall' hstage hroute' hrequest =>
      rw [hcall, Option.some.injEq] at hcall'
      subst hcall'
      rw [hroute, Route.authorize.injEq] at hroute'
      subst hroute'
      rw [filterMap_post?_process, filterMap_post?_ne_nil_iff, request_posts_iff hrequest]
      exact passesGate_iff hsettings hclient hallowed
  | answeredAtOnce rid vault t call' answer hcall' hstage hroute' =>
      rw [hcall, Option.some.injEq] at hcall'
      subst hcall'
      rw [hroute] at hroute'
      rcases hroute' with ⟨h, -⟩ | ⟨h, -⟩ | ⟨statusCode, detail, h, -⟩ <;> cases h
  | probing rid vault t call' hcall' hstage hroute' =>
      rw [hcall, Option.some.injEq] at hcall'
      subst hcall'
      rw [hroute] at hroute'
      cases hroute'

/-- The payment of the sample run, up to its handler. -/
def beforeHandle : List ServiceEvent := (paymentRun "key-a").take 3

theorem postGate_payment :
    ∃ s tr s' obs, run step (start sampleSettings 1) beforeHandle = some (s, tr) ∧
      s.step (.handle 1 (attemptWith "key-a") (.at 2)) = some (s', obs) ∧
      obs.filterMap ServiceObs.post? ≠ [] ∧
      ∃ apiKey, (obs.filterMap ServiceObs.post? ≠ [] ↔
        acceptsApiKey sampleSettings apiKey = true ∧
          (∃ manager credential, s.process.connector.credentialManager = some manager ∧
            manager.getCurrentCredential = some credential ∧ credential.Timed ∧
              credential.status 2 ≠ .ok .expired) ∧
          ¬ samplePayment.idempotencyKey ∈ s.process.connector.idempotencyCache ∧
          Recorded.stateOf 5 30 (gatewayRecord beforeHandle) 2 ≠ .openState) := by
  obtain ⟨s, tr, hrun, hcall, hposts⟩ : ∃ s tr,
      run step (start sampleSettings 1) beforeHandle = some (s, tr) ∧
        (s.call? 1).any (fun call => call.request.route.payment? = some samplePayment) = true ∧
        (s.step (.handle 1 (attemptWith "key-a") (.at 2))).any
          (fun r => (r.2.filterMap ServiceObs.post?).map Prod.fst = [1]) = true :=
    exists_run (by decide +kernel)
  obtain ⟨call, hcall, hpayment⟩ := (Option.any_eq_true _ _).mp hcall
  obtain ⟨⟨s', obs⟩, hstep, hposted⟩ := (Option.any_eq_true _ _).mp hposts
  have hroute := Route.payment?_eq_some (of_decide_eq_true hpayment)
  refine ⟨s, tr, s', obs, hrun, hstep, ?_, call.request.xApiKey, postGate sampleSettings 1 2
    beforeHandle s s' tr obs hrun (by decide +kernel) (by decide +kernel) (by decide +kernel) 1
    (attemptWith "key-a") (.at 2) (by decide +kernel) call samplePayment hcall hroute hstep⟩
  intro hnil
  have hnone := of_decide_eq_true hposted
  dsimp only at hnone
  rw [hnil] at hnone
  cases hnone

end Service

end PaymentConnector
