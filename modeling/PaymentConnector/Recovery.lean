import PaymentConnector.BreakerHistory
import PaymentConnector.Bounded
import PaymentConnector.BucketBounds
import PaymentConnector.CredentialStore
import PaymentConnector.Progress

/-!
# Recovery

Whatever has happened to the service (an outage of Vault, an expired credential, a tripped
breaker, an empty bucket, any number of requests hanging at a dead gateway), nothing of it
lasts.  Once Vault returns a complete secret of a new version, one load and, on a clock that is
thirty seconds on, one payment that the gateway accepts put the service back to work.

## Main results

* `Service.run_funded` — no bucket was refilled in the future.
* `Service.recovers` — from every state that a run reaches, one load and one payment lead to a
  200 and to a closed breaker.
-/

namespace PaymentConnector

open Library Library.Machine

/-! ## The buckets -/

namespace RateLimitMiddleware

/-- Every bucket is one of the limiter's, last refilled in the past. -/
def Funded (now : Rat) (m : RateLimitMiddleware) : Prop :=
  ∀ key bucket, m.buckets.get? key = some bucket → bucket.Sound 100 100 now

variable {m : RateLimitMiddleware} {now created later : Rat}

theorem Funded.mono (h : m.Funded now) (hle : now ≤ later) : m.Funded later :=
  fun key bucket hbucket => (h key bucket hbucket).mono hle

/-- The bucket that a request draws on, maybe a new one. -/
theorem Funded.bucketFor (h : m.Funded now) (hcreated : now ≤ created) (key : String) :
    (m.bucketFor key created).Sound 100 100 created := by
  unfold RateLimitMiddleware.bucketFor
  cases hbucket : m.buckets.get? key with
  | none => exact TokenBucket.new_sound (by decide +kernel)
  | some bucket => exact (h key bucket hbucket).mono hcreated

theorem Funded.dispatch (h : m.Funded now) (hcreated : now ≤ created) (hlater : created ≤ later)
    (client : Option String) : (m.dispatch client created later).1.Funded later := by
  intro key bucket hbucket
  rw [dispatch_eq rfl] at hbucket
  dsimp only at hbucket
  by_cases hkey : key = client.getD "unknown"
  · rw [hkey, OrderedDict.get?_set_self, Option.some.injEq] at hbucket
    rw [← hbucket]
    exact ((h.bucketFor hcreated _).mono hlater).consume (by norm_num)
  · rw [OrderedDict.get?_set_ne _ hkey, getBucket_get?_ne hkey] at hbucket
    split at hbucket
    · cases hbucket
    · exact (h key bucket hbucket).mono (le_trans hcreated hlater)

/-- A hundredth of a second after everything before, a request is passed on. -/
theorem Funded.passes (h : m.Funded now) (hlater : created ≤ later) (hnow : now + 1 / 100 ≤ later)
    (client : Option String) :
    (m.dispatch client created later).2.1 = .callNext := by
  rw [dispatch_eq rfl]
  have haccepted : ((m.bucketFor (client.getD "unknown") created).consume 1 later).1 = true := by
    unfold RateLimitMiddleware.bucketFor
    cases hbucket : m.buckets.get? (client.getD "unknown") with
    | none => exact (TokenBucket.consume_new (by decide +kernel) (by decide +kernel) hlater).1
    | some bucket =>
        have hsound := h _ bucket hbucket
        have hrefill : bucket.lastRefill + 1 / 100 ≤ later := by
          have hbefore := hsound.refilled_before
          linarith
        exact TokenBucket.Sound.accepts (by norm_num) (by norm_num)
          { hsound with refilled_before := le_refl _ } hrefill
  dsimp only
  rw [haccepted]
  rfl

end RateLimitMiddleware

/-! ## The breaker -/

/-- Failures are recorded at readings of the clock. -/
theorem gatewayRecord_readings {es : List ServiceEvent} {f : Rat}
    (h : .failure f ∈ gatewayRecord es) : f ∈ es.flatMap ServiceEvent.readings := by
  obtain ⟨e, he, hrecorded⟩ := List.mem_filterMap.mp h
  cases e with
  | answer rid outcome uuid t =>
      rw [PostOutcome.recorded?_failure hrecorded]
      exact List.mem_flatMap.mpr ⟨_, he, by simp [ServiceEvent.readings]⟩
  | _ => cases hrecorded

/-- A 200 is recorded as a success. -/
theorem PostOutcome.recorded?_of_accepted {outcome : PostOutcome} (t : AnswerReadings)
    (h : outcome.accepted = true) : outcome.recorded? t = some .success := by
  cases outcome with
  | response statusCode json =>
      have hattempt : (PostOutcome.response statusCode json).accepted = true := h
      simp only [PostOutcome.accepted, PostOutcome.attempt] at hattempt
      simp only [PostOutcome.recorded?]
      split
      · rename_i hrejected
        rw [if_pos hrejected] at hattempt
        cases hattempt
      · rename_i hpassed
        rw [if_neg hpassed] at hattempt
        split
        · rename_i hfailed
          rw [if_pos hfailed] at hattempt
          cases hattempt
        · rfl
  | timeout error => cases h
  | httpError error => cases h
  | raised exc => cases h

/-- Thirty seconds after the last failure the breaker is not open. -/
theorem Recorded.stateOf_ne_open {rs : List Recorded} {now later : Rat}
    (hpast : ∀ f, .failure f ∈ rs → f ≤ now) (hlater : now + 30 ≤ later) :
    Recorded.stateOf 5 30 rs later ≠ .openState := by
  unfold Recorded.stateOf
  split
  · decide
  · rename_i hover
    cases hlast : Recorded.lastFailure? rs with
    | none =>
        have hnone : rs.rtakeWhile Recorded.isFailure = [] := by
          refine List.eq_nil_iff_forall_not_mem.mpr fun r hr => ?_
          have hfailure := List.mem_rtakeWhile_imp hr
          have hin : r ∈ rs := (List.rtakeWhile_suffix _ rs).subset hr
          cases r with
          | success => cases hfailure
          | failure f =>
              have hmem : f ∈ rs.filterMap Recorded.failedAt? :=
                List.mem_filterMap.mpr ⟨_, hin, rfl⟩
              rw [List.getLast?_eq_none_iff.mp hlast] at hmem
              exact List.not_mem_nil hmem
        rw [Recorded.failures, hnone] at hover
        exact absurd (by decide) hover
    | some f =>
        have hmem := List.mem_of_getLast? hlast
        obtain ⟨r, hin, hr⟩ := List.mem_filterMap.mp hmem
        cases r with
        | success => cases hr
        | failure f' =>
            obtain rfl : f' = f := Option.some.inj hr
            have hf := hpast f' hin
            have helapsed : 30 ≤ later - f' := by linarith
            dsimp only
            rw [if_pos helapsed]
            decide

/-! ## The service -/

namespace Service

variable {s s' : Service} {es : List ServiceEvent} {tr : List ServiceObs} {settings : Settings}
  {started now : Rat}

theorem run_funded (hrun : run step (start settings started) es = some (s, tr))
    (hforward : Forward ServiceEvent.readings started es) (hstarted : started ≤ now)
    (huntil : Until ServiceEvent.readings now es) : s.rateLimit.Funded now := by
  refine run_forward (I := fun c _ s _ => s.rateLimit.Funded c) (fun hle h => h.mono hle) ?_
    (fun _ _ h => by cases h) hrun hforward hstarted huntil
  intro c c' es s tr e s' o h hhere hbefore hs
  have hle : c ≤ c' := hbefore c List.mem_cons_self
  have hlimited : ∀ created now call, (c :: [created, now]).Pairwise (· ≤ ·) →
      (∀ r ∈ c :: [created, now], r ≤ c') →
      (s.rateLimit.dispatch call created now).1.Funded c' := by
    intro created now call hordered hearlier
    simp only [List.pairwise_cons, List.forall_mem_cons] at hordered hearlier
    exact (h.dispatch hordered.1.1 hordered.2.1.1 call).mono hearlier.2.2.1
  cases step_cases hs with
  | admitted rid created now call => exact hlimited created now _ hhere hbefore
  | limited rid created now call => exact hlimited created now _ hhere hbefore
  | loaded => exact h.mono hle
  | received => exact h.mono hle
  | authorizing => exact h.mono hle
  | answeredAtOnce => exact h.mono hle
  | probing => exact h.mono hle
  | resumed => exact h.mono hle
  | probed => exact h.mono hle
  | responded => exact h.mono hle

/-! ### The load -/

/-- Vault serves a complete secret of a new version: a load accepts its credential. -/
structure Restored (s : Service) (env : Nat → VaultAttempt) (t : LoadReadings) (c : Credential) :
    Prop where
  versioned : c.version ≠ none
  accepted : ∃ read manager,
    vaultRead? (s.vaultClient.readSecret s.process.connector.settings none env).1 = some read ∧
      s.process.connector.credentialManager = some manager ∧
      manager.accepted? ⟨read, t⟩ = some c

/-- The load makes the credential the current one and starts the refresh loop, if it was not
started, and leaves the rest alone. -/
theorem load_restored {env : Nat → VaultAttempt} {t : LoadReadings} {c : Credential}
    (hbounded : s.process.Bounded) (h : s.Restored env t c) :
    ∃ s' obs manager, s.step (.load env t) = some (s', obs) ∧
      s'.consecutiveErrors ≠ none ∧ manager.getCurrentCredential = some c ∧
        s'.process.connector = { s.process.connector with credentialManager := some manager } ∧
        s'.received = s.received ∧ s'.rateLimit = s.rateLimit := by
  obtain ⟨read, manager, hread, hmanager, haccepted⟩ := h.accepted
  obtain ⟨v, hv⟩ := Option.ne_none_iff_exists'.mp h.versioned
  have hload := CredentialManager.loadCredentials_of_accepted
    s.process.connector.settings.vaultSecretPath haccepted
  have hcurrent := CredentialManager.loadInstalled_getCurrent_of_version
    s.process.connector.settings.vaultSecretPath t (hbounded.credentials manager hmanager) hv
  generalize hr : s.vaultClient.readSecret s.process.connector.settings none env = r at hread
  obtain ⟨result, vaultClient, outputs⟩ := r
  dsimp only at hread hload
  simp only [step, load, hr, hread, Process.step, hmanager, hload]
  exact ⟨_, _, _, rfl, Option.some_ne_none _, hcurrent, rfl, rfl, rfl⟩

/-! ### The payment -/

/-- The stretches of a payment with one POST. -/
def paymentStretches (rid : Nat) (request : HttpRequest) (uuid : String) (arrival : Rat)
    (created limit : Rat) (vault : VaultAttempt) (t : StartReadings) (outcome : PostOutcome)
    (uuid' : String) (t' : AnswerReadings) (done : Rat) : List ServiceEvent :=
  [.receive rid request uuid arrival, .limit rid created limit, .handle rid vault t,
    .answer rid outcome uuid' t', .respond rid done]

section Stretches

variable {rid : Nat} {call : HttpCall}

/-- The limiter lets a request pass. -/
private theorem limit_passes (hs : s.Live) (hcall : s.call? rid = some call)
    (hstage : call.stage = .received) {created limit : Rat}
    (hpasses : (s.rateLimit.dispatch call.request.client created limit).2.1 = .callNext) :
    ∃ s' obs, s.step (.limit rid created limit) = some (s', obs) ∧
      s'.call? rid = some { call with stage := .admitted } ∧ s'.process = s.process := by
  have hoffers := hs.offers hcall
  rw [hstage] at hoffers
  obtain ⟨⟨s', obs⟩, hstep⟩ := Option.isSome_iff_exists.mp (hoffers created limit)
  refine ⟨s', obs, hstep, ?_⟩
  cases step_cases hstep with
  | admitted rid created now call' hcall' =>
      rw [call?_setStage]
      show (s.call? rid).map _ = _ ∧ _
      rw [hcall, Option.map_some, if_pos rfl]
      exact ⟨rfl, rfl⟩
  | limited rid created now call' hcall' hstage' hdispatch =>
      rw [hcall, Option.some.injEq] at hcall'
      subst hcall'
      rw [hpasses] at hdispatch
      cases hdispatch

/-- Behind its checks the handler posts. -/
private theorem handle_posts (hs : s.Live) (hcall : s.call? rid = some call)
    (hstage : call.stage = .admitted) {payment : PaymentRequest}
    (hroute : call.request.route = .authorize payment) (vault : VaultAttempt) {t : StartReadings}
    (hgate : s.process.connector.PassesGate (authorizeRequest call payment) t) :
    ∃ s' obs, s.step (.handle rid vault t) = some (s', obs) ∧
      s'.call? rid = some { call with stage := .authorizing } := by
  have hoffers := hs.offers hcall
  rw [hstage] at hoffers
  obtain ⟨⟨s', obs⟩, hstep⟩ := Option.isSome_iff_exists.mp (hoffers vault t)
  refine ⟨s', obs, hstep, ?_⟩
  cases step_cases hstep with
  | authorizing rid vault t call' payment' process obs hcall' hstage' hroute' hrequest =>
      rw [hcall, Option.some.injEq] at hcall'
      subst hcall'
      rw [hroute, Route.authorize.injEq] at hroute'
      subst hroute'
      have hposted := (request_posts_iff hrequest).mpr hgate
      have hsuspended : stageAfter obs = .authorizing := by
        cases step_spec hrequest with
        | posting => rfl
        | refused =>
            obtain ⟨_, _, _, hin⟩ := hposted
            simp at hin
        | raised =>
            obtain ⟨_, _, _, hin⟩ := hposted
            simp at hin
        | replayed =>
            obtain ⟨_, _, _, hin⟩ := hposted
            simp at hin
      rw [call?_setStage, hsuspended]
      show (s.call? rid).map _ = _
      rw [hcall, Option.map_some, if_pos rfl]
  | answeredAtOnce rid vault t call' answer hcall' hstage' hroute' =>
      rw [hcall, Option.some.injEq] at hcall'
      subst hcall'
      rw [hroute] at hroute'
      rcases hroute' with ⟨h, -⟩ | ⟨h, -⟩ | ⟨statusCode, detail, h, -⟩ <;> cases h
  | probing rid vault t call' hcall' hstage' hroute' =>
      rw [hcall, Option.some.injEq] at hcall'
      subst hcall'
      rw [hroute] at hroute'
      cases hroute'

/-- An answer that the gateway's contract allows for a payment is passed on. -/
private theorem answer_pays (hs : s.Live) (hcall : s.call? rid = some call)
    (hstage : call.stage = .authorizing) {outcome : PostOutcome}
    (haccepted : outcome.accepted = true) (uuid : String) (t : AnswerReadings) :
    ∃ s' obs response, s.step (.answer rid outcome uuid t) = some (s', obs) ∧
      s'.call? rid =
        some { call with stage := .answered (.response 200 (.payment response)) } := by
  have hoffers := hs.offers hcall
  rw [hstage] at hoffers
  obtain ⟨⟨s', obs⟩, hstep⟩ := Option.isSome_iff_exists.mp (hoffers outcome uuid t)
  cases step_cases hstep with
  | resumed rid outcome uuid t process obs hanswer =>
      have hpaid : ∃ response, stageAfter obs = .answered (.response 200 (.payment response)) := by
        cases step_spec hanswer with
        | stored handler outcome uuid t client inFlight outputs body response =>
            exact ⟨response, stageAfter_storedObs _ _ _ _ _⟩
        | failed handler outcome uuid t client inFlight outputs reply hmem hrefused =>
            rw [haccepted] at hrefused
            cases hrefused
        | fallback handler outcome uuid t client inFlight outputs credential hmem hrejected =>
            rw [PostOutcome.accepted, hrejected] at haccepted
            cases haccepted
      obtain ⟨response, hpaid⟩ := hpaid
      refine ⟨_, _, response, hstep, ?_⟩
      rw [call?_setStage, hpaid]
      show (s.call? rid).map _ = _
      rw [hcall, Option.map_some, if_pos rfl]

/-- The answer reaches the client under the id of its request. -/
private theorem respond_sends (hs : s.Live) (hcall : s.call? rid = some call)
    {statusCode : Nat} {body : ResponseBody}
    (hstage : call.stage = .answered (.response statusCode body)) (done : Rat) :
    ∃ s' obs, s.step (.respond rid done) = some (s', obs) ∧
      .responded rid ⟨statusCode, body, some call.requestId⟩ ∈ obs ∧
        s'.process = s.process := by
  have hoffers := hs.offers hcall
  rw [hstage] at hoffers
  obtain ⟨⟨s', obs⟩, hstep⟩ := Option.isSome_iff_exists.mp (hoffers done)
  refine ⟨s', obs, hstep, ?_⟩
  cases step_cases hstep with
  | responded rid now call' answer hcall' hstage' =>
      rw [hcall, Option.some.injEq] at hcall'
      subst hcall'
      rw [hstage, CallStage.answered.injEq] at hstage'
      subst hstage'
      rw [← s.call?_rid hcall]
      exact ⟨List.mem_append_right _ (List.mem_singleton.mpr rfl), rfl⟩

end Stretches

/-- A payment that finds the limiter, the credential, the breaker and the gateway willing. -/
theorem payment_succeeds (hs : s.Live) (hstarted : s.consecutiveErrors ≠ none) {rid : Nat}
    (hfresh : ¬ rid ∈ s.received) {request : HttpRequest} {payment : PaymentRequest}
    (hroute : request.route = .authorize payment) (uuid : String) (arrival : Rat)
    {created limit : Rat}
    (hpasses : (s.rateLimit.dispatch request.client created limit).2.1 = .callNext)
    (vault : VaultAttempt) {t : StartReadings}
    (hgate : s.process.connector.PassesGate
      ⟨payment, request.xRequestId.getD uuid, request.xApiKey⟩ t)
    {outcome : PostOutcome} (haccepted : outcome.accepted = true) (uuid' : String)
    (t' : AnswerReadings) (done : Rat) :
    ∃ s' tr response, run step s (paymentStretches rid request uuid arrival created limit vault t
        outcome uuid' t' done) = some (s', tr) ∧
      .responded rid ⟨200, .payment response, some (request.xRequestId.getD uuid)⟩ ∈ tr := by
  have hreceive : s.step (.receive rid request uuid arrival) =
      some ({ s with
        calls := s.calls ++ [⟨rid, request, request.xRequestId.getD uuid, arrival, .received⟩]
        received := rid :: s.received }, []) := by
    simp only [step]
    exact if_neg (not_or.mpr ⟨hstarted, hfresh⟩)
  have hnone := hs.consistent.call?_eq_none hfresh
  have hs₁ := step_live hs hreceive
  obtain ⟨s₂, o₂, hlimit, hcall₂, hprocess₂⟩ :=
    limit_passes hs₁ (call?_append hnone rfl) rfl hpasses
  have hs₂ := step_live hs₁ hlimit
  rw [← show s₂.process.connector = s.process.connector from congrArg _ hprocess₂] at hgate
  obtain ⟨s₃, o₃, hhandle, hcall₃⟩ := handle_posts hs₂ hcall₂ rfl hroute vault hgate
  have hs₃ := step_live hs₂ hhandle
  obtain ⟨s₄, o₄, response, hanswer, hcall₄⟩ := answer_pays hs₃ hcall₃ rfl haccepted uuid' t'
  have hs₄ := step_live hs₃ hanswer
  obtain ⟨s₅, o₅, hrespond, hsent, -⟩ := respond_sends hs₄ hcall₄ rfl done
  refine ⟨s₅, _, response, run_cons_iff.mpr ⟨_, _, _, hreceive, run_cons_iff.mpr
    ⟨_, _, _, hlimit, run_cons_iff.mpr ⟨_, _, _, hhandle, run_cons_iff.mpr
      ⟨_, _, _, hanswer, run_singleton hrespond, rfl⟩, rfl⟩, rfl⟩, rfl⟩, ?_⟩
  exact List.mem_append_right _ (List.mem_append_right _ (List.mem_append_right _
    (List.mem_append_right _ hsent)))

/-! ### Both together -/

/-- After every run on a clock that is not set back, from the instant `now` on: when Vault
returns a complete secret of a new version whose ttl, if any, can be a float, a load, and a
payment that passes the limiter a hundredth of a second later and the breaker thirty seconds
later, before the credential expires, with an accepted API key and a new idempotency key, and
that the gateway accepts, can all be taken; the client gets its 200, and the breaker is closed
without a failure. -/
theorem recovers (settings : Settings) (started now : Rat) (es : List ServiceEvent) (s : Service)
    (tr : List ServiceObs) (hrun : run step (start settings started) es = some (s, tr))
    (hforward : Forward ServiceEvent.readings started es) (hstarted : started ≤ now)
    (huntil : Until ServiceEvent.readings now es)
    (env : Nat → VaultAttempt) (tl : LoadReadings) (c : Credential)
    (hrestored : s.Restored env tl c) (rid : Nat) (request : HttpRequest)
    (payment : PaymentRequest) (uuid uuid' : String) (arrival created limit done : Rat)
    (vault : VaultAttempt) (t : StartReadings) (outcome : PostOutcome) (t' : AnswerReadings)
    (hnow : Forward ServiceEvent.readings now (.load env tl :: paymentStretches rid request uuid
      arrival created limit vault t outcome uuid' t' done))
    (hfresh : ¬ rid ∈ es.filterMap ServiceEvent.receivedRid?)
    (hroute : request.route = .authorize payment)
    (hkey : acceptsApiKey settings request.xApiKey = true)
    (hmiss : ¬ payment.idempotencyKey ∈ s.process.connector.idempotencyCache)
    (hlimit : now + 1 / 100 ≤ limit) (hallow : now + 30 ≤ t.allow)
    (htimed : c.Timed) (hvalid : c.status t.check ≠ .ok .expired)
    (haccepted : outcome.accepted = true) :
    ∃ s' tr' response client,
      run step s (.load env tl :: paymentStretches rid request uuid arrival created limit vault t
        outcome uuid' t' done) = some (s', tr') ∧
      .responded rid ⟨200, .payment response, some (request.xRequestId.getD uuid)⟩ ∈ tr' ∧
      s'.process.connector.gatewayClient = some client ∧
      client.circuitBreaker.state = .closed ∧ client.circuitBreaker.failureCount = 0 := by
  have hbounded : s.Bounded :=
    run_state_invariant (I := Bounded) (fun _ _ _ _ h hs => step_bounded h hs)
      ⟨Process.start_bounded settings, Nat.zero_le _⟩ hrun
  have hserved : Served es s tr :=
    run_history_invariant (I := Served) (fun _ _ _ _ _ _ _ h hs => h.step hs)
      (start_served settings started) hrun
  have hsettings := run_settings hrun
  have hremembers := run_remembers hrun hforward hstarted huntil
  obtain ⟨client, hclient, htracks⟩ := hremembers
  obtain ⟨s₁, o₁, manager, hload, hloop, hcurrent, hconnector, hreceived, hlimiter⟩ :=
    load_restored hbounded.process hrestored
  have hlive := step_live (run_lives hrun rid).live hload
  -- The clock, as far as the limiter and the breaker read it.
  have hbucket : [now, created, limit].Pairwise (· ≤ ·) :=
    hnow.sublist (.cons_cons _ (.cons _ (.cons _ (.cons _ (.cons _ (.cons_cons _ (.cons_cons _
      (List.nil_sublist _))))))))
  have hbreaker : [now, t.gauge, t.allow].Pairwise (· ≤ ·) :=
    hnow.sublist (.cons_cons _ (.cons _ (.cons _ (.cons _ (.cons _ (.cons _ (.cons _ (.cons _
      (.cons_cons _ (.cons_cons _ (List.nil_sublist _)))))))))))
  simp only [List.pairwise_cons, List.forall_mem_cons] at hbucket hbreaker
  have hpasses : (s₁.rateLimit.dispatch request.client created limit).2.1 = .callNext := by
    rw [hlimiter]
    exact (run_funded hrun hforward hstarted huntil).passes hbucket.2.1.1 hlimit request.client
  have hallowed : client.allowed t = true := by
    refine (htracks.allowed_iff hbreaker.1.1 hbreaker.2.1.1).mpr ?_
    exact Recorded.stateOf_ne_open
      (fun f hf => huntil f (gatewayRecord_readings hf)) hallow
  have hgate : s₁.process.connector.PassesGate
      ⟨payment, request.xRequestId.getD uuid, request.xApiKey⟩ t := by
    have hstatus := (manager.hasValidCredentials_iff _).mpr ⟨c, hcurrent, htimed, hvalid⟩
    rw [hconnector]
    rw [← hsettings] at hkey
    exact
      { apiKey := (acceptsApiKey_iff _ _).mp hkey
        credential := ⟨manager, c, rfl, hcurrent,
          (manager.hasValidCredentials_iff_status _).mp hstatus⟩
        notCached := hmiss
        breaker := ⟨client, hclient, hallowed⟩ }
  have hnew : ¬ rid ∈ s₁.received := by
    rw [hreceived, hserved.received_iff]
    exact hfresh
  obtain ⟨s₂, o₂, response, hpayment, hsent⟩ := payment_succeeds hlive hloop hnew hroute uuid
    arrival hpasses vault hgate haccepted uuid' t' done
  have hrecovery := run_cons_iff.mpr ⟨s₁, o₁, o₂, hload, hpayment, rfl⟩
  obtain ⟨last, hlast, huntil'⟩ := hnow.exists_until
  have hrecord : gatewayRecord (.load env tl :: paymentStretches rid request uuid arrival created
      limit vault t outcome uuid' t' done) = [.success] := by
    have hsuccess : (ServiceEvent.answer rid outcome uuid' t').recorded? = some .success :=
      PostOutcome.recorded?_of_accepted t' haccepted
    simp only [gatewayRecord, paymentStretches]
    rw [List.filterMap_cons_none rfl, List.filterMap_cons_none rfl, List.filterMap_cons_none rfl,
      List.filterMap_cons_none rfl, List.filterMap_cons_some hsuccess]
    rfl
  have hafter := run_remembers_from ⟨client, hclient, htracks⟩ hrecovery hnow hlast huntil'
  rw [hrecord] at hafter
  obtain ⟨client', hclient', htracks'⟩ := hafter
  have hcount : client'.circuitBreaker.failureCount = 0 :=
    htracks'.count_eq.trans (Recorded.failures_success _)
  refine ⟨s₂, o₁ ++ o₂, response, client', hrecovery, List.mem_append_right _ hsent, hclient', ?_,
    hcount⟩
  rw [htracks'.sound.closed_iff, hcount, htracks'.threshold_eq]
  decide

/-- Five payments meet a dead gateway. -/
def deadGatewayRun : List ServiceEvent :=
  .load (fun _ => attemptWith "key-a") (.at 1) :: (List.range 5).flatMap fun rid =>
    paymentStretches rid sampleHttpRequest "uuid-1" 2 2 2 (attemptWith "key-a") (.at 2)
      (.timeout "timed out") "uuid-2" (.at 2) 2

/-- A Vault with a second version of the secret. -/
def renewedAttempt : VaultAttempt :=
  { attemptWith "key-b" with
    read := fun _ _ _ => .returned (.obj [("data", .obj [
      ("data", .obj [("api_key", .str "key-b"), ("api_secret", .str "secret-v2")]),
      ("metadata", .obj [("version", .int 2)])])]) }

/-- The breaker has opened; forty seconds on the service is back. -/
theorem recovers_deadGateway :
    ∃ s tr, run step (start sampleSettings 1) deadGatewayRun = some (s, tr) ∧
      s.process.connector.gatewayClient.any
        (fun client => (client.circuitBreaker.readState 3).1 = .openState) = true ∧
      ∃ s' tr' response client,
        run step s (.load (fun _ => renewedAttempt) (.at 40) :: paymentStretches 9 sampleHttpRequest
          "uuid-9" 40 40 40 renewedAttempt (.at 40) (answerWith 200 "txn-9") "uuid-10" (.at 40)
          40) = some (s', tr') ∧
        .responded 9 ⟨200, .payment response, some "uuid-9"⟩ ∈ tr' ∧
        s'.process.connector.gatewayClient = some client ∧
        client.circuitBreaker.state = .closed ∧ client.circuitBreaker.failureCount = 0 := by
  obtain ⟨s, tr, hrun, hopen, hmiss, hrestored⟩ : ∃ s tr,
      run step (start sampleSettings 1) deadGatewayRun = some (s, tr) ∧
      s.process.connector.gatewayClient.any
        (fun client => (client.circuitBreaker.readState 3).1 = .openState) = true ∧
      (¬ samplePayment.idempotencyKey ∈ s.process.connector.idempotencyCache) ∧
      ((vaultRead? (s.vaultClient.readSecret s.process.connector.settings none
          fun _ => renewedAttempt).1).any fun read =>
        s.process.connector.credentialManager.any fun manager =>
          (manager.accepted? ⟨read, .at 40⟩).any fun c =>
            c.version = some 2 ∧ c.Timed ∧ c.status 40 ≠ .ok .expired) = true :=
    exists_run (by decide +kernel)
  obtain ⟨read, hread, hmanager⟩ := (Option.any_eq_true _ _).mp hrestored
  obtain ⟨manager, hmanager, haccepted⟩ := (Option.any_eq_true _ _).mp hmanager
  obtain ⟨c, haccepted, hc⟩ := (Option.any_eq_true _ _).mp haccepted
  obtain ⟨hversion, htimed, hvalid⟩ := of_decide_eq_true hc
  refine ⟨s, tr, hrun, hopen, recovers sampleSettings 1 2 deadGatewayRun s tr hrun
    (by decide +kernel) (by decide +kernel) (by decide +kernel) (fun _ => renewedAttempt) (.at 40) c
    ⟨by rw [hversion]; exact Option.some_ne_none _, read, manager, hread, hmanager, haccepted⟩ 9
    sampleHttpRequest samplePayment "uuid-9" "uuid-10" 40 40 40 40 renewedAttempt (.at 40)
    (answerWith 200 "txn-9") (.at 40) (by decide +kernel) (by decide +kernel) rfl
    (by decide +kernel) hmiss
    (by decide +kernel) (by decide +kernel) htimed hvalid (by decide +kernel)⟩

end Service

end PaymentConnector
