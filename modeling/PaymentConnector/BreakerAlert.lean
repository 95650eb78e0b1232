import PaymentConnector.BreakerDiscipline

/-!
# The circuit-breaker alert

Prometheus scrapes the gauge `circuit_breaker_state` and raises `CircuitBreakerOpen`
while it is 2.  The gauge is written at the start of a call and after each record, with 0
for closed, 1 for open and 2 for half-open; between two writes the breaker may move from
open to half-open by the passing of time.

## Main results

* `Monitored.Current` — the gauge shows the breaker as of the last write.
* `Current.scrape_truthful_iff` — what one scrape has to meet for the alert to be right.
* `alert_iff` — the runs in which the alert is right at every scrape.
-/

namespace PaymentConnector

open Library Library.Machine

/-! ## The alert -/

/-- The expression of `CircuitBreakerOpen`. -/
def circuitBreakerOpenAlert (circuitBreakerState : Nat) : Bool := circuitBreakerState = 2

/-- The client that is scraped, and the instant at which its gauge was last written. -/
structure Monitored where
  calls : Calls
  written : Rat

/-- One scrape: the gauge, and whether a request would be refused at that moment. -/
structure Scrape where
  gauge : Nat
  refuses : Bool

/-- The alert is raised if and only if requests are refused. -/
def Scrape.Truthful (s : Scrape) : Prop := circuitBreakerOpenAlert s.gauge = s.refuses

instance (s : Scrape) : Decidable s.Truthful := inferInstanceAs (Decidable (_ = _))

inductive MonitorEvent
  | client (e : CallEvent)
  | scrape (now : Rat)

/-- When an event of the client last writes the gauge, if it does. -/
def Calls.writtenAt? (c : Calls) : CallEvent → Option Rat
  | .call _ _ _ t =>
      some (if Calls.admission c.client.circuitBreaker t = .openState then t.refuse else t.gauge)
  | .answer _ outcome t => (outcome.recorded? t).map (fun _ => t.gauge)

namespace Monitored

/-- Before the first call. -/
def start (baseUrl : String) (now : Rat) : Monitored := ⟨.start baseUrl now, now⟩

/-- A stretch of a call, or a scrape, which reads the gauge and changes nothing. -/
def step (m : Monitored) : MonitorEvent → Option (Monitored × List Scrape)
  | .client e =>
      match m.calls.step e with
      | none => none
      | some (calls, _) => some (⟨calls, (m.calls.writtenAt? e).getD m.written⟩, [])
  | .scrape now =>
      if m.calls.clock ≤ now then
        some (⟨{ m.calls with clock := now }, m.written⟩,
          [⟨m.calls.client.circuitBreakerState,
            !(m.calls.client.circuitBreaker.allowsRequest now).1⟩])
      else none

end Monitored

/-! ## The gauge after each event -/

namespace CircuitBreaker

/-- The state at an instant, by the count of failures and the last of them. -/
def stateAt (b : CircuitBreaker) (now : Rat) : CircuitState :=
  if b.failureCount < b.failureThreshold then .closed
  else if b.timedOut now then .halfOpen
  else .openState

/-- What a sound breaker answers. -/
theorem Sound.readState_stateAt {b : CircuitBreaker} {now : Rat} (h : b.Sound now) :
    (b.readState now).1 = b.stateAt now := h.readState_eq

@[simp] theorem stateAt_readState (b : CircuitBreaker) (now now' : Rat) :
    (b.readState now).2.stateAt now' = b.stateAt now' := by
  rw [stateAt, stateAt, readState_failureCount, readState_failureThreshold, readState_timedOut]

/-- The start of a call changes nothing that counts. -/
theorem stateAt_afterStart (b : CircuitBreaker) (t : StartReadings) (now : Rat) :
    (b.afterStart t).stateAt now = b.stateAt now := by
  unfold afterStart
  dsimp only
  split <;> simp only [stateAt_readState]

end CircuitBreaker

section Gauge

variable (g : GatewayClient)

theorem beginAuthorize_gauge (m : CredentialManager) (payload : PaymentRequest)
    (t : StartReadings) :
    (g.beginAuthorize m payload t).1.circuitBreakerState =
      GatewayClient.stateCode
        (if Calls.admission g.circuitBreaker t = .openState then
          (((g.circuitBreaker.readState t.gauge).2.readState t.allow).2.readState t.refuse).1
        else (g.circuitBreaker.readState t.gauge).1) := by
  simp only [GatewayClient.beginAuthorize, Calls.admission, CircuitBreaker.allowsRequest_eq,
    updateCircuitBreakerMetric_circuitBreaker]
  by_cases hopen : ((g.circuitBreaker.readState t.gauge).2.readState t.allow).1 = .openState
  · simp [hopen, GatewayClient.updateCircuitBreakerMetric]
  · cases hcurrent : m.getCurrentCredential <;>
      simp [hopen, GatewayClient.updateCircuitBreakerMetric]

theorem tryAuthorize_gauge (credential : Credential) (startTime : Rat) (outcome : PostOutcome)
    (t : AnswerReadings) :
    (g.tryAuthorize credential startTime outcome t).1.circuitBreakerState =
      match outcome.recorded? t with
      | none => g.circuitBreakerState
      | some r => GatewayClient.stateCode ((g.circuitBreaker.record r).readState t.gauge).1 := by
  cases outcome with
  | response statusCode json =>
      simp only [GatewayClient.tryAuthorize, PostOutcome.recorded?]
      split
      · rfl
      · split
        · rfl
        · cases json with
          | error exc => rfl
          | ok value =>
              dsimp only
              split <;> rfl
  | timeout error => rfl
  | httpError error => rfl
  | raised exc => rfl

theorem resumeAuthorize_gauge (p : Pending) (outcome : PostOutcome) (t : AnswerReadings) :
    (g.resumeAuthorize p outcome t).1.circuitBreakerState =
      match outcome.recorded? t with
      | none => g.circuitBreakerState
      | some r => GatewayClient.stateCode ((g.circuitBreaker.record r).readState t.gauge).1 := by
  obtain ⟨failures, hclient⟩ := g.resumeAuthorize_client p outcome t
  rw [hclient]
  exact tryAuthorize_gauge g p.credential p.startTime outcome t

end Gauge

/-- The client that the start of a call leaves behind. -/
theorem Calls.step_call_client {c c' : Calls} {id : Nat} {manager : CredentialManager}
    {payload : PaymentRequest} {t : StartReadings} {obs : List CallObs}
    (h : c.step (.call id manager payload t) = some (c', obs)) :
    (c.clock :: (CallEvent.call id manager payload t).readings).Pairwise (· ≤ ·) ∧
      c'.client = (c.client.beginAuthorize manager payload t).1 ∧ c'.clock = t.send := by
  unfold Calls.step at h
  split at h
  · cases h
  · rename_i hclock
    dsimp only at h
    split at h
    · cases h
    · generalize c.client.beginAuthorize manager payload t = started at h ⊢
      obtain ⟨client, result⟩ := started
      cases result <;>
        · simp only [Option.some.injEq, Prod.mk.injEq] at h
          obtain ⟨rfl, -⟩ := h
          exact ⟨not_not.mp hclock, rfl, rfl⟩

/-- The client that the completion of a POST leaves behind. -/
theorem Calls.step_answer_client {c c' : Calls} {id : Nat} {outcome : PostOutcome}
    {t : AnswerReadings} {obs : List CallObs}
    (h : c.step (.answer id outcome t) = some (c', obs)) :
    (c.clock :: (CallEvent.answer id outcome t).readings).Pairwise (· ≤ ·) ∧
      (∃ p : Pending, c'.client = (c.client.resumeAuthorize p outcome t).1) ∧
        c'.clock = t.send := by
  unfold Calls.step at h
  split at h
  · cases h
  · rename_i hclock
    dsimp only at h
    split at h
    · cases h
    · rename_i call hfind
      have hclient : ∃ p : Pending, (c.client.resumeAuthorize call.pending outcome t).1 =
          (c.client.resumeAuthorize p outcome t).1 := ⟨call.pending, rfl⟩
      generalize c.client.resumeAuthorize call.pending outcome t = resumed at h hclient
      obtain ⟨client, progress, outputs⟩ := resumed
      cases progress <;>
        · simp only [Option.some.injEq, Prod.mk.injEq] at h
          obtain ⟨rfl, -⟩ := h
          exact ⟨not_not.mp hclock, hclient, rfl⟩

/-! ## The gauge is current -/

namespace Monitored

section Steps

variable {m m' : Monitored} {obs : List Scrape}

theorem step_client_spec {e : CallEvent} (h : m.step (.client e) = some (m', obs)) :
    ∃ calls shown, m.calls.step e = some (calls, shown) ∧
      m' = ⟨calls, (m.calls.writtenAt? e).getD m.written⟩ ∧ obs = [] := by
  unfold step at h
  dsimp only at h
  split at h
  · cases h
  · rename_i calls shown hcalls
    rw [Option.some.injEq, Prod.mk.injEq] at h
    exact ⟨calls, shown, hcalls, h.1.symm, h.2.symm⟩

theorem step_scrape_spec {now : Rat} (h : m.step (.scrape now) = some (m', obs)) :
    m.calls.clock ≤ now ∧ m' = ⟨{ m.calls with clock := now }, m.written⟩ ∧
      obs = [⟨m.calls.client.circuitBreakerState,
        !(m.calls.client.circuitBreaker.allowsRequest now).1⟩] := by
  unfold step at h
  dsimp only at h
  split at h
  · rename_i hnow
    rw [Option.some.injEq, Prod.mk.injEq] at h
    exact ⟨hnow, h.1.symm, h.2.symm⟩
  · cases h

end Steps

/-- The gauge shows the breaker as of the last write. -/
structure Current (m : Monitored) : Prop where
  wellFormed : m.calls.WellFormed
  written_past : m.written ≤ m.calls.clock
  gauge_eq : m.calls.client.circuitBreakerState =
    GatewayClient.stateCode (m.calls.client.circuitBreaker.stateAt m.written)

theorem start_current (baseUrl : String) (now : Rat) : (start baseUrl now).Current where
  wellFormed := Calls.start_wellFormed baseUrl now
  written_past := le_refl now
  gauge_eq := rfl

variable {m m' : Monitored} {obs : List Scrape}

/-- The start of a call writes the gauge once, or twice. -/
theorem Current.call (h : m.Current) {id : Nat} {manager : CredentialManager}
    {payload : PaymentRequest} {t : StartReadings}
    (hstep : m.step (.client (.call id manager payload t)) = some (m', obs)) :
    m'.written ≤ m'.calls.clock ∧ m'.calls.client.circuitBreakerState =
      GatewayClient.stateCode (m'.calls.client.circuitBreaker.stateAt m'.written) := by
  obtain ⟨calls, shown, hcalls, rfl, -⟩ := step_client_spec hstep
  obtain ⟨hclock, hclient, hsend⟩ := Calls.step_call_client hcalls
  obtain ⟨hgauge, hallow, hrefuse, hlast⟩ := CallEvent.call_ordered hclock
  have hfirst := h.wellFormed.sound.mono hgauge
  have hthird := ((hfirst.readState.mono hallow).readState).mono hrefuse
  dsimp only [Calls.writtenAt?, Option.getD_some]
  rw [hclient, hsend, beginAuthorize_gauge, beginAuthorize_circuitBreaker,
    CircuitBreaker.stateAt_afterStart]
  split
  · refine ⟨hlast, ?_⟩
    rw [hthird.readState_stateAt, CircuitBreaker.stateAt_readState,
      CircuitBreaker.stateAt_readState]
  · refine ⟨le_trans hallow (le_trans hrefuse hlast), ?_⟩
    rw [hfirst.readState_stateAt]

/-- The completion of a POST writes the gauge when it records something. -/
theorem Current.answer (h : m.Current) {id : Nat} {outcome : PostOutcome} {t : AnswerReadings}
    (hstep : m.step (.client (.answer id outcome t)) = some (m', obs)) :
    m'.written ≤ m'.calls.clock ∧ m'.calls.client.circuitBreakerState =
      GatewayClient.stateCode (m'.calls.client.circuitBreaker.stateAt m'.written) := by
  obtain ⟨calls, shown, hcalls, rfl, -⟩ := step_client_spec hstep
  obtain ⟨hclock, ⟨p, hclient⟩, hsend⟩ := Calls.step_answer_client hcalls
  obtain ⟨hdone, hfailed, hgauge, hlast⟩ := CallEvent.answer_ordered hclock
  have hsound := h.wellFormed.sound.mono (le_trans hdone hfailed)
  dsimp only [Calls.writtenAt?]
  rw [hclient, hsend, resumeAuthorize_gauge, resumeAuthorize_circuitBreaker,
    CircuitBreaker.afterAnswer]
  cases hrecorded : outcome.recorded? t with
  | none =>
      have hpast : m.written ≤ t.send := by
        have hwritten := h.written_past
        linarith
      exact ⟨hpast, h.gauge_eq⟩
  | some r =>
      refine ⟨hlast, ?_⟩
      have hrecord := (hsound.record hrecorded).mono hgauge
      dsimp only [Option.map_some, Option.getD_some]
      rw [hrecord.readState_stateAt, CircuitBreaker.stateAt_readState]

/-- Every event keeps the gauge current. -/
theorem Current.step (h : m.Current) {e : MonitorEvent} (hstep : m.step e = some (m', obs)) :
    m'.Current := by
  cases e with
  | client e =>
      have hgauge : m'.written ≤ m'.calls.clock ∧ m'.calls.client.circuitBreakerState =
          GatewayClient.stateCode (m'.calls.client.circuitBreaker.stateAt m'.written) := by
        cases e with
        | call id manager payload t => exact h.call hstep
        | answer id outcome t => exact h.answer hstep
      obtain ⟨calls, shown, hcalls, rfl, -⟩ := step_client_spec hstep
      exact ⟨Calls.step_wellFormed h.wellFormed hcalls, hgauge.1, hgauge.2⟩
  | scrape now =>
      obtain ⟨hnow, rfl, -⟩ := step_scrape_spec hstep
      have hwell := h.wellFormed
      exact ⟨⟨hwell.distinct, hwell.named, fun call hin => le_trans (hwell.past call hin) hnow,
        hwell.sound.mono hnow⟩, le_trans h.written_past hnow, h.gauge_eq⟩

/-! ## When the alert is right -/

/-- Before a scrape at `now` the breaker has counted fewer failures in a row than its
threshold, or its timeout has elapsed since the last of them, but had not when the gauge
was written. -/
def AlertFits (m : Monitored) : MonitorEvent → Prop
  | .client _ => True
  | .scrape now =>
      m.calls.client.circuitBreaker.failureCount <
          m.calls.client.circuitBreaker.failureThreshold ∨
        m.calls.client.circuitBreaker.timedOut now = true ∧
          m.calls.client.circuitBreaker.timedOut m.written = false

theorem Current.scrape_truthful_iff (h : m.Current) {now : Rat} (hnow : m.calls.clock ≤ now) :
    (Scrape.mk m.calls.client.circuitBreakerState
        (!(m.calls.client.circuitBreaker.allowsRequest now).1)).Truthful ↔
      m.AlertFits (.scrape now) := by
  have hpast := le_trans h.written_past hnow
  have hsound := h.wellFormed.sound.mono hnow
  rw [Scrape.Truthful, CircuitBreaker.allowsRequest_eq, hsound.readState_stateAt, h.gauge_eq]
  unfold AlertFits CircuitBreaker.stateAt circuitBreakerOpenAlert
  by_cases hbelow : m.calls.client.circuitBreaker.failureCount <
      m.calls.client.circuitBreaker.failureThreshold
  · simp [hbelow, GatewayClient.stateCode]
  · cases hwritten : m.calls.client.circuitBreaker.timedOut m.written with
    | true =>
        -- The gauge says half-open, and from then on requests are let through.
        have hlater := CircuitBreaker.timedOut_mono hwritten hpast
        simp [hbelow, hlater, GatewayClient.stateCode]
    | false =>
        cases hlater : m.calls.client.circuitBreaker.timedOut now <;>
          simp [hbelow, hlater, GatewayClient.stateCode]

theorem Current.step_truthful_iff (h : m.Current) {e : MonitorEvent}
    (hstep : m.step e = some (m', obs)) : (∀ s ∈ obs, s.Truthful) ↔ m.AlertFits e := by
  cases e with
  | client e =>
      obtain ⟨-, -, -, -, rfl⟩ := step_client_spec hstep
      exact iff_of_true (fun s hs => absurd hs List.not_mem_nil) trivial
  | scrape now =>
      obtain ⟨hnow, -, rfl⟩ := step_scrape_spec hstep
      rw [List.forall_mem_singleton]
      exact h.scrape_truthful_iff hnow

/-- In every run, the alert is right at every scrape exactly when at each of them fewer
failures in a row than the threshold have been recorded, or the timeout since the last one
has elapsed after the gauge was last written. -/
theorem alert_iff (baseUrl : String) (now : Rat) (es : List MonitorEvent) (m : Monitored)
    (tr : List Scrape) (hrun : run Monitored.step (start baseUrl now) es = some (m, tr)) :
    (∀ s ∈ tr, s.Truthful) ↔ Along Monitored.step AlertFits (start baseUrl now) es :=
  trace_iff_along (I := fun m _ => m.Current) (fun _ _ _ _ _ h hstep _ => h.step hstep)
    (fun _ _ _ _ _ h hstep => h.step_truthful_iff hstep) (start_current baseUrl now) hrun

/-- One call that is answered, and scrapes before and after. -/
theorem alert_iff_answered :
    ∃ m tr, run Monitored.step (start "" 0)
        (.scrape 0 :: servedCalls.map .client ++ [.scrape 3]) = some (m, tr) ∧
      (∀ s ∈ tr, s.Truthful) ∧ Along Monitored.step AlertFits (start "" 0)
        (.scrape 0 :: servedCalls.map .client ++ [.scrape 3]) := by
  have hrun : ∃ m tr, run Monitored.step (start "" 0)
      (.scrape 0 :: servedCalls.map .client ++ [.scrape 3]) = some (m, tr) ∧
        ∀ s ∈ tr, s.Truthful := exists_run (by decide +kernel)
  obtain ⟨m, tr, hrun, hright⟩ := hrun
  exact ⟨m, tr, hrun, hright, (alert_iff "" 0 _ m tr hrun).mp hright⟩

/-- The breaker opens and the alert is silent; it becomes half-open, lets a call through,
and the alert is raised. -/
theorem not_alert_iff_opened :
    ∃ m tr, run Monitored.step (start "" 0)
        (trippingRun.map .client ++
          [.scrape 2, .client (.call 6 rotatedManager samplePayment (.at 40)), .scrape 41]) =
            some (m, tr) ∧
      tr.map (fun s => (circuitBreakerOpenAlert s.gauge, s.refuses)) =
        [(false, true), (true, false)] ∧
      ¬ ∀ s ∈ tr, s.Truthful := by
  obtain ⟨m, tr, hrun, hshown⟩ : ∃ m tr, run Monitored.step (start "" 0)
      (trippingRun.map .client ++
        [.scrape 2, .client (.call 6 rotatedManager samplePayment (.at 40)), .scrape 41]) =
          some (m, tr) ∧
      (tr.map (fun s => (circuitBreakerOpenAlert s.gauge, s.refuses)) =
        [(false, true), (true, false)] ∧ ¬ ∀ s ∈ tr, s.Truthful) :=
    exists_run (by decide +kernel)
  exact ⟨m, tr, hrun, hshown⟩

end Monitored

end PaymentConnector
