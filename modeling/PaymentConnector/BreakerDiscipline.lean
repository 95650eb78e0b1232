import PaymentConnector.Calls

/-!
# What the breaker keeps off the gateway

A breaker that is open should keep every POST off the gateway, close only
through a probe sent while it is half-open, and admit one such probe at a time.
The client asks it once, at the start of a call, and reports to it at the end
of every POST that was not rejected; the three laws hold exactly in the runs in
which what happens in between does not matter.

## Main results

* `noPostWhileOpen_iff` — a POST meets an open breaker exactly when a fallback
  is sent after a rejection.
* `closesByProbe_iff` — the breaker closes otherwise than by a probe exactly on
  the late success of a call admitted before the last failure.
* `disciplined_iff` — a call admitted beside a probe, or a probe that leaves the
  breaker half-open, comes from an arrival that the breaker does not refuse or
  from a POST that the breaker is not told of.
-/

namespace PaymentConnector

open Library Library.Machine

/-! ## No POST while the breaker is open -/

/-- A POST does not start while the breaker is open. -/
def NotWhileOpen : CallObs → Prop
  | .posted _ _ state => state ≠ .openState
  | _ => True

/-- At `now` the breaker has counted its threshold of failures since the last
success, and the timeout since the last of them has not elapsed. -/
def CircuitBreaker.Tripped (b : CircuitBreaker) (now : Rat) : Prop :=
  b.failureThreshold ≤ b.failureCount ∧ b.timedOut now = false

theorem CircuitBreaker.Sound.open_iff {b : CircuitBreaker} {now : Rat} (h : b.Sound now) :
    (b.readState now).1 = .openState ↔ b.Tripped now := by
  rw [h.readState_eq, CircuitBreaker.Tripped]
  by_cases hbelow : b.failureCount < b.failureThreshold
  · have hnot : ¬ b.failureThreshold ≤ b.failureCount := by omega
    simp [hbelow, hnot]
  · have hle : b.failureThreshold ≤ b.failureCount := by omega
    cases b.timedOut now <;> simp [hbelow, hle]

/-- A primary POST is rejected, and the breaker is tripped when the fallback
that its call still has is about to be sent. -/
def RetriesBlindly (c : Calls) : CallEvent → Prop
  | .call _ _ _ _ => False
  | .answer id outcome t =>
      outcome.attempt = .rejected ∧ c.client.circuitBreaker.Tripped t.send ∧
        ∃ call ∈ c.waiting, call.id = id ∧ call.pending.retry? ≠ none

private theorem forall_mem_trail_append {F : CallObs → Prop} (h : ∀ s, F (.breaker s))
    (trail : List CircuitState) (obs : List CallObs) :
    (∀ x ∈ trail.map CallObs.breaker ++ obs, F x) ↔ ∀ x ∈ obs, F x := by
  constructor
  · exact fun hF x hx => hF x (List.mem_append_right _ hx)
  · intro hF x hx
    rcases List.mem_append.mp hx with htrail | hobs
    · obtain ⟨s, -, rfl⟩ := List.mem_map.mp htrail
      exact h s
    · exact hF x hobs

private theorem step_notWhileOpen_iff {c c' : Calls} {e : CallEvent} {obs : List CallObs}
    (hc : c.WellFormed) (hstep : c.step e = some (c', obs)) :
    (∀ x ∈ obs, NotWhileOpen x) ↔ ¬ RetriesBlindly c e := by
  have hsilent : ∀ s, NotWhileOpen (.breaker s) := fun _ => trivial
  cases Calls.step_spec hstep with
  | refused id manager payload t client error hclock =>
      rw [forall_mem_trail_append hsilent, List.forall_mem_singleton]
      exact ⟨fun _ hblind => hblind, fun _ => trivial⟩
  | admitted id manager payload t client primary hclock hseen hadmitted =>
      rw [forall_mem_trail_append hsilent, List.forall_mem_cons, List.forall_mem_singleton]
      exact ⟨fun _ hblind => hblind, fun _ => ⟨trivial, hadmitted⟩⟩
  | fallback call outcome t client credential hclock hmem hrejected hretry =>
      obtain ⟨hdone, hfailed, hgauge, hsend⟩ := CallEvent.answer_ordered hclock
      have hsound := hc.sound.mono (hdone.trans (hfailed.trans (hgauge.trans hsend)))
      rw [List.forall_mem_singleton]
      show (c.client.circuitBreaker.readState t.send).1 ≠ .openState ↔ _
      rw [ne_eq, hsound.open_iff, not_iff_not]
      constructor
      · exact fun htripped => ⟨hrejected, htripped, call, hmem, rfl, by simp [hretry]⟩
      · exact fun hblind => hblind.2.1
  | finished call outcome t client hclock hmem hlast =>
      rw [forall_mem_trail_append hsilent, List.forall_mem_singleton]
      refine ⟨fun _ => ?_, fun _ => trivial⟩
      rintro ⟨hrejected, -, call', hmem', hid, hretry⟩
      have heq : call' = call := hc.eq_of_id hmem' hmem hid
      rw [heq] at hretry
      exact hretry (hlast hrejected)

/-- In a run no POST starts while the breaker is open, exactly when in the run
no fallback is sent, after a rejection, at a moment at which the breaker is
tripped. -/
theorem noPostWhileOpen_iff (baseUrl : String) (now : Rat) (es : List CallEvent) (c : Calls)
    (tr : List CallObs) (hrun : run Calls.step (Calls.start baseUrl now) es = some (c, tr)) :
    (∀ x ∈ tr, NotWhileOpen x) ↔
      Along Calls.step (fun c e => ¬ RetriesBlindly c e) (Calls.start baseUrl now) es :=
  trace_iff_along (I := fun c _ => c.WellFormed)
    (fun _ _ _ _ _ h hs _ => Calls.step_wellFormed h hs)
    (fun _ _ _ _ _ h hs => step_notWhileOpen_iff h hs)
    (Calls.start_wellFormed baseUrl now) hrun

/-- A manager after one rotation. -/
def rotatedManager : CredentialManager :=
  let load := fun (m : CredentialManager) (secret : SecretData) =>
    (m.loadCredentials ({} : Settings).vaultSecretPath (.ok secret) (.at 0)).2.1
  load (load .init (sampleSecret 1 "key-v1" "secret-v1")) (sampleSecret 2 "key-v2" "secret-v2")

/-- An answer of the gateway with an empty object for its body. -/
def gatewayAnswer (statusCode : Nat) : PostOutcome := .response statusCode (.ok (.obj []))

/-- Six calls are in flight when the gateway fails five of them. -/
def trippingRun : List CallEvent :=
  (List.range 6).map (fun id => .call id rotatedManager samplePayment (.at 0)) ++
    (List.range 5).map (fun id => .answer id (gatewayAnswer 500) (.at 1))

/-- One call, answered in time. -/
def servedCalls : List CallEvent :=
  [.call 1 rotatedManager samplePayment (.at 1), .answer 1 (gatewayAnswer 200) (.at 2)]

instance : ∀ x, Decidable (NotWhileOpen x)
  | .posted _ _ state => inferInstanceAs (Decidable (state ≠ .openState))
  | .breaker _ | .admitted _ _ | .finished _ _ => inferInstanceAs (Decidable True)

theorem noPostWhileOpen_iff_answered :
    ∃ c tr, run Calls.step (Calls.start "" 0) servedCalls = some (c, tr) ∧
      (∀ x ∈ tr, NotWhileOpen x) ∧
        Along Calls.step (fun c e => ¬ RetriesBlindly c e) (Calls.start "" 0) servedCalls := by
  have hrun : ∃ c tr, run Calls.step (Calls.start "" 0) servedCalls = some (c, tr) ∧
      ∀ x ∈ tr, NotWhileOpen x := exists_run (by decide +kernel)
  obtain ⟨c, tr, hrun, hquiet⟩ := hrun
  exact ⟨c, tr, hrun, hquiet, (noPostWhileOpen_iff "" 0 servedCalls c tr hrun).mp hquiet⟩

/-- The sixth call is rejected and tries its fallback on the open breaker. -/
theorem not_noPostWhileOpen_retry :
    ∃ c tr, run Calls.step (Calls.start "" 0)
        (trippingRun ++ [.answer 5 (gatewayAnswer 401) (.at 2)]) = some (c, tr) ∧
      ¬ ∀ x ∈ tr, NotWhileOpen x :=
  exists_run (by decide +kernel)

/-! ## Closing through a probe -/

/-- If the step closes the breaker, then the breaker was half-open and the step
is the success of a call that was admitted half-open, once the timeout since
the last recorded failure had elapsed. -/
def ClosesByProbe (c : Calls) (e : CallEvent) : Prop :=
  ∀ c' obs, c.step e = some (c', obs) → c.client.circuitBreaker.state ≠ .closed →
    c'.client.circuitBreaker.state = .closed →
      c.client.circuitBreaker.state = .halfOpen ∧
        ∃ call ∈ c.waiting, ∃ outcome t, e = .answer call.id outcome t ∧
          outcome.recorded? t = some .success ∧ call.admittedIn = .halfOpen ∧
            ∃ f, c.client.circuitBreaker.lastFailureTime = some f ∧
              c.client.circuitBreaker.timeoutSeconds ≤ call.admittedAt - f

/-- A success arrives, when the threshold of failures has been counted since
the last one, for a call that was admitted before the last of them. -/
def SucceedsLate (c : Calls) : CallEvent → Prop
  | .call _ _ _ _ => False
  | .answer id outcome t =>
      outcome.recorded? t = some .success ∧
        c.client.circuitBreaker.failureThreshold ≤ c.client.circuitBreaker.failureCount ∧
          ∃ call ∈ c.waiting, call.id = id ∧
            ∃ f, c.client.circuitBreaker.lastFailureTime = some f ∧ call.admittedAt ≤ f

namespace CircuitBreaker

theorem admission_of_halfOpen {b : CircuitBreaker} (h : b.state = .halfOpen)
    (t : StartReadings) : Calls.admission b t = .halfOpen := by
  have hne : b.state ≠ .openState := by simp [h]
  rw [Calls.admission, readState_of_ne_open hne, readState_of_ne_open hne, h]

/-- The start of a call changes the state alone. -/
theorem afterStart_eq (b : CircuitBreaker) (t : StartReadings) :
    b.afterStart t = { b with state := (b.afterStart t).state } := by
  have hread : ∀ (b : CircuitBreaker) (now : Rat),
      ∃ s, (b.readState now).2 = { b with state := s } :=
    fun b now => ⟨_, (b.readState_spec now).1⟩
  unfold afterStart
  obtain ⟨s₁, h₁⟩ := hread b t.gauge
  obtain ⟨s₂, h₂⟩ := hread { b with state := s₁ } t.allow
  obtain ⟨s₃, h₃⟩ := hread { b with state := s₂ } t.refuse
  simp only [h₁, h₂, h₃]
  split <;> rfl

/-- A half-open breaker stays so at the start of a call. -/
theorem afterStart_of_halfOpen {b : CircuitBreaker} (h : b.state = .halfOpen)
    (t : StartReadings) : b.afterStart t = b := by
  have hne : b.state ≠ .openState := by simp [h]
  have hadmission : Calls.admission b t ≠ .openState := by
    rw [admission_of_halfOpen h t]
    simp
  unfold afterStart
  rw [if_neg hadmission, readState_of_ne_open hne, readState_of_ne_open hne]

end CircuitBreaker

/-- A call suspended while the breaker is not closed was admitted before the
last failure, or half-open after its timeout. -/
structure Calls.Admissions (c : Calls) : Prop where
  timeout_pos : 0 < c.client.circuitBreaker.timeoutSeconds
  admitted : c.client.circuitBreaker.failureThreshold ≤ c.client.circuitBreaker.failureCount →
    ∀ call ∈ c.waiting, ∃ f, c.client.circuitBreaker.lastFailureTime = some f ∧
      (call.admittedAt ≤ f ∨
        c.client.circuitBreaker.state = .halfOpen ∧ call.admittedIn = .halfOpen ∧
          c.client.circuitBreaker.timeoutSeconds ≤ call.admittedAt - f)

theorem Calls.start_admissions (baseUrl : String) (now : Rat) :
    (Calls.start baseUrl now).Admissions where
  timeout_pos := by
    show (0 : Rat) < 30
    decide +kernel
  admitted := fun _ _ hin => absurd hin List.not_mem_nil

/-- The start of a call keeps what is known of the calls already suspended. -/
private theorem Calls.Admissions.afterStart {c : Calls} (h : c.Admissions) (t : StartReadings)
    {b : CircuitBreaker} (hb : b = c.client.circuitBreaker.afterStart t) :
    b.timeoutSeconds = c.client.circuitBreaker.timeoutSeconds ∧
      (b.failureThreshold ≤ b.failureCount →
        ∀ call ∈ c.waiting, ∃ f, b.lastFailureTime = some f ∧
          (call.admittedAt ≤ f ∨ b.state = .halfOpen ∧ call.admittedIn = .halfOpen ∧
            b.timeoutSeconds ≤ call.admittedAt - f)) := by
  have heq := c.client.circuitBreaker.afterStart_eq t
  rw [← hb] at heq
  refine ⟨by rw [heq], ?_⟩
  intro hover call hin
  have hover' : c.client.circuitBreaker.failureThreshold ≤
      c.client.circuitBreaker.failureCount := by
    rw [heq] at hover
    exact hover
  obtain ⟨f, hf, hcase⟩ := h.admitted hover' call hin
  refine ⟨f, by rw [heq]; exact hf, ?_⟩
  rcases hcase with hbefore | ⟨hhalf, hin, helapsed⟩
  · exact Or.inl hbefore
  · rw [CircuitBreaker.afterStart_of_halfOpen hhalf] at hb
    rw [hb]
    exact Or.inr ⟨hhalf, hin, helapsed⟩

/-- A call admitted while the breaker is not closed was admitted half-open, after the
timeout. -/
private theorem Calls.WellFormed.admitted_halfOpen {c : Calls} (hc : c.WellFormed)
    {t : StartReadings} (hgauge : c.clock ≤ t.gauge) (hallow : t.gauge ≤ t.allow)
    (hadmitted : Calls.admission c.client.circuitBreaker t ≠ .openState) {b : CircuitBreaker}
    (hb : b = c.client.circuitBreaker.afterStart t) (hover : b.failureThreshold ≤ b.failureCount) :
    ∃ f, b.lastFailureTime = some f ∧ b.state = .halfOpen ∧
      Calls.admission c.client.circuitBreaker t = .halfOpen ∧ b.timeoutSeconds ≤ t.allow - f := by
  have hsound : b.Sound t.allow := by
    rw [hb, CircuitBreaker.afterStart, if_neg hadmitted]
    exact ((hc.sound.mono hgauge).readState.mono hallow).readState
  have hstate : b.state = Calls.admission c.client.circuitBreaker t := by
    rw [hb, CircuitBreaker.afterStart_state hadmitted]
  have hhalf : b.state = .halfOpen := by
    cases hs : b.state with
    | halfOpen => rfl
    | openState =>
        rw [← hstate] at hadmitted
        exact absurd hs hadmitted
    | closed =>
        have hbelow := hsound.closed_iff.mp hs
        exact absurd hover (Nat.not_le.mpr hbelow)
  obtain ⟨f, hf, helapsed⟩ := (CircuitBreaker.timedOut_iff _ _).mp (hsound.elapsed hhalf)
  exact ⟨f, hf, hhalf, hstate.symm.trans hhalf, helapsed⟩

/-- The end of a call keeps what is known of the calls suspended. -/
private theorem Calls.Admissions.afterAnswer {c : Calls} (hc : c.WellFormed) (h : c.Admissions)
    {outcome : PostOutcome} {t : AnswerReadings} (hdone : c.clock ≤ t.done)
    (hfailed : t.done ≤ t.failed) {b : CircuitBreaker}
    (hb : b = c.client.circuitBreaker.afterAnswer outcome t) :
    b.timeoutSeconds = c.client.circuitBreaker.timeoutSeconds ∧
      (b.failureThreshold ≤ b.failureCount →
        ∀ call ∈ c.waiting, ∃ f, b.lastFailureTime = some f ∧
          (call.admittedAt ≤ f ∨ b.state = .halfOpen ∧ call.admittedIn = .halfOpen ∧
            b.timeoutSeconds ≤ call.admittedAt - f)) := by
  unfold CircuitBreaker.afterAnswer at hb
  cases hrecorded : outcome.recorded? t with
  | none =>
      simp only [hrecorded] at hb
      rw [hb]
      exact ⟨rfl, h.admitted⟩
  | some r =>
      simp only [hrecorded] at hb
      cases r with
      | success =>
          refine ⟨by rw [hb, CircuitBreaker.readState_timeoutSeconds]; rfl, ?_⟩
          intro hover
          rw [hb, CircuitBreaker.readState_failureThreshold,
            CircuitBreaker.readState_failureCount] at hover
          have hpos := hc.sound.threshold_pos
          have hzero : c.client.circuitBreaker.failureThreshold ≤ 0 := hover
          omega
      | failure now =>
          have hstamp := PostOutcome.recorded?_failure hrecorded
          subst hstamp
          have hfailure := (hc.sound.mono (hdone.trans hfailed)).recordFailure_eq
          have htimeout : b.timeoutSeconds = c.client.circuitBreaker.timeoutSeconds := by
            rw [hb, CircuitBreaker.readState_timeoutSeconds, CircuitBreaker.record, hfailure]
          have hstamped : b.lastFailureTime = some t.failed := by
            rw [hb, CircuitBreaker.readState_lastFailureTime, CircuitBreaker.record, hfailure]
          refine ⟨htimeout, ?_⟩
          intro _ call hin
          exact ⟨t.failed, hstamped, Or.inl ((hc.past call hin).trans (hdone.trans hfailed))⟩

theorem Calls.step_admissions {c c' : Calls} {e : CallEvent} {obs : List CallObs}
    (hc : c.WellFormed) (h : c.Admissions) (hstep : c.step e = some (c', obs)) :
    c'.Admissions := by
  cases Calls.step_spec hstep with
  | refused id manager payload t client error hclock hseen hblocked hbreaker =>
      obtain ⟨htimeout, hcalls⟩ := h.afterStart t hbreaker
      exact ⟨by rw [htimeout]; exact h.timeout_pos, hcalls⟩
  | admitted id manager payload t client primary hclock hseen hadmitted hprimary hbreaker =>
      obtain ⟨hgauge, hallow, hrefuse, hsend⟩ := CallEvent.call_ordered hclock
      obtain ⟨htimeout, hcalls⟩ := h.afterStart t hbreaker
      refine ⟨by rw [htimeout]; exact h.timeout_pos, ?_⟩
      intro hover call hin
      rcases List.mem_append.mp hin with hold | hnew
      · exact hcalls hover call hold
      · obtain ⟨f, hf, hhalf, hadmission, helapsed⟩ :=
          hc.admitted_halfOpen hgauge hallow hadmitted hbreaker hover
        rw [List.mem_singleton.mp hnew]
        exact ⟨f, hf, Or.inr ⟨hhalf, hadmission, helapsed⟩⟩
  | fallback call outcome t client credential hclock hmem hrejected hretry hbreaker =>
      have htimeout : 0 < client.circuitBreaker.timeoutSeconds := by
        rw [hbreaker]
        exact h.timeout_pos
      refine ⟨htimeout, ?_⟩
      show client.circuitBreaker.failureThreshold ≤ _ → _
      rw [hbreaker]
      intro hover call' hin
      rcases List.mem_append.mp hin with hold | hnew
      · exact h.admitted hover call' (mem_filter_id hold).1
      · rw [List.mem_singleton.mp hnew]
        exact h.admitted hover call hmem
  | finished call outcome t client hclock hmem hlast hbreaker =>
      obtain ⟨hdone, hfailed, hgauge, hsend⟩ := CallEvent.answer_ordered hclock
      obtain ⟨htimeout, hcalls⟩ := h.afterAnswer hc hdone hfailed hbreaker
      refine ⟨by rw [htimeout]; exact h.timeout_pos, ?_⟩
      exact fun hover call' hin => hcalls hover call' (mem_filter_id hin).1

/-- A step that closes a breaker that is not closed is a success. -/
private theorem success_of_closes {c c' : Calls} {e : CallEvent} {obs : List CallObs}
    (hc : c.WellFormed) (hstep : c.step e = some (c', obs))
    (hopen : c.client.circuitBreaker.state ≠ .closed)
    (hclosed : c'.client.circuitBreaker.state = .closed) :
    ∃ call ∈ c.waiting, ∃ outcome t, e = .answer call.id outcome t ∧
      outcome.recorded? t = some .success := by
  have hover : ¬ c.client.circuitBreaker.failureCount <
      c.client.circuitBreaker.failureThreshold := by
    rw [← hc.sound.closed_iff]
    exact hopen
  have hbelow := (Calls.step_wellFormed hc hstep).sound.closed_iff.mp hclosed
  cases Calls.step_spec hstep with
  | refused id manager payload t client error hclock hseen hblocked hbreaker =>
      rw [hbreaker, CircuitBreaker.afterStart_eq] at hbelow
      exact absurd hbelow hover
  | admitted id manager payload t client primary hclock hseen hadmitted hprimary hbreaker =>
      rw [hbreaker, CircuitBreaker.afterStart_eq] at hbelow
      exact absurd hbelow hover
  | fallback call outcome t client credential hclock hmem hrejected hretry hbreaker =>
      rw [hbreaker] at hbelow
      exact absurd hbelow hover
  | finished call outcome t client hclock hmem hlast hbreaker =>
      refine ⟨call, hmem, outcome, t, rfl, ?_⟩
      unfold CircuitBreaker.afterAnswer at hbreaker
      cases hrecorded : outcome.recorded? t with
      | none =>
          simp only [hrecorded] at hbreaker
          rw [hbreaker] at hbelow
          exact absurd hbelow hover
      | some r =>
          cases r with
          | success => rfl
          | failure now =>
              obtain ⟨hdone, hfailed, -⟩ := CallEvent.answer_ordered hclock
              have hfailure := (hc.sound.mono (hdone.trans hfailed)).recordFailure_eq
              have hstamp := PostOutcome.recorded?_failure hrecorded
              subst hstamp
              simp only [hrecorded] at hbreaker
              rw [hbreaker, CircuitBreaker.readState_failureCount,
                CircuitBreaker.readState_failureThreshold, CircuitBreaker.record,
                hfailure] at hbelow
              dsimp only at hbelow
              omega

/-- A success closes the breaker. -/
private theorem closed_of_success {c c' : Calls} {id : Nat} {outcome : PostOutcome}
    {t : AnswerReadings} {obs : List CallObs}
    (hstep : c.step (.answer id outcome t) = some (c', obs))
    (hsuccess : outcome.recorded? t = some .success) :
    c'.client.circuitBreaker.state = .closed := by
  cases Calls.step_spec hstep with
  | fallback call outcome t client credential hclock hmem hrejected =>
      rw [PostOutcome.recorded?_of_rejected t hrejected] at hsuccess
      cases hsuccess
  | finished call outcome t client hclock hmem hlast hbreaker =>
      rw [hbreaker, CircuitBreaker.afterAnswer, hsuccess]
      show ((c.client.circuitBreaker.recordSuccess.readState t.gauge).2).state = .closed
      have hne : c.client.circuitBreaker.recordSuccess.state ≠ .openState := by
        simp [CircuitBreaker.recordSuccess]
      rw [CircuitBreaker.readState_of_ne_open hne]
      rfl

private theorem closesByProbe_iff_not_late {c c' : Calls} {e : CallEvent} {obs : List CallObs}
    (hc : c.WellFormed) (h : c.Admissions) (hstep : c.step e = some (c', obs)) :
    ClosesByProbe c e ↔ ¬ SucceedsLate c e := by
  constructor
  · intro hprobe hlate
    cases e with
    | call id manager payload t => exact hlate
    | answer id outcome t =>
        obtain ⟨hsuccess, hover, call, hmem, hid, f, hf, hbefore⟩ := hlate
        have hopen : c.client.circuitBreaker.state ≠ .closed := by
          intro hclosed
          exact absurd (hc.sound.closed_iff.mp hclosed) (Nat.not_lt.mpr hover)
        obtain ⟨-, call', hmem', outcome', t', heq, -, -, f', hf', helapsed⟩ :=
          hprobe c' obs hstep hopen (closed_of_success hstep hsuccess)
        have hids : id = call'.id := (CallEvent.answer.inj heq).1
        have hcall : call' = call := hc.eq_of_id hmem' hmem (hids.symm.trans hid.symm)
        rw [hcall] at helapsed
        rw [hf, Option.some.injEq] at hf'
        subst hf'
        have hpos := h.timeout_pos
        linarith
  · intro hlate c'' obs' hstep' hopen hclosed
    obtain ⟨rfl, rfl⟩ : c' = c'' ∧ obs = obs' := by simpa using hstep.symm.trans hstep'
    obtain ⟨call, hmem, outcome, t, rfl, hsuccess⟩ := success_of_closes hc hstep hopen hclosed
    have hover : c.client.circuitBreaker.failureThreshold ≤
        c.client.circuitBreaker.failureCount := by
      rw [ne_eq, hc.sound.closed_iff, Nat.not_lt] at hopen
      exact hopen
    obtain ⟨f, hf, hcase⟩ := h.admitted hover call hmem
    rcases hcase with hbefore | ⟨hhalf, hin, helapsed⟩
    · exact absurd ⟨hsuccess, hover, call, hmem, rfl, f, hf, hbefore⟩ hlate
    · exact ⟨hhalf, call, hmem, outcome, t, rfl, hsuccess, hin, f, hf, helapsed⟩

/-- In a run every step that closes the breaker is the success of a probe,
exactly when in the run no success arrives late. -/
theorem closesByProbe_iff (baseUrl : String) (now : Rat) (es : List CallEvent) (c : Calls)
    (tr : List CallObs) (hrun : run Calls.step (Calls.start baseUrl now) es = some (c, tr)) :
    Along Calls.step ClosesByProbe (Calls.start baseUrl now) es ↔
      Along Calls.step (fun c e => ¬ SucceedsLate c e) (Calls.start baseUrl now) es :=
  along_congr_run (I := fun c => c.WellFormed ∧ c.Admissions)
    (fun _ _ _ _ h hs => ⟨Calls.step_wellFormed h.1 hs, Calls.step_admissions h.1 h.2 hs⟩)
    (fun _ _ _ _ h hs => closesByProbe_iff_not_late h.1 h.2 hs)
    ⟨Calls.start_wellFormed baseUrl now, Calls.start_admissions baseUrl now⟩ hrun

instance (c : Calls) : ∀ e, Decidable (SucceedsLate c e)
  | .call _ _ _ _ => inferInstanceAs (Decidable False)
  | .answer id outcome t =>
      inferInstanceAs (Decidable (outcome.recorded? t = some .success ∧
        c.client.circuitBreaker.failureThreshold ≤ c.client.circuitBreaker.failureCount ∧
          ∃ call ∈ c.waiting, call.id = id ∧
            ∃ f ∈ c.client.circuitBreaker.lastFailureTime, call.admittedAt ≤ f))

theorem closesByProbe_iff_answered :
    ∃ c tr, run Calls.step (Calls.start "" 0) servedCalls = some (c, tr) ∧
      Along Calls.step ClosesByProbe (Calls.start "" 0) servedCalls ∧
        Along Calls.step (fun c e => ¬ SucceedsLate c e) (Calls.start "" 0) servedCalls := by
  have hrun : ∃ c tr, run Calls.step (Calls.start "" 0) servedCalls = some (c, tr) ∧
      Along Calls.step (fun c e => ¬ SucceedsLate c e) (Calls.start "" 0) servedCalls :=
    exists_run (by decide +kernel)
  obtain ⟨c, tr, hrun, htimely⟩ := hrun
  exact ⟨c, tr, hrun, (closesByProbe_iff "" 0 servedCalls c tr hrun).mpr htimely, htimely⟩

/-- The sixth call succeeds and closes the open breaker. -/
theorem not_closesByProbe_late :
    ∃ c tr, run Calls.step (Calls.start "" 0)
        (trippingRun ++ [.answer 5 (gatewayAnswer 200) (.at 2)]) = some (c, tr) ∧
      ¬ Along Calls.step ClosesByProbe (Calls.start "" 0)
        (trippingRun ++ [.answer 5 (gatewayAnswer 200) (.at 2)]) := by
  have htripped : ∃ c tr, run Calls.step (Calls.start "" 0) trippingRun = some (c, tr) ∧
      c.client.circuitBreaker.state = .openState ∧
        ((c.step (.answer 5 (gatewayAnswer 200) (.at 2))).any
          fun r => decide (r.1.client.circuitBreaker.state = .closed)) = true :=
    exists_run (by decide +kernel)
  obtain ⟨c, tr, hrun, hopen, hlate⟩ := htripped
  obtain ⟨⟨c', obs⟩, hstep, hclosed⟩ := (Option.any_eq_true _ _).mp hlate
  have hclosed' : c'.client.circuitBreaker.state = .closed := of_decide_eq_true hclosed
  refine ⟨c', tr ++ obs, ?_, ?_⟩
  · exact run_append_iff.mpr ⟨c, tr, obs, hrun, run_singleton hstep, rfl⟩
  · intro halong
    have hprobe := along_iff_forall_split.mp halong trippingRun _ [] c tr rfl hrun
    have hhalf := (hprobe c' obs hstep (by simp [hopen]) hclosed').1
    rw [hopen] at hhalf
    cases hhalf

/-! ## One probe at a time -/

/-- What an observation does to the list of probes. -/
def probesStep (ids : List Nat) : CallObs → List Nat
  | .admitted id state => if state = .halfOpen then ids ++ [id] else ids
  | .finished id _ => ids.filter (fun id' => id' ≠ id)
  | .breaker _ | .posted _ _ _ => ids

/-- The calls in flight that were admitted half-open. -/
def probes (tr : List CallObs) : List Nat := tr.foldl probesStep []

def stateStep (state : CircuitState) : CallObs → CircuitState
  | .breaker state' => state'
  | .admitted _ _ | .posted _ _ _ | .finished _ _ => state

/-- The last value of `_state`. -/
def shownState (tr : List CallObs) : CircuitState := tr.foldl stateStep .closed

/-- No call is admitted while a probe is in flight, and a probe does not end
with the breaker half-open. -/
def Disciplined (h : List CallObs) : CallObs → Prop
  | .admitted _ _ => probes h = []
  | .finished id _ => id ∈ probes h → shownState h ≠ .halfOpen
  | .breaker _ | .posted _ _ _ => True

/-- The breaker is half-open and is told nothing, or is told of a failure that it
opens on and whose timeout elapses before the next reading of the clock. -/
def CircuitBreaker.StaysHalfOpen (b : CircuitBreaker) (t : AnswerReadings) :
    Option Recorded → Prop
  | none => b.state = .halfOpen
  | some .success => False
  | some (.failure now) =>
      b.failureThreshold ≤ b.failureCount + 1 ∧ b.timeoutSeconds ≤ t.gauge - now

/-- A call with a credential arrives while a probe is in flight and the breaker is
not tripped, or the last POST of a probe ends so that the breaker is half-open. -/
def Spoils (c : Calls) : CallEvent → Prop
  | .call _ manager _ t =>
      manager.getCurrentCredential ≠ none ∧ ¬ c.client.circuitBreaker.Tripped t.allow ∧
        ∃ call ∈ c.waiting, call.admittedIn = .halfOpen
  | .answer id outcome t =>
      c.client.circuitBreaker.StaysHalfOpen t (outcome.recorded? t) ∧
        ∃ call ∈ c.waiting, call.id = id ∧ call.admittedIn = .halfOpen ∧
          (outcome.attempt = .rejected → call.pending.retry? = none)

/-- The probes are the suspended calls that were admitted half-open. -/
structure Probing (c : Calls) (tr : List CallObs) : Prop where
  mem_iff : ∀ id, id ∈ probes tr ↔ ∃ call ∈ c.waiting, call.id = id ∧ call.admittedIn = .halfOpen
  state_eq : shownState tr = c.client.circuitBreaker.state

theorem Probing.eq_nil_iff {c : Calls} {tr : List CallObs} (h : Probing c tr) :
    probes tr = [] ↔ ¬ ∃ call ∈ c.waiting, call.admittedIn = .halfOpen := by
  rw [List.eq_nil_iff_forall_not_mem]
  constructor
  · rintro hnone ⟨call, hmem, hhalf⟩
    exact hnone call.id ((h.mem_iff call.id).mpr ⟨call, hmem, rfl, hhalf⟩)
  · intro hnone id hin
    obtain ⟨call, hmem, -, hhalf⟩ := (h.mem_iff id).mp hin
    exact hnone ⟨call, hmem, hhalf⟩

theorem probes_append (tr tr' : List CallObs) :
    probes (tr ++ tr') = tr'.foldl probesStep (probes tr) := by
  rw [probes, probes, List.foldl_append]

theorem shownState_append (tr tr' : List CallObs) :
    shownState (tr ++ tr') = tr'.foldl stateStep (shownState tr) := by
  rw [shownState, shownState, List.foldl_append]

/-- Values of `_state` leave the probes as they are. -/
private theorem foldl_probesStep_trail (trail : List CircuitState) (ids : List Nat) :
    (trail.map CallObs.breaker).foldl probesStep ids = ids := by
  induction trail with
  | nil => rfl
  | cons s trail ih => exact ih

theorem probes_trail (tr : List CallObs) (trail : List CircuitState) :
    probes (tr ++ trail.map CallObs.breaker) = probes tr := by
  rw [probes_append, foldl_probesStep_trail]

/-- The breaker shows the state that a start leaves it in. -/
theorem shownState_startTrail (tr : List CallObs) (b : CircuitBreaker) (t : StartReadings) :
    shownState (tr ++ (Calls.startTrail b t).map CallObs.breaker) = (b.afterStart t).state := by
  rw [shownState_append, Calls.startTrail, CircuitBreaker.afterStart]
  by_cases hopen : Calls.admission b t = .openState
  · rw [if_pos hopen, if_pos hopen, CircuitBreaker.readState_state]
    rfl
  · rw [if_neg hopen, if_neg hopen, CircuitBreaker.readState_state]
    rfl

/-- The breaker shows the state that a completion leaves it in. -/
theorem Probing.shownState_answerTrail {c : Calls} {tr : List CallObs} (h : Probing c tr)
    (outcome : PostOutcome) (t : AnswerReadings) :
    shownState (tr ++ (Calls.answerTrail c.client.circuitBreaker outcome t).map CallObs.breaker) =
      (c.client.circuitBreaker.afterAnswer outcome t).state := by
  rw [shownState_append, Calls.answerTrail, CircuitBreaker.afterAnswer, h.state_eq]
  cases outcome.recorded? t with
  | none => rfl
  | some r => simp [stateStep]

/-- A sound breaker refuses a call exactly when it is tripped. -/
theorem CircuitBreaker.Sound.admission_eq_open_iff {b : CircuitBreaker} {now : Rat}
    {t : StartReadings} (h : b.Sound now) (hgauge : now ≤ t.gauge) (hallow : t.gauge ≤ t.allow) :
    Calls.admission b t = .openState ↔ b.Tripped t.allow := by
  have hsound := (h.mono hgauge).readState.mono hallow
  rw [Calls.admission, hsound.open_iff, Tripped, Tripped, readState_failureThreshold,
    readState_failureCount, readState_timedOut]

/-- When a completion leaves the breaker half-open. -/
theorem CircuitBreaker.Sound.afterAnswer_halfOpen_iff {b : CircuitBreaker} {now : Rat}
    {t : AnswerReadings} (outcome : PostOutcome) (h : b.Sound now) (hdone : now ≤ t.done)
    (hfailed : t.done ≤ t.failed) (hgauge : t.failed ≤ t.gauge) :
    (b.afterAnswer outcome t).state = .halfOpen ↔ b.StaysHalfOpen t (outcome.recorded? t) := by
  have hnow := h.mono (hdone.trans hfailed)
  have hpos := h.threshold_pos
  unfold CircuitBreaker.afterAnswer
  cases hrecorded : outcome.recorded? t with
  | none => exact Iff.rfl
  | some r =>
      dsimp only
      rw [readState_state]
      cases r with
      | success =>
          have hclosed := (hnow.recordSuccess.mono hgauge).readState_eq
          have hbelow : b.recordSuccess.failureCount < b.recordSuccess.failureThreshold := hpos
          rw [if_pos hbelow] at hclosed
          rw [CircuitBreaker.record, hclosed]
          simp [StaysHalfOpen]
      | failure stamp =>
          have hstamp := PostOutcome.recorded?_failure hrecorded
          subst hstamp
          have hread := (hnow.recordFailure.mono hgauge).readState_eq
          rw [CircuitBreaker.record, hread, hnow.recordFailure_eq]
          by_cases hbelow : b.failureCount + 1 < b.failureThreshold
          · have hnot : ¬ b.failureThreshold ≤ b.failureCount + 1 := by omega
            simp [StaysHalfOpen, hbelow, hnot]
          · have hover : b.failureThreshold ≤ b.failureCount + 1 := by omega
            simp [StaysHalfOpen, hbelow, hover, CircuitBreaker.timedOut]

private theorem chronicle_trail_append {tr obs : List CallObs} (trail : List CircuitState) :
    Chronicle Disciplined tr (trail.map CallObs.breaker ++ obs) ↔
      Chronicle Disciplined (tr ++ trail.map CallObs.breaker) obs := by
  apply chronicle_append_of_forall
  intro x hx h
  obtain ⟨s, -, rfl⟩ := List.mem_map.mp hx
  trivial

private theorem step_disciplined_iff {c c' : Calls} {e : CallEvent} {tr obs : List CallObs}
    (hc : c.WellFormed) (h : Probing c tr) (hstep : c.step e = some (c', obs)) :
    Chronicle Disciplined tr obs ↔ ¬ Spoils c e := by
  cases Calls.step_spec hstep with
  | refused id manager payload t client error hclock hseen hblocked hbreaker =>
      obtain ⟨hgauge, hallow, -⟩ := CallEvent.call_ordered hclock
      rw [chronicle_trail_append, chronicle_singleton]
      have hfresh : ¬ id ∈ probes tr := by
        intro hin
        obtain ⟨call, hmem, hid, -⟩ := (h.mem_iff id).mp hin
        exact hseen (hid ▸ hc.named call hmem)
      constructor
      · rintro - ⟨hcurrent, hadmits, -⟩
        rcases hblocked with hopen | hnone
        · exact hadmits ((hc.sound.admission_eq_open_iff hgauge hallow).mp hopen)
        · exact hcurrent hnone
      · intro _ hprobe
        rw [probes_trail] at hprobe
        exact absurd hprobe hfresh
  | admitted id manager payload t client primary hclock hseen hadmitted hprimary hbreaker =>
      obtain ⟨hgauge, hallow, -⟩ := CallEvent.call_ordered hclock
      have hcurrent : manager.getCurrentCredential ≠ none := by simp [hprimary]
      rw [ne_eq, hc.sound.admission_eq_open_iff hgauge hallow] at hadmitted
      rw [chronicle_trail_append]
      show (probes _ = [] ∧ True ∧ True) ↔ _
      rw [probes_trail, h.eq_nil_iff, and_true, and_true]
      exact ⟨fun hnone hspoils => hnone hspoils.2.2,
        fun hcalm hprobe => hcalm ⟨hcurrent, hadmitted, hprobe⟩⟩
  | fallback call outcome t client credential hclock hmem hrejected hretry hbreaker =>
      rw [chronicle_singleton]
      refine ⟨fun _ => ?_, fun _ => trivial⟩
      rintro ⟨-, call', hmem', hid, -, hlast⟩
      rw [hc.eq_of_id hmem' hmem hid, hretry] at hlast
      cases hlast hrejected
  | finished call outcome t client hclock hmem hlast hbreaker =>
      obtain ⟨hdone, hfailed, hgauge, -⟩ := CallEvent.answer_ordered hclock
      rw [chronicle_trail_append, chronicle_singleton]
      show (call.id ∈ probes _ → shownState _ ≠ .halfOpen) ↔ _
      rw [probes_trail, h.mem_iff, h.shownState_answerTrail, ne_eq,
        hc.sound.afterAnswer_halfOpen_iff outcome hdone hfailed hgauge]
      constructor
      · rintro hleft ⟨hstays, call', hmem', hid, hhalf, -⟩
        exact hleft ⟨call', hmem', hid, hhalf⟩ hstays
      · rintro hcalm ⟨call', hmem', hid, hhalf⟩ hstays
        refine hcalm ⟨hstays, call', hmem', hid, hhalf, ?_⟩
        rw [hc.eq_of_id hmem' hmem hid]
        exact hlast

/-- The suspended calls once one of them is over. -/
private theorem exists_mem_filter_iff {waiting : List Call} {id id' : Nat} {P : Call → Prop} :
    (∃ call ∈ waiting.filter (fun call' => call'.id ≠ id), call.id = id' ∧ P call) ↔
      (∃ call ∈ waiting, call.id = id' ∧ P call) ∧ id' ≠ id := by
  constructor
  · rintro ⟨call, hin, rfl, hP⟩
    obtain ⟨hmem, hne⟩ := mem_filter_id hin
    exact ⟨⟨call, hmem, rfl, hP⟩, hne⟩
  · rintro ⟨⟨call, hmem, rfl, hP⟩, hne⟩
    exact ⟨call, List.mem_filter.mpr ⟨hmem, decide_eq_true hne⟩, rfl, hP⟩

private theorem step_probing {c c' : Calls} {e : CallEvent} {tr obs : List CallObs}
    (hc : c.WellFormed) (h : Probing c tr) (hstep : c.step e = some (c', obs)) :
    Probing c' (tr ++ obs) := by
  cases Calls.step_spec hstep with
  | refused id manager payload t client error hclock hseen hblocked hbreaker =>
      refine ⟨?_, ?_⟩
      · intro id'
        rw [← List.append_assoc, probes_append, probes_trail, List.foldl_cons, List.foldl_nil,
          probesStep, List.mem_filter, h.mem_iff]
        refine ⟨fun hin => hin.1, fun hin => ⟨hin, ?_⟩⟩
        obtain ⟨call, hmem, rfl, -⟩ := hin
        apply decide_eq_true
        intro heq
        exact hseen (heq ▸ hc.named call hmem)
      · rw [← List.append_assoc, shownState_append, shownState_startTrail, hbreaker]
        rfl
  | admitted id manager payload t client primary hclock hseen hadmitted hprimary hbreaker =>
      refine ⟨?_, ?_⟩
      · intro id'
        rw [← List.append_assoc, probes_append, probes_trail, List.foldl_cons, List.foldl_cons,
          List.foldl_nil]
        simp only [probesStep, List.mem_append, List.mem_singleton]
        constructor
        · intro hin
          split at hin
          · rename_i hhalf
            rcases List.mem_append.mp hin with hold | hnew
            · obtain ⟨call, hmem, hid, hin'⟩ := (h.mem_iff id').mp hold
              exact ⟨call, Or.inl hmem, hid, hin'⟩
            · exact ⟨_, Or.inr rfl, (List.mem_singleton.mp hnew).symm, hhalf⟩
          · obtain ⟨call, hmem, hid, hin'⟩ := (h.mem_iff id').mp hin
            exact ⟨call, Or.inl hmem, hid, hin'⟩
        · rintro ⟨call, hold | hnew, hid, hhalf⟩
          · have hin := (h.mem_iff id').mpr ⟨call, hold, hid, hhalf⟩
            split
            · exact List.mem_append_left _ hin
            · exact hin
          · subst hnew
            rw [if_pos hhalf]
            exact List.mem_append_right _ (List.mem_singleton.mpr hid.symm)
      · rw [← List.append_assoc, shownState_append, shownState_startTrail, hbreaker]
        rfl
  | fallback call outcome t client credential hclock hmem hrejected hretry hbreaker =>
      refine ⟨?_, ?_⟩
      · intro id'
        rw [probes_append]
        show id' ∈ probes tr ↔ _
        rw [h.mem_iff]
        constructor
        · rintro ⟨call', hmem', hid, hhalf⟩
          by_cases hsame : call'.id = call.id
          · rw [hc.eq_of_id hmem' hmem hsame] at hid hhalf
            exact ⟨_, List.mem_append_right _ (List.mem_singleton.mpr rfl), hid, hhalf⟩
          · exact ⟨call', List.mem_append_left _
              (List.mem_filter.mpr ⟨hmem', decide_eq_true hsame⟩), hid, hhalf⟩
        · rintro ⟨call', hin, hid, hhalf⟩
          rcases List.mem_append.mp hin with hold | hnew
          · exact ⟨call', (mem_filter_id hold).1, hid, hhalf⟩
          · rw [List.mem_singleton.mp hnew] at hid hhalf
            exact ⟨call, hmem, hid, hhalf⟩
      · rw [shownState_append]
        show shownState tr = client.circuitBreaker.state
        rw [h.state_eq, hbreaker]
  | finished call outcome t client hclock hmem hlast hbreaker =>
      refine ⟨?_, ?_⟩
      · intro id'
        rw [← List.append_assoc, probes_append, probes_trail, List.foldl_cons, List.foldl_nil,
          probesStep, List.mem_filter, h.mem_iff, exists_mem_filter_iff, decide_eq_true_eq]
      · rw [← List.append_assoc, shownState_append, h.shownState_answerTrail, ← hbreaker]
        rfl

/-- A run admits no call while a probe is in flight, and no probe of it ends with
the breaker half-open, exactly when in the run no call with a credential arrives
while a probe is in flight and the breaker is not tripped, and no probe ends on a
POST that leaves the breaker half-open. -/
theorem disciplined_iff (baseUrl : String) (now : Rat) (es : List CallEvent) (c : Calls)
    (tr : List CallObs) (hrun : run Calls.step (Calls.start baseUrl now) es = some (c, tr)) :
    Chronicle Disciplined [] tr ↔
      Along Calls.step (fun c e => ¬ Spoils c e) (Calls.start baseUrl now) es := by
  rw [← along_recording_iff]
  refine chronicle_iff_along (I := fun c tr => c.WellFormed ∧ Probing c tr) ?_ ?_ ?_ hrun
  · exact fun _ _ _ _ _ h hs _ => ⟨Calls.step_wellFormed h.1 hs, step_probing h.1 h.2 hs⟩
  · exact fun _ _ _ _ _ h hs => step_disciplined_iff h.1 h.2 hs
  · refine ⟨Calls.start_wellFormed baseUrl now, ?_, rfl⟩
    exact fun id => ⟨fun hin => absurd hin List.not_mem_nil, by rintro ⟨call, hin, -⟩; cases hin⟩

instance : ∀ h x, Decidable (Disciplined h x)
  | h, .admitted _ _ => inferInstanceAs (Decidable (probes h = []))
  | h, .finished id _ => inferInstanceAs (Decidable (id ∈ probes h → shownState h ≠ .halfOpen))
  | _, .breaker _ | _, .posted _ _ _ => inferInstanceAs (Decidable True)

/-- A single call arrives once the timeout has elapsed and is answered; another one
comes after it. -/
def probedRun : List CallEvent :=
  trippingRun ++ [.call 10 rotatedManager samplePayment (.at 40),
    .answer 10 (gatewayAnswer 200) (.at 41), .call 11 rotatedManager samplePayment (.at 42)]

theorem disciplined_iff_answered :
    ∃ c tr, run Calls.step (Calls.start "" 0) probedRun = some (c, tr) ∧
      Chronicle Disciplined [] tr ∧
        Along Calls.step (fun c e => ¬ Spoils c e) (Calls.start "" 0) probedRun := by
  have hrun : ∃ c tr, run Calls.step (Calls.start "" 0) probedRun = some (c, tr) ∧
      Chronicle Disciplined [] tr := exists_run (by decide +kernel)
  obtain ⟨c, tr, hrun, hdisciplined⟩ := hrun
  exact ⟨c, tr, hrun, hdisciplined,
    (disciplined_iff "" 0 probedRun c tr hrun).mp hdisciplined⟩

/-- Two calls arrive once the timeout has elapsed; a single one arrives and is
rejected with both credentials; a single one arrives, and the late success of a
call from before closes the breaker and lets another one in. -/
theorem not_disciplined_probes :
    (∃ c tr, run Calls.step (Calls.start "" 0)
        (trippingRun ++ [.call 10 rotatedManager samplePayment (.at 40),
          .call 11 rotatedManager samplePayment (.at 40)]) = some (c, tr) ∧
      ¬ Chronicle Disciplined [] tr) ∧
    (∃ c tr, run Calls.step (Calls.start "" 0)
        (trippingRun ++ [.call 10 rotatedManager samplePayment (.at 40),
          .answer 10 (gatewayAnswer 401) (.at 41),
          .answer 10 (gatewayAnswer 401) (.at 42)]) = some (c, tr) ∧
      ¬ Chronicle Disciplined [] tr) ∧
    ∃ c tr, run Calls.step (Calls.start "" 0)
        (trippingRun ++ [.call 10 rotatedManager samplePayment (.at 40),
          .answer 5 (gatewayAnswer 200) (.at 41),
          .call 11 rotatedManager samplePayment (.at 42)]) = some (c, tr) ∧
      ¬ Chronicle Disciplined [] tr :=
  ⟨exists_run (by decide +kernel), exists_run (by decide +kernel), exists_run (by decide +kernel)⟩

end PaymentConnector
