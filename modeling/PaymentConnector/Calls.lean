import PaymentConnector.Breaker
import PaymentConnector.Library.Machine

/-!
# Concurrent calls of the gateway client

One `GatewayClient` serves any number of `authorize_payment` calls, each of
which suspends at its POSTs.  A step is one stretch of a call: from its start
to its first POST or its refusal, or from the completion of a POST to the
fallback POST, the result or the exception.  The credential manager that a call
reads is part of its event, so that loads may happen anywhere; a step whose
clock readings go back is not enabled.
-/

namespace PaymentConnector

open Library

/-- A call suspended at a POST.  `admittedIn` and `admittedAt` are the state
that `allows_request` read for it and the instant of that reading. -/
structure Call where
  id : Nat
  pending : Pending
  admittedIn : CircuitState
  admittedAt : Rat

/-- The client, its suspended calls, the names already given to calls and the
last clock reading. -/
structure Calls where
  client : GatewayClient
  waiting : List Call
  seen : List Nat
  clock : Rat

inductive CallEvent
  | call (id : Nat) (manager : CredentialManager) (payload : PaymentRequest) (t : StartReadings)
  | answer (id : Nat) (outcome : PostOutcome) (t : AnswerReadings)

/-- What a step makes visible: every value that `_state` takes, the admission
of a call, its POSTs with the breaker's state at the start of the POST, and its
end. -/
inductive CallObs
  | breaker (state : CircuitState)
  | admitted (id : Nat) (state : CircuitState)
  | posted (id : Nat) (pending : Pending) (state : CircuitState)
  | finished (id : Nat) (progress : Progress)

/-- The clock readings of a step, in code order. -/
def CallEvent.readings : CallEvent → List Rat
  | .call _ _ _ t => [t.gauge, t.allow, t.refuse, t.send]
  | .answer _ _ t => [t.done, t.failed, t.gauge, t.send]

/-- What the completion of a POST records with the breaker. -/
def PostOutcome.recorded? (outcome : PostOutcome) (t : AnswerReadings) : Option Recorded :=
  match outcome with
  | .response statusCode _ =>
      if statusCode = 401 ∨ statusCode = 403 then none
      else if 500 ≤ statusCode then some (.failure t.failed)
      else some .success
  | .timeout _ | .httpError _ => some (.failure t.failed)
  | .raised _ => none

namespace Calls

/-- A client before its first call. -/
def start (baseUrl : String) (now : Rat) : Calls where
  client := .init baseUrl
  waiting := []
  seen := []
  clock := now

/-- The state that `allows_request` reads for a call. -/
def admission (b : CircuitBreaker) (t : StartReadings) : CircuitState :=
  ((b.readState t.gauge).2.readState t.allow).1

/-- The values of `_state` at the start of a call: after the gauge, after
`allows_request` and, on refusal, after the gauge again. -/
def startTrail (b : CircuitBreaker) (t : StartReadings) : List CircuitState :=
  [(b.readState t.gauge).1, admission b t] ++
    if admission b t = .openState then
      [(((b.readState t.gauge).2.readState t.allow).2.readState t.refuse).1]
    else []

/-- The values of `_state` after the completion of a POST: once it is recorded
and after the gauge. -/
def answerTrail (b : CircuitBreaker) (outcome : PostOutcome) (t : AnswerReadings) :
    List CircuitState :=
  match outcome.recorded? t with
  | none => []
  | some r => [(b.record r).state, ((b.record r).readState t.gauge).1]

/-- A POST of a call, with the breaker's state at its start. -/
def postedObs (id : Nat) (client : GatewayClient) (pending : Pending) : CallObs :=
  .posted id pending (client.circuitBreaker.readState pending.startTime).1

/-- One stretch of a call. -/
def step (c : Calls) (e : CallEvent) : Option (Calls × List CallObs) :=
  if ¬ (c.clock :: e.readings).Pairwise (· ≤ ·) then none
  else
    match e with
    | .call id manager payload t =>
        if id ∈ c.seen then none
        else
          let trail := (startTrail c.client.circuitBreaker t).map CallObs.breaker
          match c.client.beginAuthorize manager payload t with
          | (client, .error error) =>
              some
                ({ client := client, waiting := c.waiting, seen := id :: c.seen, clock := t.send },
                  trail ++ [.finished id (.failed error)])
          | (client, .ok pending) =>
              let admitted := admission c.client.circuitBreaker t
              some
                ({ client := client
                   waiting := c.waiting ++ [⟨id, pending, admitted, t.allow⟩]
                   seen := id :: c.seen
                   clock := t.send },
                  trail ++ [.admitted id admitted, postedObs id client pending])
    | .answer id outcome t =>
        match c.waiting.find? (fun call => call.id = id) with
        | none => none
        | some call =>
            let trail := (answerTrail c.client.circuitBreaker outcome t).map CallObs.breaker
            let rest := c.waiting.filter (fun call' => call'.id ≠ id)
            match c.client.resumeAuthorize call.pending outcome t with
            | (client, .posting pending, _) =>
                some
                  ({ client := client
                     waiting := rest ++ [{ call with pending := pending }]
                     seen := c.seen
                     clock := t.send },
                    trail ++ [postedObs id client pending])
            | (client, progress, _) =>
                some
                  ({ client := client, waiting := rest, seen := c.seen, clock := t.send },
                    trail ++ [.finished id progress])

end Calls

/-! ## What a step can do -/

/-- The fallback that a call still has to try: another credential than the one
just sent. -/
def Pending.retry? (p : Pending) : Option Credential :=
  match p.stage with
  | .primary (some fallback) => if fallback.oid ≠ p.credential.oid then some fallback else none
  | _ => none

/-- The gateway answers 401 or 403. -/
def PostOutcome.rejects : PostOutcome → Bool
  | .response statusCode _ => statusCode = 401 || statusCode = 403
  | .timeout _ | .httpError _ | .raised _ => false

theorem PostOutcome.attempt_eq_rejected_iff (outcome : PostOutcome) :
    outcome.attempt = .rejected ↔ outcome.rejects = true := by
  cases outcome with
  | response statusCode json =>
      simp only [PostOutcome.attempt, PostOutcome.rejects, Bool.or_eq_true, decide_eq_true_eq]
      by_cases hcode : statusCode = 401 ∨ statusCode = 403
      · simp [hcode]
      · rw [if_neg hcode]
        refine ⟨?_, fun h => absurd h hcode⟩
        intro h
        split at h
        · cases h
        · cases json with
          | error exc => cases h
          | ok value =>
              dsimp only at h
              split at h <;> cases h
  | timeout error => exact ⟨fun h => Attempt.noConfusion h, fun h => Bool.noConfusion h⟩
  | httpError error => exact ⟨fun h => Attempt.noConfusion h, fun h => Bool.noConfusion h⟩
  | raised exc => exact ⟨fun h => Attempt.noConfusion h, fun h => Bool.noConfusion h⟩

theorem Pending.progress_rejected (p : Pending) {outcome : PostOutcome} (t : AnswerReadings)
    (h : outcome.attempt = .rejected) :
    p.progress outcome t =
      match p.retry? with
      | some fallback => .posting ⟨fallback, p.payload, .fallback, t.send⟩
      | none => .failed (.auth "All credentials were rejected by the gateway") := by
  unfold Pending.progress Pending.retry?
  rw [h]
  rcases p.stage with ⟨_ | fallback⟩ | _
  · rfl
  · dsimp only
    split
    · rfl
    · rfl
  · rfl

/-- Only a rejection leads to another POST. -/
theorem Pending.progress_not_posting (p : Pending) {outcome : PostOutcome} (t : AnswerReadings)
    (h : outcome.attempt ≠ .rejected) (pending : Pending) :
    p.progress outcome t ≠ .posting pending := by
  unfold Pending.progress
  cases hattempt : outcome.attempt with
  | rejected => exact absurd hattempt h
  | returned body => simp
  | unavailable text => simp
  | escaped exc => simp

/-- A rejected POST records nothing. -/
theorem PostOutcome.recorded?_of_rejected {outcome : PostOutcome} (t : AnswerReadings)
    (h : outcome.attempt = .rejected) : outcome.recorded? t = none := by
  have hrejects := outcome.attempt_eq_rejected_iff.mp h
  cases outcome with
  | response statusCode json =>
      simp only [PostOutcome.rejects, Bool.or_eq_true, decide_eq_true_eq] at hrejects
      rw [PostOutcome.recorded?, if_pos hrejects]
  | timeout error => cases h
  | httpError error => cases h
  | raised exc => cases h

/-- Failures are stamped with the reading made for them. -/
theorem PostOutcome.recorded?_failure {outcome : PostOutcome} {t : AnswerReadings} {now : Rat}
    (h : outcome.recorded? t = some (.failure now)) : now = t.failed := by
  cases outcome with
  | response statusCode json =>
      simp only [PostOutcome.recorded?] at h
      split at h
      · cases h
      · split at h
        · cases h
          rfl
        · cases h
  | timeout error =>
      cases h
      rfl
  | httpError error =>
      cases h
      rfl
  | raised exc => cases h

namespace CircuitBreaker

/-- The breaker after the start of a call. -/
def afterStart (b : CircuitBreaker) (t : StartReadings) : CircuitBreaker :=
  let b' := ((b.readState t.gauge).2.readState t.allow).2
  if Calls.admission b t = .openState then (b'.readState t.refuse).2 else b'

/-- The breaker after the completion of a POST. -/
def afterAnswer (b : CircuitBreaker) (outcome : PostOutcome) (t : AnswerReadings) :
    CircuitBreaker :=
  match outcome.recorded? t with
  | none => b
  | some r => ((b.record r).readState t.gauge).2

end CircuitBreaker

section Client

variable (g : GatewayClient)

@[simp] theorem updateCircuitBreakerMetric_circuitBreaker (now : Rat) :
    (g.updateCircuitBreakerMetric now).circuitBreaker = (g.circuitBreaker.readState now).2 := rfl

theorem beginAuthorize_circuitBreaker (m : CredentialManager) (payload : PaymentRequest)
    (t : StartReadings) :
    (g.beginAuthorize m payload t).1.circuitBreaker = g.circuitBreaker.afterStart t := by
  simp only [GatewayClient.beginAuthorize, CircuitBreaker.afterStart, Calls.admission,
    CircuitBreaker.allowsRequest_eq, updateCircuitBreakerMetric_circuitBreaker]
  by_cases hopen : ((g.circuitBreaker.readState t.gauge).2.readState t.allow).1 = .openState
  · simp [hopen]
  · cases hcurrent : m.getCurrentCredential <;> simp [hopen]

/-- A call is refused by an open breaker, or without a credential, and posts
with the current credential otherwise. -/
theorem beginAuthorize_result (m : CredentialManager) (payload : PaymentRequest)
    (t : StartReadings) :
    (g.beginAuthorize m payload t).2 =
      if Calls.admission g.circuitBreaker t = .openState then
        .error (.unavailable "Circuit breaker is open; gateway requests are blocked")
      else
        match m.getCurrentCredential with
        | none => .error (.auth "No credentials available")
        | some primary => .ok ⟨primary, payload, .primary m.getFallbackCredential, t.send⟩ := by
  simp only [GatewayClient.beginAuthorize, Calls.admission, CircuitBreaker.allowsRequest_eq,
    updateCircuitBreakerMetric_circuitBreaker]
  by_cases hopen : ((g.circuitBreaker.readState t.gauge).2.readState t.allow).1 = .openState
  · simp [hopen]
  · cases hcurrent : m.getCurrentCredential <;> simp [hopen]

theorem tryAuthorize_circuitBreaker (credential : Credential) (startTime : Rat)
    (outcome : PostOutcome) (t : AnswerReadings) :
    (g.tryAuthorize credential startTime outcome t).1.circuitBreaker =
      g.circuitBreaker.afterAnswer outcome t := by
  unfold CircuitBreaker.afterAnswer
  cases outcome with
  | response statusCode json =>
      simp only [GatewayClient.tryAuthorize, PostOutcome.recorded?]
      split
      · rfl
      · split
        · rfl
        · cases json with
          | error exc => rfl
          | ok value =>
              dsimp only
              split <;> rfl
  | timeout error => rfl
  | httpError error => rfl
  | raised exc => rfl

theorem resumeAuthorize_circuitBreaker (p : Pending) (outcome : PostOutcome)
    (t : AnswerReadings) :
    (g.resumeAuthorize p outcome t).1.circuitBreaker = g.circuitBreaker.afterAnswer outcome t := by
  obtain ⟨failures, hclient⟩ := g.resumeAuthorize_client p outcome t
  rw [hclient]
  exact tryAuthorize_circuitBreaker g p.credential p.startTime outcome t

end Client

/-- Everything a step of the calls can do, with the guard under which it does
it. -/
inductive CallSpec (c : Calls) : CallEvent → Calls → List CallObs → Prop
  | refused (id : Nat) (manager : CredentialManager) (payload : PaymentRequest)
      (t : StartReadings) (client : GatewayClient) (error : GatewayError)
      (hclock : (c.clock :: (CallEvent.call id manager payload t).readings).Pairwise (· ≤ ·))
      (hseen : ¬ id ∈ c.seen)
      (hblocked : Calls.admission c.client.circuitBreaker t = .openState ∨
        manager.getCurrentCredential = none)
      (hbreaker : client.circuitBreaker = c.client.circuitBreaker.afterStart t) :
      CallSpec c (.call id manager payload t) ⟨client, c.waiting, id :: c.seen, t.send⟩
        ((Calls.startTrail c.client.circuitBreaker t).map CallObs.breaker ++
          [.finished id (.failed error)])
  | admitted (id : Nat) (manager : CredentialManager) (payload : PaymentRequest)
      (t : StartReadings) (client : GatewayClient) (primary : Credential)
      (hclock : (c.clock :: (CallEvent.call id manager payload t).readings).Pairwise (· ≤ ·))
      (hseen : ¬ id ∈ c.seen)
      (hadmitted : Calls.admission c.client.circuitBreaker t ≠ .openState)
      (hprimary : manager.getCurrentCredential = some primary)
      (hbreaker : client.circuitBreaker = c.client.circuitBreaker.afterStart t) :
      CallSpec c (.call id manager payload t)
        ⟨client, c.waiting ++
          [⟨id, ⟨primary, payload, .primary manager.getFallbackCredential, t.send⟩,
            Calls.admission c.client.circuitBreaker t, t.allow⟩], id :: c.seen, t.send⟩
        ((Calls.startTrail c.client.circuitBreaker t).map CallObs.breaker ++
          [.admitted id (Calls.admission c.client.circuitBreaker t),
            .posted id ⟨primary, payload, .primary manager.getFallbackCredential, t.send⟩
              (Calls.admission c.client.circuitBreaker t)])
  | fallback (call : Call) (outcome : PostOutcome) (t : AnswerReadings) (client : GatewayClient)
      (credential : Credential)
      (hclock : (c.clock :: (CallEvent.answer call.id outcome t).readings).Pairwise (· ≤ ·))
      (hmem : call ∈ c.waiting)
      (hrejected : outcome.attempt = .rejected)
      (hretry : call.pending.retry? = some credential)
      (hbreaker : client.circuitBreaker = c.client.circuitBreaker) :
      CallSpec c (.answer call.id outcome t)
        ⟨client, c.waiting.filter (fun call' => call'.id ≠ call.id) ++
            [{ call with pending := ⟨credential, call.pending.payload, .fallback, t.send⟩ }],
          c.seen, t.send⟩
        [.posted call.id ⟨credential, call.pending.payload, .fallback, t.send⟩
          (c.client.circuitBreaker.readState t.send).1]
  | finished (call : Call) (outcome : PostOutcome) (t : AnswerReadings) (client : GatewayClient)
      (hclock : (c.clock :: (CallEvent.answer call.id outcome t).readings).Pairwise (· ≤ ·))
      (hmem : call ∈ c.waiting)
      (hlast : outcome.attempt = .rejected → call.pending.retry? = none)
      (hbreaker : client.circuitBreaker = c.client.circuitBreaker.afterAnswer outcome t) :
      CallSpec c (.answer call.id outcome t)
        ⟨client, c.waiting.filter (fun call' => call'.id ≠ call.id), c.seen, t.send⟩
        ((Calls.answerTrail c.client.circuitBreaker outcome t).map CallObs.breaker ++
          [.finished call.id (call.pending.progress outcome t)])

/-- An admitted call leaves the breaker as it was admitted. -/
theorem CircuitBreaker.afterStart_state {b : CircuitBreaker} {t : StartReadings}
    (h : Calls.admission b t ≠ .openState) : (b.afterStart t).state = Calls.admission b t := by
  unfold CircuitBreaker.afterStart
  rw [if_neg h, CircuitBreaker.readState_state]
  rfl

theorem CircuitBreaker.readState_of_ne_open {b : CircuitBreaker} (h : b.state ≠ .openState)
    (now : Rat) : b.readState now = (b.state, b) := by
  unfold readState
  rw [if_neg (fun hopen => h hopen.1)]

/-- It finds the breaker so at the start of its POST. -/
theorem readState_of_admitted {b : CircuitBreaker} {t : StartReadings}
    (h : Calls.admission b t ≠ .openState) (now : Rat) :
    ((b.afterStart t).readState now).1 = Calls.admission b t := by
  have hstate := CircuitBreaker.afterStart_state h
  have hne : (b.afterStart t).state ≠ .openState := by
    rw [hstate]
    exact h
  rw [CircuitBreaker.readState_of_ne_open hne, hstate]

private theorem step_call_spec {c c' : Calls} {id : Nat} {manager : CredentialManager}
    {payload : PaymentRequest} {t : StartReadings} {obs : List CallObs}
    (h : c.step (.call id manager payload t) = some (c', obs)) :
    CallSpec c (.call id manager payload t) c' obs := by
  unfold Calls.step at h
  split at h
  · cases h
  · rename_i hclock
    rw [not_not] at hclock
    dsimp only at h
    split at h
    · cases h
    · rename_i hseen
      have hbreaker := beginAuthorize_circuitBreaker c.client manager payload t
      have hresult := beginAuthorize_result c.client manager payload t
      generalize c.client.beginAuthorize manager payload t = started at h hbreaker hresult
      obtain ⟨client, result⟩ := started
      dsimp only at hbreaker hresult
      subst hresult
      by_cases hopen : Calls.admission c.client.circuitBreaker t = .openState
      · rw [if_pos hopen] at h
        simp only [Option.some.injEq, Prod.mk.injEq] at h
        obtain ⟨rfl, rfl⟩ := h
        exact .refused id manager payload t client _ hclock hseen (Or.inl hopen) hbreaker
      · rw [if_neg hopen] at h
        cases hcurrent : manager.getCurrentCredential with
        | none =>
            simp only [hcurrent, Option.some.injEq, Prod.mk.injEq] at h
            obtain ⟨rfl, rfl⟩ := h
            exact .refused id manager payload t client _ hclock hseen (Or.inr hcurrent) hbreaker
        | some primary =>
            simp only [hcurrent, Option.some.injEq, Prod.mk.injEq] at h
            obtain ⟨rfl, rfl⟩ := h
            simp only [Calls.postedObs, hbreaker, readState_of_admitted hopen]
            exact .admitted id manager payload t client primary hclock hseen hopen hcurrent hbreaker

private theorem step_answer_call_spec {c c' : Calls} {id : Nat} {outcome : PostOutcome}
    {t : AnswerReadings} {obs : List CallObs}
    (h : c.step (.answer id outcome t) = some (c', obs)) :
    CallSpec c (.answer id outcome t) c' obs := by
  unfold Calls.step at h
  split at h
  · cases h
  · rename_i hclock
    rw [not_not] at hclock
    dsimp only at h
    split at h
    · cases h
    · rename_i call hfind
      have hid : call.id = id := by simpa using List.find?_some hfind
      have hmem : call ∈ c.waiting := List.mem_of_find?_eq_some hfind
      subst hid
      have hbreaker := resumeAuthorize_circuitBreaker c.client call.pending outcome t
      have hprogress := c.client.resumeAuthorize_progress call.pending outcome t
      generalize c.client.resumeAuthorize call.pending outcome t = resumed
        at h hbreaker hprogress
      obtain ⟨client, progress, outputs⟩ := resumed
      dsimp only at hbreaker hprogress
      subst hprogress
      by_cases hrejected : outcome.attempt = .rejected
      · have hsame : client.circuitBreaker = c.client.circuitBreaker := by
          rw [hbreaker, CircuitBreaker.afterAnswer, PostOutcome.recorded?_of_rejected t hrejected]
        have htrail : Calls.answerTrail c.client.circuitBreaker outcome t = [] := by
          rw [Calls.answerTrail, PostOutcome.recorded?_of_rejected t hrejected]
        have hnext := call.pending.progress_rejected t hrejected
        cases hretry : call.pending.retry? with
        | some credential =>
            rw [hretry] at hnext
            simp only [hnext, htrail, List.map_nil, List.nil_append, Option.some.injEq,
              Prod.mk.injEq, Calls.postedObs, hsame] at h
            obtain ⟨rfl, rfl⟩ := h
            exact .fallback call outcome t client credential hclock hmem hrejected hretry hsame
        | none =>
            rw [hretry] at hnext
            have hspec := CallSpec.finished call outcome t client hclock hmem (fun _ => hretry)
              hbreaker
            rw [hnext] at hspec h
            simp only [Option.some.injEq, Prod.mk.injEq] at h
            obtain ⟨rfl, rfl⟩ := h
            exact hspec
      · have hnot := call.pending.progress_not_posting t hrejected
        have hspec := CallSpec.finished call outcome t client hclock hmem
          (fun h => absurd h hrejected) hbreaker
        generalize call.pending.progress outcome t = progress at h hnot hspec
        cases progress with
        | posting pending => exact absurd rfl (hnot pending)
        | returned body =>
            simp only [Option.some.injEq, Prod.mk.injEq] at h
            obtain ⟨rfl, rfl⟩ := h
            exact hspec
        | failed error =>
            simp only [Option.some.injEq, Prod.mk.injEq] at h
            obtain ⟨rfl, rfl⟩ := h
            exact hspec
        | escaped exc =>
            simp only [Option.some.injEq, Prod.mk.injEq] at h
            obtain ⟨rfl, rfl⟩ := h
            exact hspec

theorem Calls.step_spec {c c' : Calls} {e : CallEvent} {obs : List CallObs}
    (h : c.step e = some (c', obs)) : CallSpec c e c' obs := by
  cases e with
  | call id manager payload t => exact step_call_spec h
  | answer id outcome t => exact step_answer_call_spec h

/-! ## Names and clock -/

/-- Suspended calls have different names, all of them given out, and were
admitted in the past; the breaker is sound. -/
structure Calls.WellFormed (c : Calls) : Prop where
  distinct : (c.waiting.map Call.id).Nodup
  named : ∀ call ∈ c.waiting, call.id ∈ c.seen
  past : ∀ call ∈ c.waiting, call.admittedAt ≤ c.clock
  sound : c.client.circuitBreaker.Sound c.clock

theorem Calls.start_wellFormed (baseUrl : String) (now : Rat) :
    (Calls.start baseUrl now).WellFormed where
  distinct := List.nodup_nil
  named := fun _ hin => absurd hin List.not_mem_nil
  past := fun _ hin => absurd hin List.not_mem_nil
  sound := CircuitBreaker.new_sound (by decide) 30 now

/-- A suspended call is determined by its name. -/
theorem Calls.WellFormed.eq_of_id {c : Calls} (hc : c.WellFormed) {call call' : Call}
    (hmem : call ∈ c.waiting) (hmem' : call' ∈ c.waiting) (hid : call.id = call'.id) :
    call = call' :=
  List.inj_on_of_nodup_map hc.distinct hmem hmem' hid

/-- The readings of a start, in order. -/
theorem CallEvent.call_ordered {now : Rat} {id : Nat} {manager : CredentialManager}
    {payload : PaymentRequest} {t : StartReadings}
    (h : (now :: (CallEvent.call id manager payload t).readings).Pairwise (· ≤ ·)) :
    now ≤ t.gauge ∧ t.gauge ≤ t.allow ∧ t.allow ≤ t.refuse ∧ t.refuse ≤ t.send := by
  simp only [CallEvent.readings, List.pairwise_cons, List.forall_mem_cons] at h
  exact ⟨h.1.1, h.2.1.1, h.2.2.1.1, h.2.2.2.1.1⟩

/-- The readings of a completion, in order. -/
theorem CallEvent.answer_ordered {now : Rat} {id : Nat} {outcome : PostOutcome}
    {t : AnswerReadings}
    (h : (now :: (CallEvent.answer id outcome t).readings).Pairwise (· ≤ ·)) :
    now ≤ t.done ∧ t.done ≤ t.failed ∧ t.failed ≤ t.gauge ∧ t.gauge ≤ t.send := by
  simp only [CallEvent.readings, List.pairwise_cons, List.forall_mem_cons] at h
  exact ⟨h.1.1, h.2.1.1, h.2.2.1.1, h.2.2.2.1.1⟩

theorem CircuitBreaker.Sound.afterStart {b : CircuitBreaker} {now : Rat} {t : StartReadings}
    (h : b.Sound now) (hgauge : now ≤ t.gauge) (hallow : t.gauge ≤ t.allow)
    (hrefuse : t.allow ≤ t.refuse) (hsend : t.refuse ≤ t.send) :
    (b.afterStart t).Sound t.send := by
  have hallowed : ((b.readState t.gauge).2.readState t.allow).2.Sound t.allow :=
    ((h.mono hgauge).readState.mono hallow).readState
  unfold CircuitBreaker.afterStart
  dsimp only
  split
  · exact (hallowed.mono hrefuse).readState.mono hsend
  · exact hallowed.mono (hrefuse.trans hsend)

/-- What the completion of a POST records leaves the breaker sound. -/
theorem CircuitBreaker.Sound.record {b : CircuitBreaker} {outcome : PostOutcome}
    {t : AnswerReadings} {r : Recorded} (h : b.Sound t.failed)
    (hrecorded : outcome.recorded? t = some r) : (b.record r).Sound t.failed := by
  cases r with
  | success => exact h.recordSuccess
  | failure now =>
      rw [PostOutcome.recorded?_failure hrecorded]
      exact h.recordFailure

theorem CircuitBreaker.Sound.afterAnswer {b : CircuitBreaker} {now : Rat} {t : AnswerReadings}
    (outcome : PostOutcome) (h : b.Sound now) (hdone : now ≤ t.done) (hfailed : t.done ≤ t.failed)
    (hgauge : t.failed ≤ t.gauge) (hsend : t.gauge ≤ t.send) :
    (b.afterAnswer outcome t).Sound t.send := by
  have hnow : b.Sound t.failed := h.mono (hdone.trans hfailed)
  unfold CircuitBreaker.afterAnswer
  cases hrecorded : outcome.recorded? t with
  | none => exact hnow.mono (hgauge.trans hsend)
  | some r => exact ((hnow.record hrecorded).mono hgauge).readState.mono hsend

private theorem nodup_filter_id {waiting : List Call} (h : (waiting.map Call.id).Nodup)
    (id : Nat) : ((waiting.filter (fun call => call.id ≠ id)).map Call.id).Nodup :=
  h.sublist (List.Sublist.map Call.id List.filter_sublist)

/-- The calls that stay suspended while another one goes on. -/
theorem mem_filter_id {waiting : List Call} {id : Nat} {call : Call}
    (hmem : call ∈ waiting.filter (fun call' => call'.id ≠ id)) :
    call ∈ waiting ∧ call.id ≠ id := by
  have hboth := List.mem_filter.mp hmem
  exact ⟨hboth.1, of_decide_eq_true hboth.2⟩

private theorem nodup_append_call {waiting : List Call} {call : Call}
    (h : (waiting.map Call.id).Nodup) (hnew : ∀ call' ∈ waiting, call'.id ≠ call.id) :
    ((waiting ++ [call]).map Call.id).Nodup := by
  rw [List.map_append, List.map_cons, List.map_nil, ← List.concat_eq_append]
  apply h.concat
  intro hin
  obtain ⟨call', hmem, hid⟩ := List.mem_map.mp hin
  exact hnew call' hmem hid

theorem Calls.step_wellFormed {c c' : Calls} {e : CallEvent} {obs : List CallObs}
    (hc : c.WellFormed) (hstep : c.step e = some (c', obs)) : c'.WellFormed := by
  cases Calls.step_spec hstep with
  | refused id manager payload t client error hclock hseen hblocked hbreaker =>
      obtain ⟨hgauge, hallow, hrefuse, hsend⟩ := CallEvent.call_ordered hclock
      have hlater : c.clock ≤ t.send := hgauge.trans (hallow.trans (hrefuse.trans hsend))
      refine ⟨hc.distinct, ?_, ?_, ?_⟩
      · exact fun call hin => List.mem_cons_of_mem id (hc.named call hin)
      · exact fun call hin => (hc.past call hin).trans hlater
      · show client.circuitBreaker.Sound t.send
        rw [hbreaker]
        exact hc.sound.afterStart hgauge hallow hrefuse hsend
  | admitted id manager payload t client primary hclock hseen hadmitted hprimary hbreaker =>
      obtain ⟨hgauge, hallow, hrefuse, hsend⟩ := CallEvent.call_ordered hclock
      have hlater : c.clock ≤ t.send := hgauge.trans (hallow.trans (hrefuse.trans hsend))
      refine ⟨?_, ?_, ?_, ?_⟩
      · apply nodup_append_call hc.distinct
        intro call hin hid
        have hsame : call.id = id := hid
        apply hseen
        rw [← hsame]
        exact hc.named call hin
      · intro call hin
        rcases List.mem_append.mp hin with hold | hnew
        · exact List.mem_cons_of_mem id (hc.named call hold)
        · rw [List.mem_singleton.mp hnew]
          exact List.mem_cons_self
      · intro call hin
        rcases List.mem_append.mp hin with hold | hnew
        · exact (hc.past call hold).trans hlater
        · rw [List.mem_singleton.mp hnew]
          exact hrefuse.trans hsend
      · show client.circuitBreaker.Sound t.send
        rw [hbreaker]
        exact hc.sound.afterStart hgauge hallow hrefuse hsend
  | fallback call outcome t client credential hclock hmem hrejected hretry hbreaker =>
      obtain ⟨hdone, hfailed, hgauge, hsend⟩ := CallEvent.answer_ordered hclock
      have hlater : c.clock ≤ t.send := hdone.trans (hfailed.trans (hgauge.trans hsend))
      refine ⟨?_, ?_, ?_, ?_⟩
      · apply nodup_append_call (nodup_filter_id hc.distinct call.id)
        exact fun call' hin => (mem_filter_id hin).2
      · intro call' hin
        rcases List.mem_append.mp hin with hold | hnew
        · exact hc.named call' (mem_filter_id hold).1
        · rw [List.mem_singleton.mp hnew]
          exact hc.named call hmem
      · intro call' hin
        rcases List.mem_append.mp hin with hold | hnew
        · exact (hc.past call' (mem_filter_id hold).1).trans hlater
        · rw [List.mem_singleton.mp hnew]
          exact (hc.past call hmem).trans hlater
      · show client.circuitBreaker.Sound t.send
        rw [hbreaker]
        exact hc.sound.mono hlater
  | finished call outcome t client hclock hmem hlast hbreaker =>
      obtain ⟨hdone, hfailed, hgauge, hsend⟩ := CallEvent.answer_ordered hclock
      have hlater : c.clock ≤ t.send := hdone.trans (hfailed.trans (hgauge.trans hsend))
      refine ⟨nodup_filter_id hc.distinct call.id, ?_, ?_, ?_⟩
      · exact fun call' hin => hc.named call' (mem_filter_id hin).1
      · exact fun call' hin => (hc.past call' (mem_filter_id hin).1).trans hlater
      · show client.circuitBreaker.Sound t.send
        rw [hbreaker]
        exact hc.sound.afterAnswer outcome hdone hfailed hgauge hsend

end PaymentConnector
