import PaymentConnector.Calls
import PaymentConnector.Expiry
import PaymentConnector.Library.Clock
import PaymentConnector.Responses

/-!
# The calls behind the service

What is proved of the gateway client and its breaker is proved of the machine of concurrent
calls: any number of `authorize_payment` coroutines on one client.  The service is more than
that.  Its calls are started behind the middlewares and the checks of the endpoint, each with
the manager of its moment, and they end in the idempotency cache and the responses.  On a clock
that is not set back all of it is, seen from the client, a run of the machine of calls.

## Main results

* `Process.step_calls` — a step of the process is the step of the calls that it asks for.
* `Service.refinesCalls` — a run of the service has the client, the suspended POSTs and the
  POSTs of the run of the calls that its requests and answers ask for.
-/

namespace PaymentConnector

open Library Library.Machine

/-! ## The clock -/

/-- The readings of `time.time()` in a stretch, in code order; those that its branch leaves out
mean nothing. -/
def ServiceEvent.readings : ServiceEvent → List Rat
  | .load _ t => [t.loaded, t.key, t.age]
  | .receive _ _ _ now | .reach _ _ now | .respond _ now => [now]
  | .limit _ created now => [created, now]
  | .handle _ _ t => [t.check, t.gauge, t.allow, t.refuse, t.send]
  | .answer _ _ _ t => [t.done, t.failed, t.gauge, t.send, t.stamp]

/-! ## What is seen of a call -/

/-- A POST, by the name of its request. -/
def Obs.post? : Obs → Option (Nat × Pending)
  | .posted rid _ pending => some (rid, pending)
  | _ => none

def CallObs.post? : CallObs → Option (Nat × Pending)
  | .posted id pending _ => some (id, pending)
  | _ => none

def ServiceObs.post? : ServiceObs → Option (Nat × Pending)
  | .process obs => obs.post?
  | _ => none

/-- What an advance posts. -/
def Advance.post? (rid : Nat) : Advance → List (Nat × Pending)
  | .posting pending => [(rid, pending)]
  | .replied _ => []

private theorem filterMap_post?_advanceObs (rid : Nat) (request : AuthorizeRequest)
    (advance : Advance) :
    (advanceObs rid request advance).filterMap Obs.post? = advance.post? rid := by
  cases advance with
  | posting pending => rfl
  | replied reply => cases reply <;> rfl

private theorem filterMap_post?_outputs (outputs : List Output) (obs : List Obs) :
    (outputs.map Obs.output ++ obs).filterMap Obs.post? = obs.filterMap Obs.post? := by
  rw [List.filterMap_append, filterMap_map_eq_nil (fun _ => rfl), List.nil_append]

private theorem filterMap_post?_trail (trail : List CircuitState) (obs : List CallObs) :
    (trail.map CallObs.breaker ++ obs).filterMap CallObs.post? = obs.filterMap CallObs.post? := by
  have hnil : (trail.map CallObs.breaker).filterMap CallObs.post? = [] := by
    rw [List.filterMap_map]
    exact List.filterMap_none trail
  rw [List.filterMap_append, hnil, List.nil_append]

/-- A call that does not post again ends the handler. -/
private theorem advanceOf_replied (payment : PaymentRequest) (uuid : String) (now : Rat)
    {progress : Progress} (h : ∀ pending, progress ≠ .posting pending) :
    ∃ reply, advanceOf payment uuid now progress = .replied reply := by
  cases progress with
  | posting pending => exact absurd rfl (h pending)
  | failed error => cases error <;> exact ⟨_, rfl⟩
  | escaped exc => exact ⟨_, rfl⟩
  | returned body =>
      simp only [advanceOf]
      cases buildResponse payment body uuid now with
      | error exc => exact ⟨_, rfl⟩
      | ok response => exact ⟨_, rfl⟩

/-! ## What a stretch asks of the client -/

/-- A request that passes the API key and credential checks and misses the cache starts a call
with its payment and the manager of the moment; the completion of a POST resumes its call. -/
def Process.callEvent? (p : Process) : Event → Option CallEvent
  | .load _ _ => none
  | .request rid request t =>
      (p.connector.callsWith? request t).map fun manager => .call rid manager request.payment t
  | .answer rid outcome _ t => some (.answer rid outcome t)

/-- So does the route of a payment, and the completion of its POSTs. -/
def Service.callEvent? (s : Service) : ServiceEvent → Option CallEvent
  | .handle rid _ t =>
      match s.call? rid with
      | none => none
      | some call =>
          match call.request.route with
          | .authorize payment =>
              s.process.callEvent? (.request rid (authorizeRequest call payment) t)
          | _ => none
  | .answer rid outcome uuid t => s.process.callEvent? (.answer rid outcome uuid t)
  | _ => none

/-! ## The simulation -/

/-- The process with the client and the suspended POSTs of the calls. -/
structure Process.Calling (p : Process) (c : Calls) : Prop where
  client : p.connector.gatewayClient = some c.client
  waiting : p.waiting.map (fun h => (h.rid, h.pending)) =
    c.waiting.map (fun call => (call.id, call.pending))
  seen : ∀ id ∈ c.seen, id ∈ p.seen

namespace Process

theorem start_calling (settings : Settings) (manager : CredentialManager) (now : Rat) :
    (start settings manager).Calling (.start settings.vaultgatewayUrl now) where
  client := rfl
  waiting := rfl
  seen := fun _ hin => absurd hin List.not_mem_nil

variable {p p' : Process} {c : Calls}

/-- The two agree on the call that awaits an answer. -/
private theorem Calling.find? (h : p.Calling c) {rid : Nat} {handler : Handler}
    (hfind : p.waiting.find? (fun h => h.rid = rid) = some handler) :
    ∃ call, c.waiting.find? (fun call => call.id = rid) = some call ∧
      call.pending = handler.pending := by
  have hfound := congrArg (List.find? fun x : Nat × Pending => x.1 = rid) h.waiting
  rw [List.find?_map, List.find?_map] at hfound
  have hleft : (p.waiting.find? fun h => h.rid = rid).map
      (fun h => (h.rid, h.pending)) = (c.waiting.find? fun call => call.id = rid).map
        (fun call => (call.id, call.pending)) := hfound
  rw [hfind] at hleft
  cases hcall : c.waiting.find? (fun call => call.id = rid) with
  | none => rw [hcall] at hleft; cases hleft
  | some call =>
      rw [hcall, Option.map_some, Option.map_some, Option.some.injEq, Prod.mk.injEq] at hleft
      exact ⟨call, rfl, hleft.2.symm⟩

/-- The calls that stay suspended while another one goes on. -/
private theorem Calling.others (h : p.Calling c) (rid : Nat) :
    (p.waiting.filter fun h => h.rid ≠ rid).map (fun h => (h.rid, h.pending)) =
      (c.waiting.filter fun call => call.id ≠ rid).map
        (fun call => (call.id, call.pending)) := by
  have hkept := congrArg (List.filter fun x : Nat × Pending => x.1 ≠ rid) h.waiting
  rw [List.filter_map, List.filter_map] at hkept
  exact hkept

/-- A step that neither starts nor resumes a call. -/
private theorem Calling.of_client (h : p.Calling c)
    (hclient : p'.connector.gatewayClient = p.connector.gatewayClient)
    (hwaiting : p'.waiting = p.waiting) (hseen : ∀ id ∈ p.seen, id ∈ p'.seen) :
    p'.Calling c where
  client := hclient.trans h.client
  waiting := by rw [hwaiting]; exact h.waiting
  seen := fun id hin => hseen id (h.seen id hin)

/-! ### The steps of the calls -/

section Steps

variable {rid : Nat} {manager : CredentialManager} {payload : PaymentRequest}
  {outcome : PostOutcome}

private theorem step_refuses {t : StartReadings} {client' : GatewayClient} {error : GatewayError}
    (hclock : (c.clock :: (CallEvent.call rid manager payload t).readings).Pairwise (· ≤ ·))
    (hfresh : ¬ rid ∈ c.seen)
    (hbegin : c.client.beginAuthorize manager payload t = (client', .error error)) :
    c.step (.call rid manager payload t) = some
      (⟨client', c.waiting, rid :: c.seen, t.send⟩,
        (Calls.startTrail c.client.circuitBreaker t).map CallObs.breaker ++
          [.finished rid (.failed error)]) := by
  rw [Calls.step, if_neg (not_not.mpr hclock)]
  simp only [if_neg hfresh, hbegin]

private theorem step_admits {t : StartReadings} {client' : GatewayClient} {pending : Pending}
    (hclock : (c.clock :: (CallEvent.call rid manager payload t).readings).Pairwise (· ≤ ·))
    (hfresh : ¬ rid ∈ c.seen)
    (hbegin : c.client.beginAuthorize manager payload t = (client', .ok pending)) :
    c.step (.call rid manager payload t) = some
      (⟨client',
          c.waiting ++ [⟨rid, pending, Calls.admission c.client.circuitBreaker t, t.allow⟩],
          rid :: c.seen, t.send⟩,
        (Calls.startTrail c.client.circuitBreaker t).map CallObs.breaker ++
          [.admitted rid (Calls.admission c.client.circuitBreaker t),
            Calls.postedObs rid client' pending]) := by
  rw [Calls.step, if_neg (not_not.mpr hclock)]
  simp only [if_neg hfresh, hbegin]

variable {t : AnswerReadings} {call : Call}
  (hclock : (c.clock :: (CallEvent.answer rid outcome t).readings).Pairwise (· ≤ ·))
  (hcall : c.waiting.find? (fun call => call.id = rid) = some call)
include hclock hcall

private theorem step_retries {pending : Pending}
    (hposting : (c.client.resumeAuthorize call.pending outcome t).2.1 = .posting pending) :
    c.step (.answer rid outcome t) = some
      (⟨(c.client.resumeAuthorize call.pending outcome t).1,
          c.waiting.filter (fun call' => call'.id ≠ rid) ++ [{ call with pending := pending }],
          c.seen, t.send⟩,
        (Calls.answerTrail c.client.circuitBreaker outcome t).map CallObs.breaker ++
          [Calls.postedObs rid (c.client.resumeAuthorize call.pending outcome t).1 pending]) := by
  rw [Calls.step, if_neg (not_not.mpr hclock)]
  simp only [hcall]
  generalize c.client.resumeAuthorize call.pending outcome t = r at hposting ⊢
  obtain ⟨client', progress, outputs⟩ := r
  dsimp only at hposting
  subst hposting
  rfl

private theorem step_finishes
    (hlast : ∀ pending, (c.client.resumeAuthorize call.pending outcome t).2.1 ≠ .posting pending) :
    c.step (.answer rid outcome t) = some
      (⟨(c.client.resumeAuthorize call.pending outcome t).1,
          c.waiting.filter (fun call' => call'.id ≠ rid), c.seen, t.send⟩,
        (Calls.answerTrail c.client.circuitBreaker outcome t).map CallObs.breaker ++
          [.finished rid (c.client.resumeAuthorize call.pending outcome t).2.1]) := by
  rw [Calls.step, if_neg (not_not.mpr hclock)]
  simp only [hcall]

end Steps

/-! ### The steps of the process -/

/-- The arrival of a request starts the call that it asks for. -/
private theorem request_calls (h : p.Calling c) {rid : Nat} {request : AuthorizeRequest}
    {t : StartReadings} {obs : List Obs}
    (hclock : ∀ manager payload,
      (c.clock :: (CallEvent.call rid manager payload t).readings).Pairwise (· ≤ ·))
    (hstep : p.step (.request rid request t) = some (p', obs)) :
    p.callEvent? (.request rid request t) = none ∧ p'.Calling c ∧
        obs.filterMap Obs.post? = [] ∨
      ∃ e c' obs', p.callEvent? (.request rid request t) = some e ∧
        c.step e = some (c', obs') ∧ p'.Calling c' ∧ c'.clock = t.send ∧
        obs.filterMap Obs.post? = obs'.filterMap CallObs.post? := by
  simp only [step] at hstep
  split at hstep
  · cases hstep
  · rename_i hseen
    have hasks := beginRequest_asks h.client request t
    have hasked : p.callEvent? (.request rid request t) =
        (p.connector.callsWith? request t).map
          (fun manager => .call rid manager request.payment t) := rfl
    generalize p.connector.beginRequest request t = r at hasks hstep
    obtain ⟨connector, advance, outputs⟩ := r
    simp only [Option.some.injEq, Prod.mk.injEq] at hstep
    obtain ⟨rfl, rfl⟩ := hstep
    dsimp only at hasks
    rw [filterMap_post?_outputs, filterMap_post?_advanceObs]
    have hfresh : ¬ rid ∈ c.seen := fun hin => hseen (h.seen rid hin)
    have hnamed : ∀ id ∈ rid :: c.seen, id ∈ rid :: p.seen := by
      intro id hin
      rcases List.mem_cons.mp hin with rfl | hin
      · exact List.mem_cons_self
      · exact List.mem_cons_of_mem _ (h.seen id hin)
    generalize hclient : connector.gatewayClient = client at hasks
    cases hasks with
    | nothing reply hnone =>
        refine Or.inl ⟨?_, h.of_client (hclient.trans h.client.symm) (List.append_nil _)
          (fun id hin => List.mem_cons_of_mem rid hin), rfl⟩
        rw [hasked, hnone]
        rfl
    | refused manager client' error reply hmanager hbegin =>
        refine Or.inr ⟨.call rid manager request.payment t, _, _, by rw [hasked, hmanager]; rfl,
          step_refuses (hclock manager _) hfresh hbegin, ⟨hclient, ?_, hnamed⟩, rfl, ?_⟩
        · show (p.waiting ++ []).map _ = _
          rw [List.append_nil]
          exact h.waiting
        · rw [filterMap_post?_trail]
          rfl
    | call manager client' pending hmanager hbegin =>
        refine Or.inr ⟨.call rid manager request.payment t, _, _, by rw [hasked, hmanager]; rfl,
          step_admits (hclock manager _) hfresh hbegin, ⟨hclient, ?_, hnamed⟩, rfl, ?_⟩
        · show (p.waiting ++ [Handler.mk rid request pending]).map _ = _
          rw [List.map_append, List.map_append, h.waiting]
          rfl
        · rw [filterMap_post?_trail]
          rfl

/-- The completion of a POST resumes its call. -/
private theorem answer_calls (h : p.Calling c) {rid : Nat} {outcome : PostOutcome}
    {uuid : String} {t : AnswerReadings} {obs : List Obs}
    (hclock : (c.clock :: (CallEvent.answer rid outcome t).readings).Pairwise (· ≤ ·))
    (hstep : p.step (.answer rid outcome uuid t) = some (p', obs)) :
    ∃ c' obs', c.step (.answer rid outcome t) = some (c', obs') ∧ p'.Calling c' ∧
      c'.clock = t.send ∧ obs.filterMap Obs.post? = obs'.filterMap CallObs.post? := by
  simp only [step] at hstep
  split at hstep
  · rename_i client handler hclient hfind
    rw [h.client, Option.some.injEq] at hclient
    subst hclient
    obtain ⟨call, hcall, hpending⟩ := h.find? hfind
    have hclient' := (p.connector.resumeRequest_classes c.client handler.request.payment
      handler.pending outcome uuid t).2
    obtain ⟨_, _, _, hspec⟩ := resumeRequest_spec p.connector c.client handler.request.payment
      handler.pending outcome uuid t
    have hadvance := congrArg (fun r => r.2.1) hspec
    dsimp only at hadvance
    rw [← c.client.resumeAuthorize_progress handler.pending outcome t, ← hpending] at hadvance
    rw [← hpending] at hclient' hstep
    generalize p.connector.resumeRequest c.client handler.request.payment call.pending outcome
      uuid t = r at hclient' hadvance hstep
    obtain ⟨connector, advance, outputs, evicted⟩ := r
    simp only [Option.some.injEq, Prod.mk.injEq] at hstep
    obtain ⟨rfl, rfl⟩ := hstep
    dsimp only at hclient' hadvance
    have hposts : (outputs.map Obs.output ++ .answered rid handler.request.key outcome ::
        (evicted.map Obs.evicted ++ advanceObs rid handler.request advance)).filterMap
          Obs.post? = advance.post? rid := by
      rw [filterMap_post?_outputs, List.filterMap_cons_none rfl, List.filterMap_append,
        filterMap_map_eq_nil (fun _ => rfl), List.nil_append, filterMap_post?_advanceObs]
    rw [hposts]
    by_cases hlast : ∀ pending,
        (c.client.resumeAuthorize call.pending outcome t).2.1 ≠ .posting pending
    · obtain ⟨reply, hreply⟩ := advanceOf_replied handler.request.payment uuid t.stamp hlast
      rw [hreply] at hadvance
      subst hadvance
      refine ⟨_, _, step_finishes hclock hcall hlast,
        ⟨hclient', ?_, h.seen⟩, rfl, ?_⟩
      · show (_ ++ []).map _ = _
        rw [List.append_nil]
        exact h.others rid
      · rw [filterMap_post?_trail]
        rfl
    · obtain ⟨pending, hposting⟩ := not_forall_not.mp hlast
      rw [hposting] at hadvance
      subst hadvance
      have hid : call.id = rid := by simpa using List.find?_some hcall
      refine ⟨_, _, step_retries hclock hcall hposting,
        ⟨hclient', ?_, h.seen⟩, rfl, ?_⟩
      · show (_ ++ [Handler.mk rid handler.request pending]).map _ = _
        rw [List.map_append, List.map_append, h.others rid]
        show _ ++ [(rid, pending)] = _ ++ [(call.id, pending)]
        rw [hid]
      · rw [filterMap_post?_trail]
        rfl
  · cases hstep

/-- A step of the process whose readings come after those of the calls is the step of the calls
that it asks for, with the same POSTs. -/
theorem step_calls {e : Event} {obs : List Obs} (h : p.Calling c)
    (hclock : (c.clock :: e.readings).Pairwise (· ≤ ·)) (hstep : p.step e = some (p', obs)) :
    p.callEvent? e = none ∧ p'.Calling c ∧ obs.filterMap Obs.post? = [] ∨
      ∃ e' c' obs', p.callEvent? e = some e' ∧ c.step e' = some (c', obs') ∧ p'.Calling c' ∧
        c'.clock ∈ c.clock :: e.readings ∧
          obs.filterMap Obs.post? = obs'.filterMap CallObs.post? := by
  cases e with
  | load read t =>
      cases step_spec hstep with
      | load read t manager manager' result outputs hmanager hload =>
          refine Or.inl ⟨rfl, h.of_client rfl rfl (fun _ hin => hin), ?_⟩
          rw [filterMap_post?_outputs]
          rfl
  | request rid request t =>
      have hordered : ∀ manager payload,
          (c.clock :: (CallEvent.call rid manager payload t).readings).Pairwise (· ≤ ·) :=
        fun _ _ => hclock.sublist (.cons_cons _ (.cons _ (.refl _)))
      rcases request_calls h hordered hstep with
        hsilent | ⟨e', c', obs', hasked, hs, hcalling, hsend, hposts⟩
      · exact Or.inl hsilent
      · refine Or.inr ⟨e', c', obs', hasked, hs, hcalling, ?_, hposts⟩
        rw [hsend]
        simp [Event.readings]
  | answer rid outcome uuid t =>
      have hordered : (c.clock :: (CallEvent.answer rid outcome t).readings).Pairwise (· ≤ ·) := by
        refine hclock.sublist (.cons_cons _ ?_)
        exact List.sublist_append_left [t.done, t.failed, t.gauge, t.send] [t.stamp]
      obtain ⟨c', obs', hs, hcalling, hsend, hposts⟩ := answer_calls h hordered hstep
      refine Or.inr ⟨.answer rid outcome t, c', obs', rfl, hs, hcalling, ?_, hposts⟩
      rw [hsend]
      simp [Event.readings]

end Process

/-! ## The service -/

namespace Service

variable {s s' : Service} {c : Calls} {e : ServiceEvent} {obs : List ServiceObs}

theorem filterMap_post?_process (obs : List Obs) :
    (obs.map ServiceObs.process).filterMap ServiceObs.post? = obs.filterMap Obs.post? := by
  rw [List.filterMap_map]
  rfl

private theorem filterMap_post?_output (outputs : List Output) :
    (outputs.map ServiceObs.output).filterMap ServiceObs.post? = [] := by
  rw [List.filterMap_map]
  exact List.filterMap_none outputs

/-- The process has the client and the suspended POSTs of the calls, whose last reading is over. -/
def CallingAt (now : Rat) (s : Service) (c : Calls) : Prop :=
  s.process.Calling c ∧ c.clock ≤ now

/-- Most stretches of the service are none of the calls. -/
private theorem CallingAt.silent {now now' : Rat} (h : CallingAt now s c) (hle : now ≤ now')
    (hprocess : s'.process = s.process) : CallingAt now' s' c := by
  rw [CallingAt, hprocess]
  exact ⟨h.1, le_trans h.2 hle⟩

/-- A stretch of the process. -/
private theorem CallingAt.process {now now' : Rat} {p' : Process} {e : Event} {obs : List Obs}
    (h : CallingAt now s c) (hclock : (now :: e.readings).Pairwise (· ≤ ·))
    (hbefore : ∀ r ∈ now :: e.readings, r ≤ now') (hstep : s.process.step e = some (p', obs))
    (hprocess : s'.process = p') :
    s.process.callEvent? e = none ∧ CallingAt now' s' c ∧ obs.filterMap Obs.post? = [] ∨
      ∃ e' c' obs', s.process.callEvent? e = some e' ∧ c.step e' = some (c', obs') ∧
        CallingAt now' s' c' ∧ obs.filterMap Obs.post? = obs'.filterMap CallObs.post? := by
  have hearlier := h.2
  have hfirst := hbefore now List.mem_cons_self
  have hordered : (c.clock :: e.readings).Pairwise (· ≤ ·) := by
    rw [List.pairwise_cons] at hclock ⊢
    exact ⟨fun r hr => le_trans hearlier (hclock.1 r hr), hclock.2⟩
  subst hprocess
  rcases Process.step_calls h.1 hordered hstep with
    ⟨hnone, hcalling, hnil⟩ | ⟨e', c', obs', hasked, hs, hcalling, hmem, hposts⟩
  · exact Or.inl ⟨hnone, ⟨hcalling, le_trans hearlier hfirst⟩, hnil⟩
  · refine Or.inr ⟨e', c', obs', hasked, hs, ⟨hcalling, ?_⟩, hposts⟩
    rcases List.mem_cons.mp hmem with hsame | hlater
    · rw [hsame]
      exact le_trans hearlier hfirst
    · exact hbefore _ (List.mem_cons_of_mem _ hlater)

/-- A route other than that of the payments asks nothing. -/
private theorem callEvent?_handle {rid : Nat} {vault : VaultAttempt} {t : StartReadings}
    {call : HttpCall} (hcall : s.call? rid = some call)
    (hroute : ∀ payment, call.request.route ≠ .authorize payment) :
    s.callEvent? (.handle rid vault t) = none := by
  unfold callEvent?
  simp only [hcall]

/-- A stretch of the service is the step of the calls that it asks for. -/
theorem step_callingAt {now now' : Rat} (h : CallingAt now s c)
    (hclock : (now :: e.readings).Pairwise (· ≤ ·)) (hbefore : ∀ r ∈ now :: e.readings, r ≤ now')
    (hstep : s.step e = some (s', obs)) :
    s.callEvent? e = none ∧ CallingAt now' s' c ∧ obs.filterMap ServiceObs.post? = [] ∨
      ∃ e' c' obs', s.callEvent? e = some e' ∧ c.step e' = some (c', obs') ∧
        CallingAt now' s' c' ∧ obs.filterMap ServiceObs.post? = obs'.filterMap CallObs.post? := by
  have hle : now ≤ now' := hbefore now List.mem_cons_self
  cases step_cases hstep with
  | loaded env t read process obs hread hload =>
      have hsleep : ∀ settings errors,
          (refreshSleep settings errors).filterMap ServiceObs.post? = [] := by
        intro settings errors
        unfold refreshSleep
        split <;> rfl
      rw [List.filterMap_append, List.filterMap_append, filterMap_post?_output,
        filterMap_post?_process, hsleep, List.nil_append, List.append_nil]
      exact h.process (e := .load read t) hclock hbefore hload rfl
  | received rid request uuid => exact Or.inl ⟨rfl, h.silent hle rfl, rfl⟩
  | admitted => exact Or.inl ⟨rfl, h.silent hle rfl, filterMap_post?_output _⟩
  | limited => exact Or.inl ⟨rfl, h.silent hle rfl, filterMap_post?_output _⟩
  | authorizing rid vault t call payment process obs hcall hstage hroute hrequest =>
      rw [filterMap_post?_process]
      have hasked : s.callEvent? (.handle rid vault t) =
          s.process.callEvent? (.request rid (authorizeRequest call payment) t) := by
        unfold callEvent?
        simp only [hcall, hroute]
      rw [hasked]
      exact h.process (e := .request rid (authorizeRequest call payment) t) hclock hbefore hrequest
        rfl
  | answeredAtOnce rid vault t call answer hcall hstage hroute =>
      refine Or.inl ⟨callEvent?_handle hcall ?_, h.silent hle rfl, rfl⟩
      intro payment heq
      rw [heq] at hroute
      rcases hroute with ⟨hother, -⟩ | ⟨hother, -⟩ | ⟨statusCode, detail, hother, -⟩ <;>
        cases hother
  | probing rid vault t call hcall hstage hroute =>
      refine Or.inl ⟨callEvent?_handle hcall ?_, h.silent hle rfl, filterMap_post?_output _⟩
      intro payment heq
      rw [heq] at hroute
      cases hroute
  | resumed rid outcome uuid t process obs hanswer =>
      rw [filterMap_post?_process]
      exact h.process (e := .answer rid outcome uuid t) hclock hbefore hanswer rfl
  | probed => exact Or.inl ⟨rfl, h.silent hle rfl, filterMap_post?_output _⟩
  | responded rid now'' call answer =>
      refine Or.inl ⟨rfl, h.silent hle rfl, ?_⟩
      cases answer with
      | response statusCode body =>
          rw [respond, List.filterMap_append, filterMap_post?_output]
          rfl
      | raised exc => rfl

/-- The calls that a run asks of the client, in order. -/
def callEvents (s : Service) (es : List ServiceEvent) : List CallEvent :=
  translate step callEvent? s es

/-- For every schedule of requests through the middlewares and the endpoint, of loads, answers
and probes on a clock that is not set back: the calls that the requests and the answers ask for
are a run of the machine of calls, which leads to the client of the service, with the same POSTs
still suspended and the same POSTs made, in the same order. -/
theorem refinesCalls (settings : Settings) (started now : Rat) (es : List ServiceEvent)
    (s : Service) (tr : List ServiceObs)
    (hrun : run step (start settings started) es = some (s, tr))
    (hforward : Forward ServiceEvent.readings started es) (hstarted : started ≤ now)
    (huntil : Until ServiceEvent.readings now es) :
    ∃ c tr', run Calls.step (Calls.start settings.vaultgatewayUrl started)
        (callEvents (start settings started) es) = some (c, tr') ∧
      c.clock ≤ now ∧ s.process.connector.gatewayClient = some c.client ∧
        s.process.waiting.map (fun h => (h.rid, h.pending)) =
          c.waiting.map (fun call => (call.id, call.pending)) ∧
        tr.filterMap ServiceObs.post? = tr'.filterMap CallObs.post? := by
  have hstart : CallingAt started (start settings started)
      (Calls.start settings.vaultgatewayUrl started) :=
    ⟨Process.start_calling settings .init started, le_refl started⟩
  obtain ⟨c, tr', hcalls, ⟨hcalling, hclock⟩, hposts⟩ :=
    run_forward_simulation (f := callEvent?) (R := CallingAt) (fun hle hR => hR.silent hle rfl)
      (fun {_ _ _ _ e _ _} hR hhere hbefore hs => step_callingAt (e := e) hR hhere hbefore hs)
      hstart hrun hforward hstarted huntil
  exact ⟨c, tr', hcalls, hclock, hcalling.client, hcalling.waiting, hposts⟩

theorem refinesCalls_payment :
    ∃ s tr, run step (start sampleSettings 1) (paymentRun "key-a") = some (s, tr) ∧
      (tr.filterMap ServiceObs.post?).map Prod.fst = [1] ∧
      (callEvents (start sampleSettings 1) (paymentRun "key-a")).length = 2 ∧
      ∃ c tr', run Calls.step (Calls.start sampleSettings.vaultgatewayUrl 1)
          (callEvents (start sampleSettings 1) (paymentRun "key-a")) = some (c, tr') ∧
        c.clock ≤ 4 ∧ s.process.connector.gatewayClient = some c.client ∧
          s.process.waiting.map (fun h => (h.rid, h.pending)) =
            c.waiting.map (fun call => (call.id, call.pending)) ∧
          tr.filterMap ServiceObs.post? = tr'.filterMap CallObs.post? := by
  obtain ⟨s, tr, hrun, hposts⟩ : ∃ s tr,
      run step (start sampleSettings 1) (paymentRun "key-a") = some (s, tr) ∧
        (tr.filterMap ServiceObs.post?).map Prod.fst = [1] := exists_run (by decide +kernel)
  exact ⟨s, tr, hrun, hposts, by decide +kernel,
    refinesCalls sampleSettings 1 4 (paymentRun "key-a") s tr hrun (by decide +kernel)
      (by decide +kernel) (by decide +kernel)⟩

end Service

end PaymentConnector
