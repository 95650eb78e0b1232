import PaymentConnector.Responses

/-!
# The life of a request

A request is taken through the middlewares, its route and back in stretches, between which any
number of other requests, loads and probes may run.  None of them can hold it up for good: as
long as it is not answered, its own next stretch can be taken whatever the gateway, Vault and
the clock have to say, and it is over after at most six.

## Main results

* `Service.step_next` — a request moves along its life by its own stretches alone.
* `Service.progress` — an unanswered request can always go on, and has at most six stretches.
-/

namespace PaymentConnector

open Library Library.Machine

/-! ## The life -/

/-- Where a request is; `retried` tells that its fallback POST is on the way. -/
inductive Position
  | unknown
  | received
  | admitted
  | authorizing (retried : Bool)
  | probing
  | answered
  | gone
  deriving DecidableEq

namespace Position

/-- How many stretches a request can have before it. -/
def left : Position → Nat
  | unknown => 6
  | received => 5
  | admitted => 4
  | authorizing false => 3
  | authorizing true | probing => 2
  | answered => 1
  | gone => 0

/-- How a stretch of a request takes it on. -/
inductive Next (rid : Nat) : Position → ServiceEvent → Position → Prop
  | received (request : HttpRequest) (uuid : String) (now : Rat) :
      Next rid unknown (.receive rid request uuid now) received
  | admitted (created now : Rat) : Next rid received (.limit rid created now) admitted
  | limited (created now : Rat) : Next rid received (.limit rid created now) answered
  | posting (vault : VaultAttempt) (t : StartReadings) :
      Next rid admitted (.handle rid vault t) (authorizing false)
  | probing (vault : VaultAttempt) (t : StartReadings) :
      Next rid admitted (.handle rid vault t) probing
  | handled (vault : VaultAttempt) (t : StartReadings) :
      Next rid admitted (.handle rid vault t) answered
  | retrying (outcome : PostOutcome) (uuid : String) (t : AnswerReadings) :
      Next rid (authorizing false) (.answer rid outcome uuid t) (authorizing true)
  | resumed (retried : Bool) (outcome : PostOutcome) (uuid : String) (t : AnswerReadings) :
      Next rid (authorizing retried) (.answer rid outcome uuid t) answered
  | probed (statusCode : Option Nat) (now : Rat) :
      Next rid probing (.reach rid statusCode now) answered
  | responded (now : Rat) : Next rid answered (.respond rid now) gone

/-- Every stretch of a request brings it nearer to its end. -/
theorem Next.left_lt {rid : Nat} {p p' : Position} {e : ServiceEvent} (h : Next rid p e p') :
    p'.left < p.left := by
  cases h with
  | resumed retried => cases retried <;> decide
  | _ => decide

end Position

/-! ## Where a request is -/

/-- A POST made with the fallback credential. -/
def Handler.retries (rid : Nat) (h : Handler) : Bool :=
  h.rid = rid && match h.pending.stage with
    | .fallback => true
    | .primary _ => false

def CallStage.position (p : Process) (rid : Nat) : CallStage → Position
  | .received => .received
  | .admitted => .admitted
  | .authorizing => .authorizing (p.waiting.any (Handler.retries rid))
  | .probing _ _ => .probing
  | .answered _ => .answered

namespace Service

def position (s : Service) (rid : Nat) : Position :=
  match s.call? rid with
  | some call => call.stage.position s.process rid
  | none => if rid ∈ s.received then .gone else .unknown

/-- What the code behind a request needs to go on. -/
structure Live (s : Service) : Prop where
  consistent : s.Consistent
  named : s.process.WellNamed
  client : s.process.connector.gatewayClient.isSome = true
  known : ∀ rid ∈ s.process.seen, rid ∈ s.received
  fresh : ∀ rid call, s.call? rid = some call → call.stage = .received ∨ call.stage = .admitted →
    ¬ rid ∈ s.process.seen
  awaited : ∀ rid call, s.call? rid = some call → call.stage = .authorizing →
    ∃ h ∈ s.process.waiting, h.rid = rid

theorem start_live (settings : Settings) (now : Rat) : (start settings now).Live where
  consistent := start_consistent settings now
  named := Process.start_wellNamed settings .init
  client := rfl
  known := fun _ h => absurd h List.not_mem_nil
  fresh := fun _ _ h => by cases h
  awaited := fun _ _ h => by cases h

variable {s s' : Service} {e : ServiceEvent} {es : List ServiceEvent} {tr obs : List ServiceObs}

/-! ### The requests that a step leaves alone -/

private theorem gatewayClient_isSome {p p' : Process} {e : Event} {obs : List Obs}
    (h : p.connector.gatewayClient.isSome = true) (hstep : p.step e = some (p', obs)) :
    p'.connector.gatewayClient.isSome = true := by
  cases step_spec hstep with
  | load => exact h
  | refused rid request t client code detail outputs hseen hclient => exact hclient.trans h
  | raised => exact h
  | replayed => exact h
  | posting => rfl
  | stored => rfl
  | failed => rfl
  | fallback => rfl

/-- A step of the service is none of the process, or one for the same request. -/
theorem step_process_rid (hstep : s.step e = some (s', obs)) :
    s'.process = s.process ∨
      ∃ e' obs', s.process.step e' = some (s'.process, obs') ∧ e'.rid? = e.rid? := by
  cases step_cases hstep with
  | loaded env t read process obs hread hload => exact Or.inr ⟨.load read t, obs, hload, rfl⟩
  | authorizing rid vault t call payment process obs hcall hstage hroute hrequest =>
      exact Or.inr ⟨.request rid (authorizeRequest call payment) t, obs, hrequest, rfl⟩
  | resumed rid outcome uuid t process obs hanswer =>
      exact Or.inr ⟨.answer rid outcome uuid t, obs, hanswer, rfl⟩
  | received => exact Or.inl rfl
  | admitted => exact Or.inl rfl
  | limited => exact Or.inl rfl
  | answeredAtOnce => exact Or.inl rfl
  | probing => exact Or.inl rfl
  | probed => exact Or.inl rfl
  | responded => exact Or.inl rfl

/-- A step of another request leaves a request as it is, in the process too. -/
theorem step_other (hs : s.Consistent) (hstep : s.step e = some (s', obs)) {rid : Nat}
    (hother : e.rid? ≠ some rid) :
    s'.call? rid = s.call? rid ∧ (rid ∈ s'.process.seen ↔ rid ∈ s.process.seen) ∧
      ∀ h, h.rid = rid → (h ∈ s'.process.waiting ↔ h ∈ s.process.waiting) := by
  refine ⟨?_, ?_⟩
  · have hmoves := (step_moves hs hstep).2 rid
    generalize s'.call? rid = after, s.call? rid = before at hmoves ⊢
    cases hmoves with
    | other => rfl
    | received => exact absurd rfl hother
    | goesOn call stage hown => exact absurd hown hother
    | responded => exact absurd rfl hother
  · rcases step_process_rid hstep with hsame | ⟨e', obs', hprocess, hrid⟩
    · rw [hsame]
      exact ⟨Iff.rfl, fun _ _ => Iff.rfl⟩
    · rw [← hrid] at hother
      exact step_others hprocess hother

theorem step_other_position (hs : s.Consistent) (hstep : s.step e = some (s', obs)) {rid : Nat}
    (hother : e.rid? ≠ some rid) : s'.position rid = s.position rid := by
  obtain ⟨hcall, -, hwaiting⟩ := step_other hs hstep hother
  have hreceived : rid ∈ s'.received ↔ rid ∈ s.received := by
    rw [step_received hstep]
    refine or_iff_left ?_
    rintro ⟨request, uuid, now, rfl⟩
    exact hother rfl
  have hretried : s'.process.waiting.any (Handler.retries rid) =
      s.process.waiting.any (Handler.retries rid) := by
    rw [Bool.eq_iff_iff, List.any_eq_true, List.any_eq_true]
    refine exists_congr fun h => and_congr_left fun hretries => ?_
    exact hwaiting h (of_decide_eq_true (Bool.and_eq_true_iff.mp hretries).1)
  unfold position
  rw [hcall]
  cases s.call? rid with
  | none => simp only [hreceived]
  | some call =>
      show call.stage.position _ rid = call.stage.position _ rid
      unfold CallStage.position
      rw [hretried]

/-! ### The request of a step -/

/-- A request that has not arrived is not on its way. -/
theorem Consistent.call?_eq_none (hs : s.Consistent) {rid : Nat} (hfresh : ¬ rid ∈ s.received) :
    s.call? rid = none := by
  rw [call?, List.find?_eq_none]
  intro call hin hrid
  have hnamed := hs.named call hin
  rw [of_decide_eq_true hrid] at hnamed
  exact hfresh hnamed

/-- A request that has just arrived is. -/
theorem call?_append {rid : Nat} {call : HttpCall} (hnone : s.call? rid = none)
    (hrid : call.rid = rid) :
    (s.calls ++ [call]).find? (fun call => call.rid = rid) = some call := by
  rw [List.find?_append, ← call?, hnone, Option.none_or, List.find?_singleton,
    decide_eq_true hrid]
  rfl

private theorem stageAfter_cases (obs : List Obs) :
    stageAfter obs = .authorizing ∨ ∃ answer, stageAfter obs = .answered answer := by
  unfold stageAfter
  split
  · exact Or.inr ⟨_, rfl⟩
  · exact Or.inl rfl

/-- The position of the request that was moved to another stage. -/
private theorem position_setStage {s₁ : Service} (hcalls : s₁.calls = s.calls) {rid : Nat}
    {call : HttpCall} (hcall : s.call? rid = some call) (stage : CallStage) :
    (s₁.setStage rid stage).position rid = stage.position s₁.process rid := by
  have hlookup : (s₁.setStage rid stage).call? rid = some { call with stage := stage } := by
    have hsame : s₁.call? rid = s.call? rid := by rw [call?, hcalls, call?]
    rw [call?_setStage, hsame, hcall, Option.map_some, if_pos rfl]
  unfold position
  rw [hlookup]
  rfl

private theorem position_of_stage {rid : Nat} {call : HttpCall} {stage : CallStage}
    (hcall : s.call? rid = some call) (hstage : call.stage = stage) :
    s.position rid = stage.position s.process rid := by
  unfold position
  rw [hcall]
  show call.stage.position _ rid = _
  rw [hstage]

/-- A request that is on its way is moved to another stage. -/
private theorem next_of_setStage (s₁ : Service) {rid : Nat} {call : HttpCall}
    (hcall : s.call? rid = some call) {stage stage' : CallStage} (hstage : call.stage = stage)
    (hcalls : s₁.calls = s.calls)
    (hnext : Position.Next rid (stage.position s.process rid) e (stage'.position s₁.process rid)) :
    Position.Next rid (s.position rid) e ((s₁.setStage rid stage').position rid) := by
  rw [position_of_stage hcall hstage, position_setStage hcalls hcall]
  exact hnext

/-- The first stretch of the handler suspends it at the POST with the current credential. -/
private theorem request_position {p p' : Process} {rid : Nat} {request : AuthorizeRequest}
    {t : StartReadings} {obs : List Obs} (hp : p.WellNamed)
    (hstep : p.step (.request rid request t) = some (p', obs)) :
    (∃ answer, stageAfter obs = .answered answer) ∨
      stageAfter obs = .authorizing ∧ p'.waiting.any (Handler.retries rid) = false ∧
        ∃ h ∈ p'.waiting, h.rid = rid := by
  have hsilent : ∀ output : Output, (Obs.output output).reply? = none := fun _ => rfl
  cases step_spec hstep with
  | refused =>
      rw [stageAfter_map hsilent]
      exact Or.inl ⟨_, rfl⟩
  | raised =>
      rw [stageAfter_map hsilent]
      exact Or.inl ⟨_, rfl⟩
  | replayed =>
      rw [stageAfter_map hsilent]
      exact Or.inl ⟨_, rfl⟩
  | posting rid request t manager client primary hseen =>
      refine Or.inr ⟨rfl, ?_, _, List.mem_append_right _ (List.mem_singleton.mpr rfl), rfl⟩
      rw [List.any_append, Bool.or_eq_false_iff]
      refine ⟨List.any_eq_false.mpr fun h hin => ?_, ?_⟩
      · have hne : h.rid ≠ rid := fun heq => hseen (heq ▸ hp.named h hin)
        simp [Handler.retries, hne]
      · simp [Handler.retries]

/-- The completion of a POST is followed by the one with the fallback credential, or by the
end of the handler. -/
private theorem answer_position {p p' : Process} {rid : Nat} {outcome : PostOutcome}
    {uuid : String} {t : AnswerReadings} {obs : List Obs} (hp : p.WellNamed)
    (hstep : p.step (.answer rid outcome uuid t) = some (p', obs)) :
    (∃ answer, stageAfter obs = .answered answer) ∨
      stageAfter obs = .authorizing ∧ p.waiting.any (Handler.retries rid) = false ∧
        p'.waiting.any (Handler.retries rid) = true ∧ ∃ h ∈ p'.waiting, h.rid = rid := by
  have hsilent : ∀ output : Output, (Obs.output output).reply? = none := fun _ => rfl
  cases step_spec hstep with
  | stored handler outcome uuid t client inFlight outputs body response =>
      rw [stageAfter_storedObs]
      exact Or.inl ⟨_, rfl⟩
  | failed handler outcome uuid t client inFlight outputs reply =>
      rw [stageAfter_map hsilent]
      exact Or.inl ⟨_, rfl⟩
  | fallback handler outcome uuid t client inFlight outputs credential hmem hrejected hstage =>
      rw [stageAfter_map hsilent]
      refine Or.inr ⟨rfl, List.any_eq_false.mpr fun h hin hretries => ?_, ?_, _,
        List.mem_append_right _ (List.mem_singleton.mpr rfl), rfl⟩
      · have hrid : h.rid = handler.rid := of_decide_eq_true (Bool.and_eq_true_iff.mp hretries).1
        rw [hp.eq_of_rid hin hmem hrid, Handler.retries, hstage] at hretries
        simp at hretries
      · rw [List.any_append, Bool.or_eq_true]
        exact Or.inr (by simp [Handler.retries])

/-- A stretch of a request takes it on in its life. -/
theorem step_next (hs : s.Live) (hstep : s.step e = some (s', obs)) {rid : Nat}
    (hown : e.rid? = some rid) : Position.Next rid (s.position rid) e (s'.position rid) := by
  cases step_cases hstep with
  | loaded => cases hown
  | received rid' request uuid now hstarted hfresh =>
      obtain rfl : rid' = rid := Option.some.inj hown
      have hnone := hs.consistent.call?_eq_none hfresh
      have hbefore : s.position rid' = .unknown := by
        unfold position
        rw [hnone]
        exact if_neg hfresh
      rw [hbefore]
      unfold position
      rw [call?, call?_append hnone rfl]
      exact .received request uuid now
  | admitted rid' created now call hcall hstage =>
      obtain rfl : rid' = rid := Option.some.inj hown
      refine next_of_setStage _ hcall hstage rfl ?_
      exact .admitted created now
  | limited rid' created now call hcall hstage =>
      obtain rfl : rid' = rid := Option.some.inj hown
      refine next_of_setStage _ hcall hstage rfl ?_
      exact .limited created now
  | authorizing rid' vault t call payment process obs hcall hstage hroute hrequest =>
      obtain rfl : rid' = rid := Option.some.inj hown
      refine next_of_setStage { s with process := process } hcall hstage rfl ?_
      rcases request_position hs.named hrequest with ⟨answer, hanswered⟩ | ⟨hposting, hfirst, -⟩
      · rw [hanswered]
        exact .handled vault t
      · rw [hposting]
        show Position.Next _ _ _ (.authorizing (process.waiting.any _))
        rw [hfirst]
        exact .posting vault t
  | answeredAtOnce rid' vault t call answer hcall hstage =>
      obtain rfl : rid' = rid := Option.some.inj hown
      refine next_of_setStage _ hcall hstage rfl ?_
      exact .handled vault t
  | probing rid' vault t call hcall hstage =>
      obtain rfl : rid' = rid := Option.some.inj hown
      refine next_of_setStage _ hcall hstage rfl ?_
      cases s.process.connector.credentialStatus t.check with
      | ok credStatus => exact .probing vault t
      | error exc => exact .handled vault t
  | resumed rid' outcome uuid t process obs hanswer =>
      obtain rfl : rid' = rid := Option.some.inj hown
      obtain ⟨⟨h, hmem, hrid⟩, -, -⟩ := step_answer_stage hanswer
      obtain ⟨call, hcall, hstage⟩ := hs.consistent.handling h hmem
      rw [hrid] at hcall
      refine next_of_setStage { s with process := process } hcall hstage rfl ?_
      rcases answer_position hs.named hanswer with
        ⟨answer, hanswered⟩ | ⟨hposting, hfirst, hsecond, -⟩
      · rw [hanswered]
        exact .resumed _ outcome uuid t
      · rw [hposting]
        show Position.Next _ (.authorizing (s.process.waiting.any _)) _
          (.authorizing (process.waiting.any _))
        rw [hfirst, hsecond]
        exact .retrying outcome uuid t
  | probed rid' statusCode now call vaultConnected credStatus hcall hstage =>
      obtain rfl : rid' = rid := Option.some.inj hown
      refine next_of_setStage _ hcall hstage rfl ?_
      exact .probed statusCode now
  | responded rid' now call answer hcall hstage =>
      obtain rfl : rid' = rid := Option.some.inj hown
      rw [position_of_stage hcall hstage]
      have hgone : Service.call?
          { s with calls := s.calls.filter fun call => call.rid ≠ rid' } rid' = none := by
        have hremoved := s.call?_remove rid' rid'
        rw [if_pos rfl] at hremoved
        exact hremoved
      have hreceived : rid' ∈ s.received := by
        have hnamed := hs.consistent.named call (call?_mem hcall)
        rw [s.call?_rid hcall] at hnamed
        exact hnamed
      have hposition : Service.position
          { s with calls := s.calls.filter fun call => call.rid ≠ rid' } rid' = .gone := by
        unfold position
        rw [hgone]
        exact if_pos hreceived
      rw [hposition]
      exact .responded now

/-! ## What keeps a request going -/

/-- The stage that a request was moved to. -/
private theorem stage_setStage (s₁ : Service) {rid : Nat} {call : HttpCall} {stage : CallStage}
    (h : (s₁.setStage rid stage).call? rid = some call) : call.stage = stage := by
  rw [call?_setStage] at h
  obtain ⟨_, -, heq⟩ := Option.map_eq_some_iff.mp h
  rw [if_pos rfl] at heq
  rw [← heq]

/-- The request of a step, if it is still on its way, has what it needs. -/
private theorem own_backed (hs : s.Live) (hstep : s.step e = some (s', obs)) {rid : Nat}
    (hown : e.rid? = some rid) {call : HttpCall} (hcall : s'.call? rid = some call) :
    (call.stage = .received ∨ call.stage = .admitted → ¬ rid ∈ s'.process.seen) ∧
      (call.stage = .authorizing → ∃ h ∈ s'.process.waiting, h.rid = rid) := by
  have hother : ∀ stage, call.stage = stage → (¬ stage = .received ∧ ¬ stage = .admitted) →
      (stage = .authorizing → ∃ h ∈ s'.process.waiting, h.rid = rid) →
      (call.stage = .received ∨ call.stage = .admitted → ¬ rid ∈ s'.process.seen) ∧
        (call.stage = .authorizing → ∃ h ∈ s'.process.waiting, h.rid = rid) := by
    intro stage hstage hpast hawaited
    rw [hstage]
    exact ⟨fun h => absurd h (not_or.mpr hpast), hawaited⟩
  cases step_cases hstep with
  | loaded => cases hown
  | received rid' request uuid now hstarted hfresh =>
      obtain rfl : rid' = rid := Option.some.inj hown
      have hseen : ¬ rid' ∈ s.process.seen := fun hin => hfresh (hs.known rid' hin)
      refine ⟨fun _ => hseen, fun hstage => ?_⟩
      have hmoves := (step_moves hs.consistent hstep).2 rid'
      rw [hcall] at hmoves
      generalize s.call? rid' = before at hmoves
      cases hmoves with
      | other hother => exact absurd rfl hother
      | received => cases hstage
      | goesOn call stage hown hon => exact absurd rfl (hon request uuid now)
  | admitted rid' created now call' hcall' hstage' =>
      obtain rfl : rid' = rid := Option.some.inj hown
      have hstage := stage_setStage _ hcall
      have hseen := hs.fresh rid' call' hcall' (Or.inl hstage')
      exact ⟨fun _ => hseen, fun h => by rw [hstage] at h; cases h⟩
  | limited =>
      obtain rfl := Option.some.inj hown
      exact hother _ (stage_setStage _ hcall) ⟨nofun, nofun⟩ nofun
  | authorizing rid' vault t call' payment process obs hcall' hstage' hroute hrequest =>
      obtain rfl : rid' = rid := Option.some.inj hown
      refine hother _ (stage_setStage _ hcall) ?_ ?_
      · rcases stageAfter_cases obs with h | ⟨answer, h⟩ <;> rw [h] <;> exact ⟨nofun, nofun⟩
      · intro hposting
        rcases request_position hs.named hrequest with ⟨answer, hanswered⟩ | ⟨-, -, hawaited⟩
        · rw [hanswered] at hposting
          cases hposting
        · exact hawaited
  | answeredAtOnce =>
      obtain rfl := Option.some.inj hown
      exact hother _ (stage_setStage _ hcall) ⟨nofun, nofun⟩ nofun
  | probing rid' vault t =>
      obtain rfl : rid' = rid := Option.some.inj hown
      have hstage := stage_setStage _ hcall
      cases hstatus : s.process.connector.credentialStatus t.check with
      | ok credStatus =>
          rw [hstatus] at hstage
          exact hother _ hstage ⟨nofun, nofun⟩ nofun
      | error exc =>
          rw [hstatus] at hstage
          exact hother _ hstage ⟨nofun, nofun⟩ nofun
  | resumed rid' outcome uuid t process obs hanswer =>
      obtain rfl : rid' = rid := Option.some.inj hown
      refine hother _ (stage_setStage _ hcall) ?_ ?_
      · rcases stageAfter_cases obs with h | ⟨answer, h⟩ <;> rw [h] <;> exact ⟨nofun, nofun⟩
      · intro hposting
        rcases answer_position hs.named hanswer with ⟨answer, hanswered⟩ | ⟨-, -, -, hawaited⟩
        · rw [hanswered] at hposting
          cases hposting
        · exact hawaited
  | probed =>
      obtain rfl := Option.some.inj hown
      exact hother _ (stage_setStage _ hcall) ⟨nofun, nofun⟩ nofun
  | responded rid' now call' answer hcall' =>
      obtain rfl : rid' = rid := Option.some.inj hown
      have hremoved := s.call?_remove rid' rid'
      rw [if_pos rfl] at hremoved
      rw [call?, hremoved] at hcall
      cases hcall

/-- The request of a step has arrived. -/
private theorem own_received (hs : s.Live) (hstep : s.step e = some (s', obs)) {rid : Nat}
    (hown : e.rid? = some rid) : rid ∈ s'.received := by
  have hnext := step_next hs hstep hown
  rw [step_received hstep]
  by_cases hreceived : rid ∈ s.received
  · exact Or.inl hreceived
  · have hunknown : s.position rid = .unknown := by
      unfold position
      cases hcall : s.call? rid with
      | none => exact if_neg hreceived
      | some call =>
          have hnamed := hs.consistent.named call (call?_mem hcall)
          rw [s.call?_rid hcall] at hnamed
          exact absurd hnamed hreceived
    rw [hunknown] at hnext
    generalize s'.position rid = after at hnext
    cases hnext with
    | received request uuid now => exact Or.inr ⟨request, uuid, now, rfl⟩

theorem step_live (hs : s.Live) (hstep : s.step e = some (s', obs)) : s'.Live where
  consistent := (step_moves hs.consistent hstep).1
  named := by
    rcases step_process_rid hstep with hsame | ⟨e', obs', hprocess, -⟩
    · rw [hsame]
      exact hs.named
    · exact step_wellNamed hs.named hprocess
  client := by
    rcases step_process_rid hstep with hsame | ⟨e', obs', hprocess, -⟩
    · rw [hsame]
      exact hs.client
    · exact gatewayClient_isSome hs.client hprocess
  known := by
    intro rid hseen
    by_cases hown : e.rid? = some rid
    · exact own_received hs hstep hown
    · rw [(step_other hs.consistent hstep hown).2.1] at hseen
      exact (step_received hstep rid).mpr (Or.inl (hs.known rid hseen))
  fresh := by
    intro rid call hcall hstage
    by_cases hown : e.rid? = some rid
    · exact (own_backed hs hstep hown hcall).1 hstage
    · obtain ⟨hsame, hseen, -⟩ := step_other hs.consistent hstep hown
      rw [hseen]
      exact hs.fresh rid call (hsame ▸ hcall) hstage
  awaited := by
    intro rid call hcall hstage
    by_cases hown : e.rid? = some rid
    · exact (own_backed hs hstep hown hcall).2 hstage
    · obtain ⟨hsame, -, hwaiting⟩ := step_other hs.consistent hstep hown
      obtain ⟨h, hin, hrid⟩ := hs.awaited rid call (hsame ▸ hcall) hstage
      exact ⟨h, (hwaiting h hrid).mpr hin, hrid⟩

/-! ## The next stretch -/

/-- The next stretch of a request can be taken, whatever its environment has to say. -/
def Offers (s : Service) (rid : Nat) : CallStage → Prop
  | .received => ∀ created now, (s.step (.limit rid created now)).isSome = true
  | .admitted => ∀ vault t, (s.step (.handle rid vault t)).isSome = true
  | .authorizing => ∀ outcome uuid t, (s.step (.answer rid outcome uuid t)).isSome = true
  | .probing _ _ => ∀ statusCode now, (s.step (.reach rid statusCode now)).isSome = true
  | .answered _ => ∀ now, (s.step (.respond rid now)).isSome = true

theorem Live.offers (hs : s.Live) {rid : Nat} {call : HttpCall} (hcall : s.call? rid = some call) :
    s.Offers rid call.stage := by
  have hseen := hs.fresh rid call hcall
  have hawaited := hs.awaited rid call hcall
  obtain ⟨rid', request, requestId, startTime, stage⟩ := call
  cases stage with
  | received =>
      intro created now
      simp only [step, hcall]
      rfl
  | admitted =>
      intro vault t
      simp only [step, hcall]
      unfold handle
      cases request.route with
      | authorize payment =>
          have hrid : rid' = rid := s.call?_rid hcall
          have hfresh : ¬ rid' ∈ s.process.seen := hrid ▸ hseen (Or.inr rfl)
          simp only [Process.step, if_neg (hrid ▸ hfresh)]
          rfl
      | _ => rfl
  | authorizing =>
      intro outcome uuid t
      obtain ⟨h, hin, hrid⟩ := hawaited rfl
      obtain ⟨client, hclient⟩ := Option.isSome_iff_exists.mp hs.client
      cases hfind : s.process.waiting.find? (fun h => h.rid = rid) with
      | none =>
          have hne := List.find?_eq_none.mp hfind h hin
          exact absurd (decide_eq_true hrid) hne
      | some handler =>
          simp only [step, Process.step, hclient, hfind]
          rfl
  | probing vaultConnected credStatus =>
      intro statusCode now
      simp only [step, hcall]
      rfl
  | answered answer =>
      intro now
      simp only [step, hcall]
      rfl

/-! ## Runs -/

/-- The stretches of a request in a run. -/
def stretches (rid : Nat) (es : List ServiceEvent) : Nat := es.countP fun e => e.rid? = some rid

/-- What a run says of the life of a request. -/
structure Lives (rid : Nat) (es : List ServiceEvent) (s : Service) (tr : List ServiceObs) :
    Prop where
  live : s.Live
  counted : stretches rid es + (s.position rid).left ≤ 6
  arrived : rid ∈ es.filterMap ServiceEvent.receivedRid? → rid ∈ s.received
  finished : s.position rid = .gone → rid ∈ tr.filterMap ServiceObs.respondedRid?

theorem Lives.step {rid : Nat} (h : Lives rid es s tr) (hstep : s.step e = some (s', obs)) :
    Lives rid (es ++ [e]) s' (tr ++ obs) := by
  have hlive := h.live
  have hcounted := h.counted
  refine ⟨step_live hlive hstep, ?_, ?_, ?_⟩
  · rw [stretches, List.countP_append, List.countP_singleton]
    by_cases hown : e.rid? = some rid
    · have hless := (step_next hlive hstep hown).left_lt
      rw [if_pos (decide_eq_true hown)]
      rw [stretches] at hcounted
      omega
    · rw [if_neg (by simpa using hown), step_other_position hlive.consistent hstep hown]
      exact hcounted
  · rw [List.filterMap_append, List.mem_append, step_received hstep]
    rintro (hold | hnew)
    · exact Or.inl (h.arrived hold)
    · cases e with
      | receive rid' request uuid now =>
          obtain rfl : rid = rid' := List.mem_singleton.mp hnew
          exact Or.inr ⟨request, uuid, now, rfl⟩
      | _ => cases hnew
  · intro hgone
    rw [List.filterMap_append, List.mem_append]
    by_cases hown : e.rid? = some rid
    · have hnext := step_next hlive hstep hown
      rw [hgone] at hnext
      generalize hbefore : s.position rid = before at hnext
      cases hnext with
      | responded now =>
          cases step_cases hstep with
          | responded rid now call answer hcall =>
              rw [respondedRid?_respond, s.call?_rid hcall]
              exact Or.inr (List.mem_singleton.mpr rfl)
    · rw [step_other_position hlive.consistent hstep hown] at hgone
      exact Or.inl (h.finished hgone)

theorem run_lives {settings : Settings} {now : Rat}
    (hrun : run step (start settings now) es = some (s, tr)) (rid : Nat) : Lives rid es s tr :=
  run_history_invariant (I := Lives rid) (fun _ _ _ _ _ _ _ h hs => h.step hs)
    ⟨start_live settings now, le_refl 6, fun h => absurd h List.not_mem_nil, fun h => by cases h⟩
    hrun

/-- In every run, for every request that arrived: it had at most six stretches, and it is
answered, or it has had fewer than six and its next one can be taken, whatever the rate
limiter's clock, Vault or the gateway have to say. -/
theorem progress (settings : Settings) (now : Rat) (es : List ServiceEvent) (s : Service)
    (tr : List ServiceObs) (hrun : run step (start settings now) es = some (s, tr)) (rid : Nat)
    (hreceived : rid ∈ es.filterMap ServiceEvent.receivedRid?) :
    stretches rid es ≤ 6 ∧
      (rid ∈ tr.filterMap ServiceObs.respondedRid? ∨
        stretches rid es < 6 ∧ ∃ call, s.call? rid = some call ∧ s.Offers rid call.stage) := by
  have hlives := run_lives hrun rid
  have hcounted := hlives.counted
  refine ⟨by omega, ?_⟩
  cases hcall : s.call? rid with
  | none =>
      have hgone : s.position rid = .gone := by
        unfold position
        rw [hcall]
        exact if_pos (hlives.arrived hreceived)
      exact Or.inl (hlives.finished hgone)
  | some call =>
      refine Or.inr ⟨?_, call, rfl, hlives.live.offers hcall⟩
      have hleft : 0 < (s.position rid).left := by
        unfold position
        rw [hcall]
        show 0 < (call.stage.position s.process rid).left
        unfold CallStage.position
        split
        · decide
        · decide
        · generalize s.process.waiting.any (Handler.retries rid) = retried
          cases retried <;> decide
        · decide
        · decide
      omega

/-- The sample payment while its POST is on the way. -/
theorem progress_payment :
    ∃ s tr, run step (start sampleSettings 1) ((paymentRun "key-a").take 4) = some (s, tr) ∧
      tr.filterMap ServiceObs.respondedRid? = [] ∧
      stretches 1 ((paymentRun "key-a").take 4) ≤ 6 ∧
        (1 ∈ tr.filterMap ServiceObs.respondedRid? ∨
          stretches 1 ((paymentRun "key-a").take 4) < 6 ∧
            ∃ call, s.call? 1 = some call ∧ s.Offers 1 call.stage) := by
  obtain ⟨s, tr, hrun, hopen⟩ : ∃ s tr,
      run step (start sampleSettings 1) ((paymentRun "key-a").take 4) = some (s, tr) ∧
        tr.filterMap ServiceObs.respondedRid? = [] := exists_run (by decide +kernel)
  exact ⟨s, tr, hrun, hopen, progress sampleSettings 1 _ s tr hrun 1 (by decide +kernel)⟩

end Service

end PaymentConnector
