import PaymentConnector.AuditTrail
import PaymentConnector.OwnSteps

/-!
# Silent authentication failures

The gateway client audits a rejection only once it has run out of credentials.
A call whose first credential is rejected and whose fallback is not, whether the fallback
POST succeeds, times out or is answered with a 5xx, ends without an event.

## Main results

* `audited_iff` — a request whose POSTs include a rejected one is audited
  exactly when all of them are rejected.
-/

namespace PaymentConnector

open Library Library.Machine

/-- Whether a POST of a request is rejected, where an event completes one. -/
def Event.verdict? (rid : Nat) : Event → Option Bool
  | .answer rid' outcome _ _ => if rid' = rid then some outcome.rejects else none
  | _ => none

/-- For each answer that the POSTs of a request get, first to last, whether it is
a 401 or a 403. -/
def verdicts (rid : Nat) (es : List Event) : List Bool := es.filterMap (Event.verdict? rid)

/-- In the steps of a request an authentication failure is audited. -/
def AuthFailureAudited (rid : Nat) (p : Process) (es : List Event) : Prop :=
  ∃ event ∈ (ownSteps rid p es).filterMap Obs.audit?, event.event = "auth_failure"

theorem verdicts_concat (rid : Nat) (es : List Event) (e : Event) :
    verdicts rid (es ++ [e]) = verdicts rid es ++ (e.verdict? rid).toList := by
  rw [verdicts, List.filterMap_append, verdicts]
  cases h : e.verdict? rid <;> simp [h]

theorem Event.verdict?_of_other {rid : Nat} {e : Event} (h : e.rid? ≠ some rid) :
    e.verdict? rid = none := by
  cases e with
  | load => rfl
  | request => rfl
  | answer rid' => exact if_neg (fun heq => h (congrArg some heq))

/-- What the run says of a request, by where the request is. -/
structure Recounts (rid : Nat) (p₀ : Process) (es : List Event) (p : Process) : Prop where
  named : p.WellNamed
  fresh : ¬ rid ∈ p.seen → verdicts rid es = [] ∧ ¬ AuthFailureAudited rid p₀ es
  primary : ∀ h ∈ p.waiting, h.rid = rid → ∀ fallback, h.pending.stage = .primary fallback →
    verdicts rid es = [] ∧ ¬ AuthFailureAudited rid p₀ es
  fallback : ∀ h ∈ p.waiting, h.rid = rid → h.pending.stage = .fallback →
    verdicts rid es = [true] ∧ ¬ AuthFailureAudited rid p₀ es
  finished : p.Over rid → true ∈ verdicts rid es →
    (AuthFailureAudited rid p₀ es ↔ ∀ verdict ∈ verdicts rid es, verdict = true)

theorem start_recounts (rid : Nat) (settings : Settings) (manager : CredentialManager) :
    Recounts rid (Process.start settings manager) [] (Process.start settings manager) where
  named := Process.start_wellNamed settings manager
  fresh := fun _ => ⟨rfl, fun h => by
    obtain ⟨event, hin, -⟩ := h
    exact absurd hin List.not_mem_nil⟩
  primary := fun _ hin => absurd hin List.not_mem_nil
  fallback := fun _ hin => absurd hin List.not_mem_nil
  finished := fun hover => absurd hover.1 List.not_mem_nil

section Steps

variable {rid : Nat} {p₀ p p' : Process} {es : List Event} {e : Event} {tr obs : List Obs}

/-- Up to the end of its call a request has only been rejected, and nothing is audited. -/
private theorem Recounts.suspended (h : Recounts rid p₀ es p) {handler : Handler}
    (hmem : handler ∈ p.waiting) (hrid : handler.rid = rid) :
    (∀ verdict ∈ verdicts rid es, verdict = true) ∧ ¬ AuthFailureAudited rid p₀ es := by
  cases hstage : handler.pending.stage with
  | primary fallback =>
      obtain ⟨hnil, hsilent⟩ := h.primary handler hmem hrid fallback hstage
      rw [hnil]
      exact ⟨fun _ hin => absurd hin List.not_mem_nil, hsilent⟩
  | fallback =>
      obtain ⟨hone, hsilent⟩ := h.fallback handler hmem hrid hstage
      rw [hone]
      exact ⟨fun _ hin => List.mem_singleton.mp hin, hsilent⟩

/-- Steps of other requests. -/
private theorem Recounts.other (h : Recounts rid p₀ es p)
    (hrun : run Process.step p₀ es = some (p, tr)) (hstep : p.step e = some (p', obs))
    (hother : e.rid? ≠ some rid) : Recounts rid p₀ (es ++ [e]) p' := by
  have hsame : ownSteps rid p₀ (es ++ [e]) = ownSteps rid p₀ es := by
    rw [ownSteps, shownIn_concat hrun hstep]
    simp [ownSteps, hother]
  obtain ⟨hseen, hwaiting⟩ := step_others hstep hother
  have hverdicts : verdicts rid (es ++ [e]) = verdicts rid es := by
    rw [verdicts_concat, Event.verdict?_of_other hother]
    exact List.append_nil _
  have haudited : AuthFailureAudited rid p₀ (es ++ [e]) ↔ AuthFailureAudited rid p₀ es := by
    rw [AuthFailureAudited, hsame, AuthFailureAudited]
  refine ⟨step_wellNamed h.named hstep, ?_, ?_, ?_, ?_⟩
  · rw [hverdicts, haudited, hseen]
    exact h.fresh
  · intro handler hmem hrid
    rw [hverdicts, haudited]
    exact h.primary handler ((hwaiting handler hrid).mp hmem) hrid
  · intro handler hmem hrid
    rw [hverdicts, haudited]
    exact h.fallback handler ((hwaiting handler hrid).mp hmem) hrid
  · intro hover
    rw [hverdicts, haudited]
    refine h.finished ⟨hseen.mp hover.1, ?_⟩
    intro handler hmem hrid
    exact hover.2 handler ((hwaiting handler hrid).mpr hmem) hrid

/-- The own steps of a request add what they audit. -/
private theorem authFailureAudited_concat (hrun : run Process.step p₀ es = some (p, tr))
    (hstep : p.step e = some (p', obs)) (hown : e.rid? = some rid) :
    AuthFailureAudited rid p₀ (es ++ [e]) ↔ AuthFailureAudited rid p₀ es ∨
      ∃ event ∈ obs.filterMap Obs.audit?, event.event = "auth_failure" := by
  have hmore : ownSteps rid p₀ (es ++ [e]) = ownSteps rid p₀ es ++ obs := by
    rw [ownSteps, shownIn_concat hrun hstep]
    simp [ownSteps, hown]
  simp only [AuthFailureAudited, hmore, List.filterMap_append, List.mem_append, or_and_right,
    exists_or]

/-- The arrival of the request. -/
private theorem Recounts.arrival {request : AuthorizeRequest} {t : StartReadings}
    (h : Recounts rid p₀ es p) (hrun : run Process.step p₀ es = some (p, tr))
    (hstep : p.step (.request rid request t) = some (p', obs)) :
    Recounts rid p₀ (es ++ [.request rid request t]) p' := by
  have haudited := authFailureAudited_concat hrun hstep rfl
  have hverdicts : verdicts rid (es ++ [.request rid request t]) = verdicts rid es := by
    rw [verdicts_concat]
    exact List.append_nil _
  have hseen : rid ∈ p'.seen := (step_gives h.named hstep).1 rid rfl
  have hnamed := step_wellNamed h.named hstep
  have hunnamed : ¬ rid ∈ p.seen → ∀ handler ∈ p.waiting, handler.rid ≠ rid := by
    intro hfresh handler hmem hrid
    rw [← hrid] at hfresh
    exact hfresh (h.named.named handler hmem)
  have hover : verdicts rid es = [] → p'.Over rid →
      true ∈ verdicts rid (es ++ [.request rid request t]) →
      (AuthFailureAudited rid p₀ (es ++ [.request rid request t]) ↔
        ∀ verdict ∈ verdicts rid (es ++ [.request rid request t]), verdict = true) := by
    intro hnil _ hin
    rw [hverdicts, hnil] at hin
    exact absurd hin List.not_mem_nil
  cases step_spec hstep with
  | refused rid request t client code detail outputs hfresh =>
      refine ⟨hnamed, fun hnot => absurd hseen hnot, ?_, ?_, hover (h.fresh hfresh).1⟩
      · exact fun handler hmem hrid => absurd hrid (hunnamed hfresh handler hmem)
      · exact fun handler hmem hrid => absurd hrid (hunnamed hfresh handler hmem)
  | raised rid request t exc outputs hfresh =>
      refine ⟨hnamed, fun hnot => absurd hseen hnot, ?_, ?_, hover (h.fresh hfresh).1⟩
      · exact fun handler hmem hrid => absurd hrid (hunnamed hfresh handler hmem)
      · exact fun handler hmem hrid => absurd hrid (hunnamed hfresh handler hmem)
  | replayed rid request t manager cached outputs hfresh =>
      refine ⟨hnamed, fun hnot => absurd hseen hnot, ?_, ?_, hover (h.fresh hfresh).1⟩
      · exact fun handler hmem hrid => absurd hrid (hunnamed hfresh handler hmem)
      · exact fun handler hmem hrid => absurd hrid (hunnamed hfresh handler hmem)
  | posting rid request t manager client primary hfresh =>
      refine ⟨hnamed, fun hnot => absurd hseen hnot, ?_, ?_, hover (h.fresh hfresh).1⟩
      · intro _ _ _ _ _
        obtain ⟨hnil, hsilent⟩ := h.fresh hfresh
        rw [hverdicts, haudited, hnil]
        refine ⟨rfl, ?_⟩
        intro hor
        rcases hor with hbefore | ⟨event, hin, -⟩
        · exact hsilent hbefore
        · exact absurd hin List.not_mem_nil
      · intro handler hmem hrid hstage
        rcases List.mem_append.mp hmem with hold | hnew
        · exact absurd hrid (hunnamed hfresh handler hold)
        · rw [List.mem_singleton.mp hnew] at hstage
          cases hstage

/-- What the completion of a POST adds to what the run says of its request. -/
private theorem Recounts.told (h : Recounts rid p₀ es p)
    (hrun : run Process.step p₀ es = some (p, tr)) {handler : Handler}
    (hmem : handler ∈ p.waiting) {outcome : PostOutcome} {uuid : String} {t : AnswerReadings}
    (hstep : p.step (.answer handler.rid outcome uuid t) = some (p', obs))
    (hrid : handler.rid = rid) :
    verdicts rid (es ++ [.answer handler.rid outcome uuid t]) =
        verdicts rid es ++ [outcome.rejects] ∧
      (AuthFailureAudited rid p₀ (es ++ [.answer handler.rid outcome uuid t]) ↔
        outcome.rejects = true ∧ handler.pending.retry? = none) := by
  refine ⟨?_, ?_⟩
  · rw [verdicts_concat, Event.verdict?, if_pos hrid]
    rfl
  · rw [authFailureAudited_concat hrun hstep (congrArg some hrid),
      or_iff_right (h.suspended hmem hrid).2, ← outcome.attempt_eq_rejected_iff]
    obtain ⟨handler', hmem', hsame, haudits⟩ := Process.step_answer_audits hstep
    have heq : handler' = handler := h.named.eq_of_rid hmem' hmem hsame
    rw [heq] at haudits
    rcases haudits with ⟨hrejected, hlast, baseUrl, hone⟩ | ⟨hnot, hnone⟩
    · rw [hone]
      refine ⟨fun _ => ⟨hrejected, hlast⟩, fun _ => ?_⟩
      exact ⟨_, List.mem_singleton_self _, rfl⟩
    · rw [hnone]
      refine ⟨?_, fun hlast => absurd hlast hnot⟩
      intro hex
      obtain ⟨event, hin, -⟩ := hex
      exact absurd hin List.not_mem_nil

/-- The end of the call.  Before it every answer was a rejection. -/
private theorem Recounts.ended (h : Recounts rid p₀ es p)
    (hrun : run Process.step p₀ es = some (p, tr)) {handler : Handler}
    (hmem : handler ∈ p.waiting) {outcome : PostOutcome} {uuid : String} {t : AnswerReadings}
    (hstep : p.step (.answer handler.rid outcome uuid t) = some (p', obs))
    (hrid : handler.rid = rid)
    (hlast : outcome.rejects = true → handler.pending.retry? = none)
    (hwaiting : p'.waiting = p.waiting.filter (fun h' => h'.rid ≠ handler.rid)) :
    Recounts rid p₀ (es ++ [.answer handler.rid outcome uuid t]) p' := by
  obtain ⟨hverdicts, haudited⟩ := h.told hrun hmem hstep hrid
  have hgone : ∀ handler' ∈ p'.waiting, handler'.rid ≠ rid := by
    intro handler' hin
    rw [hwaiting] at hin
    rw [← hrid]
    exact (mem_filter_rid hin).2
  refine ⟨step_wellNamed h.named hstep, ?_, ?_, ?_, ?_⟩
  · intro hnot
    exact absurd ((step_gives h.named hstep).1 rid (congrArg some hrid)) hnot
  · exact fun handler' hin heq => absurd heq (hgone handler' hin)
  · exact fun handler' hin heq => absurd heq (hgone handler' hin)
  · intro _ _
    rw [haudited, hverdicts, List.forall_mem_append, List.forall_mem_singleton]
    constructor
    · exact fun hboth => ⟨(h.suspended hmem hrid).1, hboth.1⟩
    · exact fun hall => ⟨hall.2, hlast hall.2⟩

/-- The steps of the request itself. -/
private theorem Recounts.answer (h : Recounts rid p₀ es p)
    (hrun : run Process.step p₀ es = some (p, tr)) {rid' : Nat} {outcome : PostOutcome}
    {uuid : String} {t : AnswerReadings}
    (hstep : p.step (.answer rid' outcome uuid t) = some (p', obs)) (hrid : rid' = rid) :
    Recounts rid p₀ (es ++ [.answer rid' outcome uuid t]) p' := by
  cases step_spec hstep with
  | stored handler outcome uuid t client inFlight outputs body response hmem haccepted hbody =>
      apply h.ended hrun hmem hstep hrid ?_ rfl
      intro hrejects
      have hrejected := outcome.attempt_eq_rejected_iff.mpr hrejects
      rw [hbody] at hrejected
      cases hrejected
  | failed handler outcome uuid t client inFlight outputs reply hmem haccepted hreply hlast =>
      apply h.ended hrun hmem hstep hrid ?_ rfl
      intro hrejects
      have hsame := hlast (outcome.attempt_eq_rejected_iff.mpr hrejects)
      unfold Pending.retry?
      cases hstage : handler.pending.stage with
      | fallback => rfl
      | primary fallback =>
          cases fallback with
          | none => rfl
          | some credential => exact if_neg (fun hne => hne (hsame credential hstage))
  | fallback handler outcome uuid t client inFlight outputs credential hmem hrejected hstage
      hoid =>
      obtain ⟨hverdicts, haudited⟩ := h.told hrun hmem hstep hrid
      obtain ⟨hnil, -⟩ := h.primary handler hmem hrid _ hstage
      have hsilent : ¬ AuthFailureAudited rid p₀ (es ++ [.answer handler.rid outcome uuid t]) := by
        rw [haudited, Pending.retry?, hstage]
        dsimp only
        rw [if_pos hoid]
        exact fun hboth => by cases hboth.2
      have hnew : ∀ handler' ∈ p.waiting.filter (fun h' => h'.rid ≠ handler.rid) ++
          [⟨handler.rid, handler.request,
            ⟨credential, handler.pending.payload, .fallback, t.send⟩⟩],
          handler'.rid = rid → handler'.pending.stage = .fallback := by
        intro handler' hin heq
        rcases List.mem_append.mp hin with hold | hlast
        · exact absurd (heq.trans hrid.symm) (mem_filter_rid hold).2
        · rw [List.mem_singleton.mp hlast]
      refine ⟨step_wellNamed h.named hstep, ?_, ?_, ?_, ?_⟩
      · intro hnot
        exact absurd ((step_gives h.named hstep).1 rid (congrArg some hrid)) hnot
      · intro handler' hin heq fallback hprimary
        rw [hnew handler' hin heq] at hprimary
        cases hprimary
      · intro _ _ _ _
        rw [hverdicts, hnil, outcome.attempt_eq_rejected_iff.mp hrejected]
        exact ⟨rfl, hsilent⟩
      · intro hover
        have hleft := hover.2
          ⟨handler.rid, handler.request, ⟨credential, handler.pending.payload, .fallback, t.send⟩⟩
          (List.mem_append_right _ (List.mem_singleton_self _))
        exact absurd hrid hleft

theorem step_recounts (h : Recounts rid p₀ es p) (hrun : run Process.step p₀ es = some (p, tr))
    (hstep : p.step e = some (p', obs)) : Recounts rid p₀ (es ++ [e]) p' := by
  by_cases hown : e.rid? = some rid
  · cases e with
    | load => cases hown
    | request rid' request t =>
        rw [Option.some.inj hown] at hstep ⊢
        exact h.arrival hrun hstep
    | answer rid' outcome uuid t => exact h.answer hrun hstep (Option.some.inj hown)
  · exact h.other hrun hstep hown

end Steps

/-- At every moment of a run the trail says of a request what the gateway said. -/
theorem run_recounts {settings : Settings} {manager : CredentialManager} {es : List Event}
    {p : Process} {tr : List Obs}
    (hrun : run Process.step (Process.start settings manager) es = some (p, tr)) (rid : Nat) :
    Recounts rid (Process.start settings manager) es p :=
  run_history_invariant
    (I := fun es p _ => Recounts rid (Process.start settings manager) es p)
    (fun _ _ _ _ _ _ hrun h hstep => step_recounts h hrun hstep)
    (start_recounts rid settings manager) hrun

/-- The rejections of a call that is over are audited, if it had any, exactly
when no rejection of the call was followed by an answer that is none. -/
theorem audited_iff (settings : Settings) (manager : CredentialManager) (es : List Event)
    (p : Process) (tr : List Obs) (rid : Nat)
    (hrun : run Process.step (Process.start settings manager) es = some (p, tr))
    (hover : p.Over rid) :
    (true ∈ verdicts rid es → AuthFailureAudited rid (Process.start settings manager) es) ↔
      (true ∈ verdicts rid es → ∀ verdict ∈ verdicts rid es, verdict = true) := by
  have hrecounts := (run_recounts hrun rid).finished hover
  constructor
  · exact fun haudited hin => (hrecounts hin).mp (haudited hin)
  · exact fun hall hin => (hrecounts hin).mpr (hall hin)

instance (rid : Nat) (p : Process) : Decidable (p.Over rid) :=
  inferInstanceAs (Decidable (rid ∈ p.seen ∧ ∀ h ∈ p.waiting, h.rid ≠ rid))

instance (rid : Nat) (p : Process) (es : List Event) : Decidable (AuthFailureAudited rid p es) :=
  inferInstanceAs (Decidable
    (∃ event ∈ (ownSteps rid p es).filterMap Obs.audit?, event.event = "auth_failure"))

/-- The gateway knows neither of the two versions. -/
def rejectedRun : List Event :=
  [.load (.ok (sampleSecret 1 "key-v1" "secret-v1")) (.at 0),
    .load (.ok (sampleSecret 2 "key-v2" "secret-v2")) (.at 1),
    .request 1 sampleRequest (.at 2),
    .answer 1 (.response 401 (.ok (.obj []))) "uuid-1" (.at 3),
    .answer 1 (.response 403 (.ok (.obj []))) "uuid-1" (.at 4)]

theorem audited_iff_rejected :
    ∃ p tr, run Process.step (Process.start sampleSettings .init) rejectedRun = some (p, tr) ∧
      p.Over 1 ∧ true ∈ verdicts 1 rejectedRun ∧
      (∀ verdict ∈ verdicts 1 rejectedRun, verdict = true) ∧
      AuthFailureAudited 1 (Process.start sampleSettings .init) rejectedRun := by
  obtain ⟨p, tr, hrun, hover, hin, hall⟩ : ∃ p tr,
      run Process.step (Process.start sampleSettings .init) rejectedRun = some (p, tr) ∧
        p.Over 1 ∧ true ∈ verdicts 1 rejectedRun ∧
          ∀ verdict ∈ verdicts 1 rejectedRun, verdict = true := exists_run (by decide +kernel)
  exact ⟨p, tr, hrun, hover, hin, hall,
    (audited_iff sampleSettings .init rejectedRun p tr 1 hrun hover).mpr (fun _ => hall) hin⟩

/-- The gateway no longer knows the second version of the credentials, and still
knows the first. -/
def rescuedRun : List Event :=
  [.load (.ok (sampleSecret 1 "key-v1" "secret-v1")) (.at 0),
    .load (.ok (sampleSecret 2 "key-v2" "secret-v2")) (.at 1),
    .request 1 sampleRequest (.at 2),
    .answer 1 (.response 401 (.ok (.obj []))) "uuid-1" (.at 3),
    .answer 1 (answerWith 200 "txn-1") "uuid-1" (.at 4)]

/-- A rejected credential leaves no event when the fallback succeeds. -/
theorem not_audited_rescued :
    ∃ p tr, run Process.step (Process.start sampleSettings .init) rescuedRun = some (p, tr) ∧
      p.Over 1 ∧ true ∈ verdicts 1 rescuedRun ∧
      ¬ AuthFailureAudited 1 (Process.start sampleSettings .init) rescuedRun :=
  exists_run (by decide +kernel)

end PaymentConnector
