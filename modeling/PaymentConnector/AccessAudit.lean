import PaymentConnector.AuditTrail
import PaymentConnector.Noninterference

/-!
# Unaudited accesses

The audit middleware writes its event after the answer has come back from below, if the
path of `request.url` is one that it audits.  An exception from below leaves it before
that, so an access is audited exactly once if its route ends with an answer, and not at
all if it ends with an exception; the client then gets the framework's bare 500.

## Main results

* `Service.step_moves` — what a step does to one request.
* `Service.audited_once_iff` — an access is audited once, under the name of the
  request and with the outcome that the client sees, exactly when its path is audited
  and no exception leaves its route.
-/

namespace PaymentConnector

open Library Library.Machine

/-- The request that an event takes a stretch further. -/
def ServiceEvent.rid? : ServiceEvent → Option Nat
  | .receive rid _ _ _ | .limit rid _ _ | .handle rid _ _ | .answer rid _ _ _ | .reach rid _ _
  | .respond rid _ => some rid
  | .load _ _ => none

/-- The route of a request raises in its first stretch: the credential check on a ttl that
cannot be a float, or the framework on an answer that cannot be rendered. -/
def Service.Raises (s : Service) (request : HttpRequest) : Prop :=
  match request.route with
  | .authorize _ => acceptsApiKey s.process.connector.settings request.xApiKey = true ∧
      s.process.connector.Untimed
  | .readiness => s.process.connector.Untimed
  | .framework _ detail => renders detail = false
  | .liveness | .metrics => False

instance (s : Service) (request : HttpRequest) : Decidable (s.Raises request) := by
  unfold Service.Raises
  split <;> infer_instance

/-- An exception leaves the route of a request, in its first stretch or after a POST. -/
def Service.Escapes (s : Service) (rid : Nat) : ServiceEvent → Prop
  | .handle rid' _ _ => rid' = rid ∧ ∃ call ∈ s.call? rid, s.Raises call.request
  | .answer rid' outcome _ _ => rid' = rid ∧ outcome.escapes = true
  | _ => False

instance (s : Service) (rid : Nat) : ∀ e, Decidable (s.Escapes rid e)
  | .handle rid' _ _ => inferInstanceAs
      (Decidable (rid' = rid ∧ ∃ call ∈ s.call? rid, s.Raises call.request))
  | .answer rid' outcome _ _ => inferInstanceAs
      (Decidable (rid' = rid ∧ outcome.escapes = true))
  | .load _ _ | .receive _ _ _ _ | .limit _ _ _ | .reach _ _ _ | .respond _ _ =>
      inferInstanceAs (Decidable False)

/-- In some step of a run one does. -/
def Escaped (rid : Nat) (s : Service) (es : List ServiceEvent) : Prop :=
  ¬ Along Service.step (fun s e => ¬ s.Escapes rid e) s es

instance (rid : Nat) (s : Service) (es : List ServiceEvent) : Decidable (Escaped rid s es) :=
  inferInstanceAs (Decidable (¬ Along Service.step (fun s e => ¬ s.Escapes rid e) s es))

/-- The access that an observation audits, as its actor and its outcome. -/
def ServiceObs.access? (o : ServiceObs) : Option (String × String) :=
  match o.audit? with
  | some event => if event.event = "api_access" then some (event.actor, event.outcome) else none
  | none => none

/-- The accesses audited in the steps of a request. -/
def accesses (rid : Nat) (s : Service) (es : List ServiceEvent) : List (String × String) :=
  (shownIn Service.step (fun e => e.rid? = some rid) s es).filterMap ServiceObs.access?

/-- What the outer middleware makes of a status. -/
def accessOutcome (statusCode : Nat) : String := if statusCode < 400 then "success" else "failure"

/-- In the steps of a request its access is audited once, under its name and with the
outcome that its client sees. -/
def AuditedOnce (rid : Nat) (request : HttpRequest) (uuid : String) (response : HttpResponse)
    (s : Service) (es : List ServiceEvent) : Prop :=
  accesses rid s es = [(request.xRequestId.getD uuid, accessOutcome response.statusCode)]

/-- The path that the audit middleware reads is under `/api/`. -/
def HttpRequest.Audited (request : HttpRequest) : Prop :=
  "/api/".toList <+: request.urlPath.toList

instance (request : HttpRequest) : Decidable request.Audited :=
  inferInstanceAs (Decidable ("/api/".toList <+: request.urlPath.toList))

/-- The answer below the middlewares is an exception. -/
def CallStage.Raised : CallStage → Prop
  | .answered (.raised _) => True
  | _ => False

/-! ## Where a request is -/

namespace Service

section Lookup

variable (s : Service)

theorem call?_rid {rid : Nat} {call : HttpCall} (h : s.call? rid = some call) : call.rid = rid := by
  simpa using List.find?_some h

theorem call?_setStage (rid rid' : Nat) (stage : CallStage) :
    (s.setStage rid stage).call? rid' =
      (s.call? rid').map fun call => if rid' = rid then { call with stage := stage } else call := by
  unfold call? setStage
  dsimp only
  induction s.calls with
  | nil => rfl
  | cons call calls ih =>
      rw [List.map_cons, List.find?_cons, List.find?_cons]
      by_cases hrid : call.rid = rid'
      · by_cases hsame : call.rid = rid
        · have heq : rid' = rid := hrid.symm.trans hsame
          simp [hrid, heq]
        · have hne : rid' ≠ rid := fun heq => hsame (hrid.trans heq)
          simp [hrid, hne]
      · have hkept : (if call.rid = rid then { call with stage := stage } else call).rid =
            call.rid := by
          split <;> rfl
        simp only [hkept, hrid, decide_false]
        exact ih

theorem call?_remove (rid rid' : Nat) :
    (s.calls.filter (fun call => call.rid ≠ rid)).find? (fun call => call.rid = rid') =
      if rid' = rid then none else s.call? rid' := by
  rw [List.find?_filter]
  split
  · rename_i hsame
    rw [List.find?_eq_none]
    intro call _ hboth
    simp [hsame] at hboth
  · rename_i hne
    unfold call?
    congr 1
    funext call
    by_cases hrid : call.rid = rid' <;> simp [hrid, hne]

end Lookup

end Service

/-! ## What a step of the process means for its request -/

theorem stageAfter_map {γ : Type} {c : γ → Obs} (h : ∀ a, (c a).reply? = none)
    (as : List γ) (obs : List Obs) : stageAfter (as.map c ++ obs) = stageAfter obs := by
  have hnone : (as.map c).findSome? Obs.reply? = none := by
    rw [List.findSome?_eq_none_iff]
    intro o hin
    obtain ⟨a, -, rfl⟩ := List.mem_map.mp hin
    exact h a
  rw [stageAfter, List.findSome?_append, hnone, Option.none_or, stageAfter]

theorem stageAfter_storedObs (h : Handler) (outcome : PostOutcome)
    (response : PaymentResponse) (outputs : List Output) (evicted : List String) :
    stageAfter (storedObs h outcome response outputs evicted) =
      .answered (.response 200 (.payment response)) := by
  rw [storedObs, stageAfter_map (fun _ => rfl)]
  show stageAfter (evicted.map Obs.evicted ++ _) = _
  rw [stageAfter_map (fun _ => rfl)]
  rfl

/-- The arrival of a request leaves it suspended or answered, with an exception exactly when
the credential check raises one. -/
theorem step_request_stage {p p' : Process} {rid : Nat} {request : AuthorizeRequest}
    {t : StartReadings} {obs : List Obs}
    (hstep : p.step (.request rid request t) = some (p', obs)) :
    (∀ h ∈ p'.waiting, h ∈ p.waiting ∨ h.rid = rid ∧ stageAfter obs = .authorizing) ∧
      ((stageAfter obs).Raised ↔ acceptsApiKey p.connector.settings request.xApiKey = true ∧
        p.connector.Untimed) := by
  have hsilent : ∀ output : Output, (Obs.output output).reply? = none := fun _ => rfl
  cases step_spec hstep with
  | refused rid request t client code detail outputs hseen hclient hcode haccepted =>
      rw [stageAfter_map hsilent]
      exact ⟨fun h hin => Or.inl hin, iff_of_false id (fun h => (haccepted h.1).2.1 h.2)⟩
  | raised rid request t exc outputs hseen haccepted huntimed =>
      rw [stageAfter_map hsilent]
      exact ⟨fun h hin => Or.inl hin, iff_of_true trivial ⟨haccepted, huntimed⟩⟩
  | replayed rid request t manager cached outputs hseen haccepted hmanager hvalid =>
      rw [stageAfter_map hsilent]
      exact ⟨fun h hin => Or.inl hin,
        iff_of_false id (fun h => Connector.not_untimed_of_ok hmanager hvalid h.2)⟩
  | posting rid request t manager client primary hseen haccepted hmanager hvalid =>
      refine ⟨?_, iff_of_false id (fun h => Connector.not_untimed_of_ok hmanager hvalid h.2)⟩
      intro h hin
      rcases List.mem_append.mp hin with hold | hnew
      · exact Or.inl hold
      · rw [List.mem_singleton.mp hnew]
        exact Or.inr ⟨rfl, rfl⟩

/-- The completion of a POST leaves its request suspended or answered, with an
exception exactly when the POST lets one out. -/
theorem step_answer_stage {p p' : Process} {rid : Nat} {outcome : PostOutcome} {uuid : String}
    {t : AnswerReadings} {obs : List Obs}
    (hstep : p.step (.answer rid outcome uuid t) = some (p', obs)) :
    (∃ h ∈ p.waiting, h.rid = rid) ∧
      (∀ h ∈ p'.waiting, h ∈ p.waiting ∧ h.rid ≠ rid ∨
        h.rid = rid ∧ stageAfter obs = .authorizing) ∧
      ((stageAfter obs).Raised ↔ outcome.escapes = true) := by
  have hsilent : ∀ output : Output, (Obs.output output).reply? = none := fun _ => rfl
  cases step_spec hstep with
  | stored handler outcome uuid t client inFlight outputs body response hmem haccepted hbody =>
      have hcontained : outcome.escapes = false := by
        simp [PostOutcome.escapes, hbody, haccepted]
      rw [stageAfter_storedObs, hcontained]
      refine ⟨⟨handler, hmem, rfl⟩, fun h hin => Or.inl (mem_filter_rid hin), ?_⟩
      exact ⟨fun h => h.elim, fun h => by cases h⟩
  | failed handler outcome uuid t client inFlight outputs reply hmem haccepted hreply =>
      rw [stageAfter_map hsilent]
      refine ⟨⟨handler, hmem, rfl⟩, fun h hin => Or.inl (mem_filter_rid hin), ?_⟩
      rcases hreply with ⟨hcontained, detail, rfl⟩ | ⟨hescapes, exc, rfl⟩
      · rw [hcontained]
        exact ⟨fun h => h.elim, fun h => by cases h⟩
      · rw [hescapes]
        exact ⟨fun _ => rfl, fun _ => trivial⟩
  | fallback handler outcome uuid t client inFlight outputs credential hmem hrejected =>
      have hcontained : outcome.escapes = false := by simp [PostOutcome.escapes, hrejected]
      rw [stageAfter_map hsilent, hcontained]
      refine ⟨⟨handler, hmem, rfl⟩, ?_, ⟨fun h => h.elim, fun h => by cases h⟩⟩
      intro h hin
      rcases List.mem_append.mp hin with hold | hnew
      · exact Or.inl (mem_filter_rid hold)
      · rw [List.mem_singleton.mp hnew]
        exact Or.inr ⟨rfl, rfl⟩

/-! ## What is shown on the way -/

/-- No access is audited, and nothing is answered. -/
structure Silent (obs : List ServiceObs) : Prop where
  audits : ∀ event ∈ obs.filterMap ServiceObs.audit?, event.event ≠ "api_access"
  responses : obs.filterMap ServiceObs.response? = []

theorem Silent.accesses {obs : List ServiceObs} (h : Silent obs) :
    obs.filterMap ServiceObs.access? = [] := by
  rw [List.filterMap_eq_nil_iff]
  intro o hin
  unfold ServiceObs.access?
  cases haudit : o.audit? with
  | none => rfl
  | some event => exact if_neg (h.audits event (List.mem_filterMap.mpr ⟨o, hin, haudit⟩))

theorem silent_nil : Silent [] where
  audits := fun _ hin => absurd hin List.not_mem_nil
  responses := rfl

theorem silent_outputs {outputs : List Output}
    (h : ∀ event ∈ auditsOf outputs, event.event ≠ "api_access") :
    Silent (outputs.map ServiceObs.output) := by
  have hsame : ServiceObs.audit? ∘ ServiceObs.output = Output.audit? := by
    funext output
    cases output <;> rfl
  refine ⟨?_, ?_⟩
  · rw [List.filterMap_map, hsame]
    exact h
  · rw [List.filterMap_map]
    exact List.filterMap_none outputs

theorem silent_process {obs : List Obs}
    (h : ∀ event ∈ obs.filterMap Obs.audit?, event.event ≠ "api_access") :
    Silent (obs.map ServiceObs.process) := by
  have hsame : ServiceObs.audit? ∘ ServiceObs.process = Obs.audit? := by
    funext o
    cases o with
    | output output => cases output <;> rfl
    | _ => rfl
  refine ⟨?_, ?_⟩
  · rw [List.filterMap_map, hsame]
    exact h
  · rw [List.filterMap_map]
    exact List.filterMap_none obs

/-! ## What a step does to one request -/

namespace Service

/-- The names of the requests on their way are given out, and a suspended handler
belongs to one of them that is in it. -/
structure Consistent (s : Service) : Prop where
  named : ∀ call ∈ s.calls, call.rid ∈ s.received
  handling : ∀ h ∈ s.process.waiting,
    ∃ call, s.call? h.rid = some call ∧ call.stage = .authorizing

theorem start_consistent (settings : Settings) (now : Rat) : (start settings now).Consistent where
  named := fun _ hin => absurd hin List.not_mem_nil
  handling := fun _ hin => absurd hin List.not_mem_nil

theorem call?_mem {s : Service} {rid : Nat} {call : HttpCall} (h : s.call? rid = some call) :
    call ∈ s.calls :=
  List.mem_of_find?_eq_some h

/-- What a step does to a request, and what it shows if it is one of its own. -/
inductive Moves (s : Service) (rid : Nat) : ServiceEvent → List ServiceObs → Option HttpCall →
    Option HttpCall → Prop
  | other {e : ServiceEvent} {obs : List ServiceObs} {call : Option HttpCall}
      (hother : e.rid? ≠ some rid) (hsilent : ∀ response, .responded rid response ∉ obs) :
      Moves s rid e obs call call
  | received (request : HttpRequest) (uuid : String) (now : Rat) :
      Moves s rid (.receive rid request uuid now) [] none
        (some ⟨rid, request, request.xRequestId.getD uuid, now, .received⟩)
  | goesOn {e : ServiceEvent} {obs : List ServiceObs} (call : HttpCall) (stage : CallStage)
      (hown : e.rid? = some rid) (hon : ∀ request uuid now, e ≠ .receive rid request uuid now)
      (hsilent : Silent obs) (hbefore : ¬ call.stage.Raised)
      (hafter : stage.Raised ↔ s.Escapes rid e) :
      Moves s rid e obs (some call) (some { call with stage := stage })
  | responded (call : HttpCall) (answer : HttpAnswer) (now : Rat)
      (hstage : call.stage = .answered answer) :
      Moves s rid (.respond rid now) (respond call answer now) (some call) none

section Steps

variable {s s' : Service} {e : ServiceEvent} {obs : List ServiceObs}

/-- A request is moved to another stage, maybe while the process runs its handler. -/
private theorem Consistent.setStage (hs : s.Consistent) {s₁ : Service}
    (hcalls : s₁.calls = s.calls) (hreceived : s₁.received = s.received) {rid : Nat}
    {call : HttpCall} (hcall : s.call? rid = some call) {stage : CallStage}
    (hwaiting : ∀ h ∈ s₁.process.waiting,
      h ∈ s.process.waiting ∧ h.rid ≠ rid ∨ h.rid = rid ∧ stage = .authorizing) :
    (s₁.setStage rid stage).Consistent := by
  have hlookup : ∀ rid', s₁.call? rid' = s.call? rid' := by
    intro rid'
    rw [call?, hcalls, call?]
  refine ⟨?_, ?_⟩
  · intro call' hin
    obtain ⟨call₀, hmem, rfl⟩ := List.mem_map.mp hin
    have hkept : (if call₀.rid = rid then { call₀ with stage := stage } else call₀).rid =
        call₀.rid := by
      split <;> rfl
    rw [hkept]
    show call₀.rid ∈ s₁.received
    rw [hreceived]
    rw [hcalls] at hmem
    exact hs.named call₀ hmem
  · intro h hin
    rw [call?_setStage, hlookup]
    rcases hwaiting h hin with ⟨hmem, hne⟩ | ⟨hrid, hstage⟩
    · obtain ⟨call', hcall', hstage'⟩ := hs.handling h hmem
      rw [hcall', Option.map_some, if_neg hne]
      exact ⟨call', rfl, hstage'⟩
    · rw [hrid, hcall, Option.map_some, if_pos rfl]
      exact ⟨_, rfl, hstage⟩

/-- A request that is not in its handler has none suspended. -/
private theorem Consistent.not_waiting (hs : s.Consistent) {rid : Nat} {call : HttpCall}
    (hcall : s.call? rid = some call) (hstage : call.stage ≠ .authorizing) :
    ∀ h ∈ s.process.waiting, h ∈ s.process.waiting ∧ h.rid ≠ rid := by
  intro h hin
  refine ⟨hin, ?_⟩
  intro hrid
  obtain ⟨call', hcall', hauthorizing⟩ := hs.handling h hin
  rw [hrid, hcall] at hcall'
  rw [Option.some.inj hcall'] at hstage
  exact hstage hauthorizing

/-- A stretch of one request, as every request sees it. -/
private theorem moves_setStage {s₁ : Service} (hcalls : s₁.calls = s.calls) {rid : Nat}
    {call : HttpCall} (hcall : s.call? rid = some call) {stage : CallStage}
    (hown : e.rid? = some rid)
    (hon : ∀ request uuid now, e ≠ .receive rid request uuid now) (hsilent : Silent obs)
    (hbefore : ¬ call.stage.Raised) (hafter : stage.Raised ↔ s.Escapes rid e) (rid' : Nat) :
    Moves s rid' e obs (s.call? rid') ((s₁.setStage rid stage).call? rid') := by
  have hlookup : s₁.call? rid' = s.call? rid' := by
    rw [call?, hcalls, call?]
  rw [call?_setStage, hlookup]
  by_cases hsame : rid' = rid
  · subst hsame
    rw [hcall, Option.map_some, if_pos rfl]
    exact .goesOn call stage hown hon hsilent hbefore hafter
  · have hid : (s.call? rid').map
        (fun call => if rid' = rid then { call with stage := stage } else call) =
          s.call? rid' := by
      simp only [if_neg hsame, Option.map_id']
    rw [hid]
    refine .other (fun h => hsame (Option.some.inj (h.symm.trans hown))) ?_
    intro response hin
    have hshown : (rid', response) ∈ obs.filterMap ServiceObs.response? :=
      List.mem_filterMap.mpr ⟨_, hin, rfl⟩
    rw [hsilent.responses] at hshown
    exact absurd hshown List.not_mem_nil

/-- The stretches that a request goes through between its arrival and its answer. -/
private theorem goesOn (e : ServiceEvent) (s₁ : Service) (stage : CallStage)
    (hs : s.Consistent) (hcalls : s₁.calls = s.calls) (hreceived : s₁.received = s.received)
    {rid : Nat} {call : HttpCall} (hcall : s.call? rid = some call)
    (hwaiting : ∀ h ∈ s₁.process.waiting,
      h ∈ s.process.waiting ∧ h.rid ≠ rid ∨ h.rid = rid ∧ stage = .authorizing)
    (hown : e.rid? = some rid) (hon : ∀ request uuid now, e ≠ .receive rid request uuid now)
    (hsilent : Silent obs) (hbefore : ¬ call.stage.Raised)
    (hafter : stage.Raised ↔ s.Escapes rid e) :
    (s₁.setStage rid stage).Consistent ∧
      ∀ rid', Moves s rid' e obs (s.call? rid') ((s₁.setStage rid stage).call? rid') :=
  ⟨hs.setStage hcalls hreceived hcall hwaiting,
    moves_setStage hcalls hcall hown hon hsilent hbefore hafter⟩

private theorem escapes_handle_iff {call : HttpCall} (hcall : s.call? call.rid = some call)
    (vault : VaultAttempt) (t : StartReadings) :
    s.Escapes call.rid (.handle call.rid vault t) ↔ s.Raises call.request := by
  simp only [Escapes, hcall, Option.mem_def, Option.some.injEq, exists_eq_left', true_and]

private theorem handle_moves (hs : s.Consistent) {call : HttpCall}
    (hcall : s.call? call.rid = some call) (hstage : call.stage = .admitted)
    {vault : VaultAttempt} {t : StartReadings}
    (hstep : s.handle call vault t = some (s', obs)) :
    s'.Consistent ∧ ∀ rid,
      Moves s rid (.handle call.rid vault t) obs (s.call? rid) (s'.call? rid) := by
  have hbefore : ¬ call.stage.Raised := by
    rw [hstage]
    exact id
  have hwaiting := hs.not_waiting hcall (by rw [hstage]; exact CallStage.noConfusion)
  have hescapes := escapes_handle_iff hcall vault t
  have hanswered : ∀ answer : HttpAnswer,
      ((CallStage.answered answer).Raised ↔ s.Raises call.request) →
        (s.setStage call.rid (.answered answer)).Consistent ∧ ∀ rid,
          Moves s rid (.handle call.rid vault t) [] (s.call? rid)
            ((s.setStage call.rid (.answered answer)).call? rid) := by
    intro answer hraised
    exact goesOn (.handle call.rid vault t) s (.answered answer) hs rfl rfl
      hcall (fun h hin => Or.inl (hwaiting h hin)) rfl (fun _ _ _ h => by cases h) silent_nil
      hbefore (hraised.trans hescapes.symm)
  unfold handle at hstep
  cases hroute : call.request.route with
  | authorize payment =>
      simp only [hroute] at hstep
      split at hstep
      · cases hstep
      · rename_i process obs' hrequest
        cases hstep
        obtain ⟨hnew, hraised⟩ := step_request_stage hrequest
        have haudits := Process.step_request_audits hrequest
        refine goesOn (.handle call.rid vault t) { s with process := process } (stageAfter obs') hs
          rfl rfl hcall ?_ rfl (fun _ _ _ h => by cases h) (silent_process ?_) hbefore
          (hraised.trans (hescapes.trans ?_).symm)
        · intro h hin
          rcases hnew h hin with hold | hsame
          · exact Or.inl (hwaiting h hold)
          · exact Or.inr hsame
        · intro event hin
          rw [haudits event hin]
          decide
        · simp only [Raises, hroute]
  | liveness =>
      simp only [hroute] at hstep
      cases hstep
      exact hanswered _ (by simp only [Raises, hroute, CallStage.Raised])
  | readiness =>
      simp only [hroute, Option.some.injEq, Prod.mk.injEq] at hstep
      obtain ⟨rfl, rfl⟩ := hstep
      have hnone := s.vaultClient.isAuthenticated_audits vault
      have hraised : ∀ credStatus,
          s.process.connector.credentialStatus t.check = credStatus →
            ((readinessStage (s.vaultClient.isAuthenticated vault).1 credStatus).Raised ↔
              s.Raises call.request) := by
        intro credStatus hstatus
        simp only [Raises, hroute, Connector.untimed_iff_credentialStatus t.check, hstatus]
        cases credStatus <;> simp [readinessStage, CallStage.Raised]
      refine goesOn (.handle call.rid vault t)
        { s with vaultClient := (s.vaultClient.isAuthenticated vault).2.1 } _ hs rfl rfl hcall
        (fun h hin => Or.inl (hwaiting h hin)) rfl (fun _ _ _ h => by cases h)
        (silent_outputs ?_) hbefore ((hraised _ rfl).trans hescapes.symm)
      intro event hin
      rw [hnone] at hin
      exact absurd hin List.not_mem_nil
  | metrics =>
      simp only [hroute] at hstep
      cases hstep
      exact hanswered _ (by simp only [Raises, hroute, CallStage.Raised])
  | framework statusCode detail =>
      simp only [hroute] at hstep
      cases hstep
      refine hanswered _ ?_
      simp only [Raises, hroute, frameworkAnswer]
      cases renders detail <;> simp [CallStage.Raised]

private theorem load_moves (hs : s.Consistent) {env : Nat → VaultAttempt} {t : LoadReadings}
    (hstep : s.load env t = some (s', obs)) :
    s'.Consistent ∧ ∀ rid, Moves s rid (.load env t) obs (s.call? rid) (s'.call? rid) := by
  simp only [load] at hstep
  split at hstep
  · cases hstep
  · rename_i read hread
    cases hload : s.process.step (.load read t) with
    | none => simp [hload] at hstep
    | some r =>
        obtain ⟨process, obs'⟩ := r
        simp only [hload, Option.some.injEq, Prod.mk.injEq] at hstep
        obtain ⟨rfl, rfl⟩ := hstep
        refine ⟨⟨hs.named, ?_⟩, ?_⟩
        · show ∀ h ∈ process.waiting, _
          cases step_spec hload with
          | load => exact hs.handling
        · intro rid
          refine .other (fun h => by cases h) ?_
          intro response hin
          rcases List.mem_append.mp hin with hbefore | hsleep
          · rcases List.mem_append.mp hbefore with hin | hin
            · obtain ⟨_, -, hcontra⟩ := List.mem_map.mp hin
              cases hcontra
            · obtain ⟨_, -, hcontra⟩ := List.mem_map.mp hin
              cases hcontra
          · unfold refreshSleep at hsleep
            split at hsleep <;> simp at hsleep

/-- The arrival of a request. -/
private theorem receive_moves (hs : s.Consistent) {rid : Nat} {request : HttpRequest}
    {uuid : String} {now : Rat} (hstep : s.step (.receive rid request uuid now) = some (s', obs)) :
    s'.Consistent ∧ ∀ rid',
      Moves s rid' (.receive rid request uuid now) obs (s.call? rid') (s'.call? rid') := by
  simp only [step] at hstep
  split at hstep
  · cases hstep
  · rename_i hnew
    cases hstep
    have hfresh : ¬ rid ∈ s.received := fun h => hnew (Or.inr h)
    have hnone : s.call? rid = none := by
      unfold call?
      rw [List.find?_eq_none]
      intro call hin hrid
      rw [← of_decide_eq_true hrid] at hfresh
      exact hfresh (hs.named call hin)
    refine ⟨⟨?_, ?_⟩, ?_⟩
    · intro call hin
      rcases List.mem_append.mp hin with hold | hlast
      · exact List.mem_cons_of_mem _ (hs.named call hold)
      · rw [List.mem_singleton.mp hlast]
        exact List.mem_cons_self
    · intro h hin
      obtain ⟨call, hcall, hstage⟩ := hs.handling h hin
      refine ⟨call, ?_, hstage⟩
      unfold call? at hcall ⊢
      rw [List.find?_append, hcall]
      rfl
    · intro rid'
      by_cases hsame : rid = rid'
      · subst hsame
        have hfound : call? ({ s with
            calls := s.calls ++ [⟨rid, request, request.xRequestId.getD uuid, now, .received⟩]
            received := rid :: s.received } : Service) rid =
            some ⟨rid, request, request.xRequestId.getD uuid, now, .received⟩ := by
          unfold call? at hnone ⊢
          rw [List.find?_append, hnone]
          simp
        rw [hnone, hfound]
        exact .received request uuid now
      · have hkept : call? ({ s with
            calls := s.calls ++ [⟨rid, request, request.xRequestId.getD uuid, now, .received⟩]
            received := rid :: s.received } : Service) rid' = s.call? rid' := by
          unfold call?
          rw [List.find?_append]
          simp [hsame]
        rw [hkept]
        exact .other (fun h => hsame (Option.some.inj h)) (fun _ hin => by cases hin)

/-- The answer of a request that is answered below the middlewares. -/
private theorem respond_moves (hs : s.Consistent) {rid : Nat} {call : HttpCall}
    {answer : HttpAnswer} {now : Rat} (hcall : s.call? rid = some call)
    (hstage : call.stage = .answered answer) :
    ({ s with calls := s.calls.filter (fun call => call.rid ≠ rid) } : Service).Consistent ∧
      ∀ rid', Moves s rid' (.respond rid now) (respond call answer now) (s.call? rid')
        (call? ({ s with calls := s.calls.filter (fun call => call.rid ≠ rid) } : Service)
          rid') := by
  have hidle := hs.not_waiting hcall (by rw [hstage]; exact CallStage.noConfusion)
  have hlookup : ∀ rid',
      call? ({ s with calls := s.calls.filter (fun call => call.rid ≠ rid) } : Service) rid' =
        if rid' = rid then none else s.call? rid' := s.call?_remove rid
  refine ⟨⟨?_, ?_⟩, ?_⟩
  · exact fun call' hin => hs.named call' (List.mem_filter.mp hin).1
  · intro h hin
    rw [hlookup, if_neg (hidle h hin).2]
    exact hs.handling h hin
  · intro rid'
    rw [hlookup]
    by_cases hsame : rid' = rid
    · rw [if_pos hsame, hsame, hcall]
      exact .responded call answer now hstage
    · rw [if_neg hsame]
      refine .other (fun h => hsame (Option.some.inj h).symm) ?_
      have hrid := s.call?_rid hcall
      intro response hin
      cases answer with
      | response statusCode body =>
          rcases List.mem_append.mp hin with hin | hin
          · obtain ⟨_, -, hcontra⟩ := List.mem_map.mp hin
            cases hcontra
          · cases List.mem_singleton.mp hin
            exact hsame hrid
      | raised exc =>
          cases List.mem_singleton.mp hin
          exact hsame hrid

/-- A step takes one request a stretch further and leaves the others where they are. -/
theorem step_moves (hs : s.Consistent) (hstep : s.step e = some (s', obs)) :
    s'.Consistent ∧ ∀ rid, Moves s rid e obs (s.call? rid) (s'.call? rid) := by
  cases e with
  | load env t => exact load_moves hs hstep
  | receive rid request uuid now => exact receive_moves hs hstep
  | limit rid created now =>
      simp only [step] at hstep
      split at hstep
      · rename_i request _ _ hcall
        have hidle := hs.not_waiting hcall CallStage.noConfusion
        have haudits := s.rateLimit.dispatch_audits request.client created now
        generalize s.rateLimit.dispatch request.client created now = r at hstep haudits
        obtain ⟨rateLimit, dispatch, outputs, evicted⟩ := r
        dsimp only at haudits
        have hlimited : ∀ stage : CallStage, ¬ stage.Raised →
            (setStage { s with rateLimit := rateLimit } rid stage).Consistent ∧ ∀ rid',
              Moves s rid' (.limit rid created now) (outputs.map .output) (s.call? rid')
                ((setStage { s with rateLimit := rateLimit } rid stage).call? rid') := by
          intro stage hraised
          refine goesOn (.limit rid created now) { s with rateLimit := rateLimit } stage hs rfl rfl
            hcall (fun h hin => Or.inl (hidle h hin)) rfl (fun _ _ _ h => by cases h)
            (silent_outputs ?_) id (iff_of_false hraised id)
          rw [haudits]
          exact fun _ hin => absurd hin List.not_mem_nil
        cases dispatch with
        | callNext =>
            cases hstep
            exact hlimited .admitted id
        | response statusCode detail =>
            cases hstep
            exact hlimited (.answered (.response statusCode (.detail (.str detail)))) id
      · cases hstep
  | handle rid vault t =>
      simp only [step] at hstep
      split at hstep
      · rename_i rid' request requestId startTime hcall
        have hrid : rid' = rid := s.call?_rid hcall
        rw [hrid] at hcall
        exact handle_moves hs hcall rfl hstep
      · cases hstep
  | answer rid outcome uuid t =>
      simp only [step] at hstep
      split at hstep
      · cases hstep
      · rename_i process obs' hanswer
        cases hstep
        obtain ⟨⟨h, hmem, hrid⟩, hwaiting, hraised⟩ := step_answer_stage hanswer
        obtain ⟨call, hcall, hstage⟩ := hs.handling h hmem
        rw [hrid] at hcall
        refine goesOn (.answer rid outcome uuid t) { s with process := process } (stageAfter obs')
          hs rfl rfl hcall hwaiting rfl (fun _ _ _ h => by cases h) (silent_process ?_) ?_ ?_
        · obtain ⟨_, -, -, ⟨-, -, baseUrl, hone⟩ | ⟨-, hnone⟩⟩ :=
            Process.step_answer_audits hanswer
          · rw [hone, List.forall_mem_singleton]
            show "auth_failure" ≠ "api_access"
            decide
          · rw [hnone]
            exact fun _ hin => absurd hin List.not_mem_nil
        · rw [hstage]
          exact id
        · exact hraised.trans ⟨fun h => ⟨rfl, h⟩, fun h => h.2⟩
  | reach rid statusCode now =>
      simp only [step] at hstep
      split at hstep
      · rename_i vaultConnected credStatus hcall
        simp only [Option.some.injEq, Prod.mk.injEq] at hstep
        obtain ⟨rfl, rfl⟩ := hstep
        have hidle := hs.not_waiting hcall CallStage.noConfusion
        refine goesOn (.reach rid statusCode now) s _ hs rfl rfl hcall
          (fun h hin => Or.inl (hidle h hin)) rfl (fun _ _ _ h => by cases h)
          (silent_outputs ?_) id (iff_of_false id id)
        intro event hin
        rw [readiness_audits _ _ _ _ _ event hin]
        decide
      · cases hstep
  | respond rid now =>
      simp only [step] at hstep
      split at hstep
      · rename_i rid' request requestId startTime answer hcall
        cases hstep
        have hrid : rid' = rid := s.call?_rid hcall
        rw [hrid] at hcall
        exact respond_moves hs hcall rfl
      · cases hstep

/-- A name is given out by the arrival of its request, once. -/
theorem step_received (hstep : s.step e = some (s', obs)) (rid : Nat) :
    rid ∈ s'.received ↔
      rid ∈ s.received ∨ ∃ request uuid now, e = .receive rid request uuid now := by
  have hkept : (∀ request uuid now, e ≠ .receive rid request uuid now) →
      s'.received = s.received → (rid ∈ s'.received ↔
        rid ∈ s.received ∨ ∃ request uuid now, e = .receive rid request uuid now) := by
    intro hnot hsame
    rw [hsame]
    refine (or_iff_left ?_).symm
    rintro ⟨request, uuid, now, heq⟩
    exact hnot request uuid now heq
  cases e with
  | receive rid' request uuid now =>
      simp only [step] at hstep
      split at hstep
      · cases hstep
      · cases hstep
        rw [List.mem_cons, or_comm]
        refine or_congr_right ?_
        constructor
        · intro heq
          rw [heq]
          exact ⟨request, uuid, now, rfl⟩
        · rintro ⟨_, _, _, heq⟩
          cases heq
          rfl
  | _ =>
      apply hkept (fun _ _ _ h => by cases h)
      simp only [step, load, handle] at hstep
      repeat' split at hstep
      all_goals cases hstep
      all_goals rfl

theorem receive_fresh {rid : Nat} {request : HttpRequest} {uuid : String} {now : Rat}
    (hstep : s.step (.receive rid request uuid now) = some (s', obs)) : ¬ rid ∈ s.received := by
  simp only [step] at hstep
  split at hstep
  · cases hstep
  · rename_i hnew
    exact fun h => hnew (Or.inr h)

end Steps

/-- What the outer middlewares audit of an answer. -/
theorem respond_accesses (call : HttpCall) (answer : HttpAnswer) (now : Rat) :
    (respond call answer now).filterMap ServiceObs.access? =
      match answer with
      | .response statusCode _ =>
          if call.request.Audited then [(call.requestId, accessOutcome statusCode)] else []
      | .raised _ => [] := by
  cases answer with
  | raised exc => rfl
  | response statusCode body =>
      dsimp only
      by_cases haudited : call.request.Audited
      · have hpath : "/api/".toList <+: call.request.urlPath.toList := haudited
        simp only [respond, auditApiAccess, if_pos hpath, if_pos haudited]
        rfl
      · have hpath : ¬ "/api/".toList <+: call.request.urlPath.toList := haudited
        simp only [respond, auditApiAccess, if_neg hpath, if_neg haudited]
        rfl

/-! ## Runs -/

/-- What a run says of a request, by where the request is. -/
structure Accounts (rid : Nat) (s₀ : Service) (es : List ServiceEvent) (s : Service)
    (tr : List ServiceObs) : Prop where
  consistent : s.Consistent
  arrived : ∀ request uuid now, .receive rid request uuid now ∈ es → rid ∈ s.received
  before : ¬ rid ∈ s.received →
    accesses rid s₀ es = [] ∧ (∀ response, .responded rid response ∉ tr) ∧ ¬ Escaped rid s₀ es
  onTheWay : ∀ call, s.call? rid = some call →
    accesses rid s₀ es = [] ∧ (∀ response, .responded rid response ∉ tr) ∧
      (call.stage.Raised ↔ Escaped rid s₀ es) ∧
      ∀ request uuid now, .receive rid request uuid now ∈ es →
        call.request = request ∧ call.requestId = request.xRequestId.getD uuid
  finished : s.call? rid = none → ∀ request uuid now response,
    .receive rid request uuid now ∈ es → .responded rid response ∈ tr →
      (AuditedOnce rid request uuid response s₀ es ↔ request.Audited ∧ ¬ Escaped rid s₀ es)

section Runs

variable {rid : Nat} {s₀ s s' : Service} {es : List ServiceEvent} {e : ServiceEvent}
  {tr obs : List ServiceObs}

private theorem accesses_concat (hrun : run step s₀ es = some (s, tr))
    (hstep : s.step e = some (s', obs)) :
    accesses rid s₀ (es ++ [e]) = accesses rid s₀ es ++
      if e.rid? = some rid then obs.filterMap ServiceObs.access? else [] := by
  rw [accesses, shownIn_concat hrun hstep, List.filterMap_append, accesses]
  by_cases hown : e.rid? = some rid <;> simp [hown]

private theorem escaped_concat (hrun : run step s₀ es = some (s, tr)) :
    Escaped rid s₀ (es ++ [e]) ↔ Escaped rid s₀ es ∨ s.Escapes rid e := by
  simp only [Escaped, along_concat_iff hrun, not_and_or, not_not]

private theorem not_escapes_of_other (h : e.rid? ≠ some rid) : ¬ s.Escapes rid e := by
  cases e with
  | handle rid' vault t => exact fun hescapes => h (congrArg some hescapes.1)
  | answer rid' outcome uuid t => exact fun hescapes => h (congrArg some hescapes.1)
  | _ => exact id

/-- A request that is on its way has arrived, and no step undoes that. -/
private theorem Accounts.still_received {call : HttpCall} (h : Accounts rid s₀ es s tr)
    (hstep : s.step e = some (s', obs)) (hcall : s.call? rid = some call) :
    rid ∈ s'.received := by
  apply (step_received hstep rid).mpr
  rw [← s.call?_rid hcall]
  exact Or.inl (h.consistent.named call (call?_mem hcall))

/-- Steps of other requests. -/
private theorem Accounts.other (h : Accounts rid s₀ es s tr)
    (hrun : run step s₀ es = some (s, tr)) (hstep : s.step e = some (s', obs))
    (hother : e.rid? ≠ some rid) (hsame : s'.call? rid = s.call? rid)
    (hsilent : ∀ response, .responded rid response ∉ obs) :
    Accounts rid s₀ (es ++ [e]) s' (tr ++ obs) := by
  have haccesses : accesses rid s₀ (es ++ [e]) = accesses rid s₀ es := by
    rw [accesses_concat hrun hstep, if_neg hother, List.append_nil]
  have hescaped : Escaped rid s₀ (es ++ [e]) ↔ Escaped rid s₀ es := by
    rw [escaped_concat hrun, or_iff_left (not_escapes_of_other hother)]
  have hreceive : ∀ request uuid now, .receive rid request uuid now ∈ es ++ [e] →
      .receive rid request uuid now ∈ es := by
    intro request uuid now hin
    rcases List.mem_append.mp hin with hold | hnew
    · exact hold
    · rw [← List.mem_singleton.mp hnew] at hother
      exact absurd rfl hother
  have hresponded : ∀ response, .responded rid response ∈ tr ++ obs ↔
      .responded rid response ∈ tr := by
    intro response
    rw [List.mem_append, or_iff_left (hsilent response)]
  have hgiven : rid ∈ s'.received ↔ rid ∈ s.received := by
    rw [step_received hstep]
    refine or_iff_left ?_
    rintro ⟨request, uuid, now, heq⟩
    rw [heq] at hother
    exact hother rfl
  refine ⟨(step_moves h.consistent hstep).1, ?_, ?_, ?_, ?_⟩
  · exact fun request uuid now hin => hgiven.mpr (h.arrived _ _ _ (hreceive _ _ _ hin))
  · simp only [hgiven, haccesses, hresponded, hescaped]
    exact h.before
  · intro call hcall
    rw [hsame] at hcall
    obtain ⟨hnone, hsilent, hraised, hrequest⟩ := h.onTheWay call hcall
    simp only [haccesses, hresponded, hescaped]
    exact ⟨hnone, hsilent, hraised, fun _ _ _ hin => hrequest _ _ _ (hreceive _ _ _ hin)⟩
  · intro hgone request uuid now response hin hresponse
    rw [hsame] at hgone
    rw [hresponded] at hresponse
    simp only [AuditedOnce, haccesses, hescaped]
    exact h.finished hgone request uuid now response (hreceive _ _ _ hin) hresponse

/-- The arrival of the request. -/
private theorem Accounts.arrival (h : Accounts rid s₀ es s tr) {request : HttpRequest}
    {uuid : String} {now : Rat} (hrun : run step s₀ es = some (s, tr))
    (hstep : s.step (.receive rid request uuid now) = some (s', []))
    (hcall : s'.call? rid =
      some ⟨rid, request, request.xRequestId.getD uuid, now, .received⟩) :
    Accounts rid s₀ (es ++ [.receive rid request uuid now]) s' (tr ++ []) := by
  obtain ⟨hnone, hsilent, hcontained⟩ := h.before (receive_fresh hstep)
  have hgiven : rid ∈ s'.received :=
    (step_received hstep rid).mpr (Or.inr ⟨request, uuid, now, rfl⟩)
  refine ⟨(step_moves h.consistent hstep).1, fun _ _ _ _ => hgiven,
    fun hnot => absurd hgiven hnot, ?_, ?_⟩
  · intro call hcall'
    rw [hcall] at hcall'
    rw [← Option.some.inj hcall', accesses_concat hrun hstep, hnone, escaped_concat hrun,
      List.append_nil]
    refine ⟨?_, hsilent, iff_of_false id ?_, ?_⟩
    · split <;> rfl
    · intro hor
      rcases hor with hbefore | hcontra
      · exact hcontained hbefore
      · exact hcontra
    · intro request' uuid' now' hin
      rcases List.mem_append.mp hin with hold | hnew
      · exact absurd (h.arrived _ _ _ hold) (receive_fresh hstep)
      · cases List.mem_singleton.mp hnew
        exact ⟨rfl, rfl⟩
  · intro hgone
    rw [hcall] at hgone
    cases hgone

/-- The stretches between its arrival and its answer. -/
private theorem Accounts.goesOn (h : Accounts rid s₀ es s tr)
    (hrun : run step s₀ es = some (s, tr)) (hstep : s.step e = some (s', obs))
    {call : HttpCall} {stage : CallStage} (hcall : s.call? rid = some call)
    (hcall' : s'.call? rid = some { call with stage := stage }) (hown : e.rid? = some rid)
    (hon : ∀ request uuid now, e ≠ .receive rid request uuid now) (hsilent : Silent obs)
    (hbefore : ¬ call.stage.Raised) (hafter : stage.Raised ↔ s.Escapes rid e) :
    Accounts rid s₀ (es ++ [e]) s' (tr ++ obs) := by
  obtain ⟨hnone, hunanswered, hraised, hrequest⟩ := h.onTheWay call hcall
  have hgiven : rid ∈ s'.received := h.still_received hstep hcall
  refine ⟨(step_moves h.consistent hstep).1, fun _ _ _ _ => hgiven,
    fun hnot => absurd hgiven hnot, ?_, ?_⟩
  · intro call' heq
    rw [hcall'] at heq
    rw [← Option.some.inj heq, accesses_concat hrun hstep, hnone, if_pos hown, hsilent.accesses,
      escaped_concat hrun]
    refine ⟨rfl, ?_, ?_, ?_⟩
    · intro response hin
      rcases List.mem_append.mp hin with hold | hnew
      · exact hunanswered response hold
      · have hshown : (rid, response) ∈ obs.filterMap ServiceObs.response? :=
          List.mem_filterMap.mpr ⟨_, hnew, rfl⟩
        rw [hsilent.responses] at hshown
        exact absurd hshown List.not_mem_nil
    · rw [or_iff_right (fun hescaped => hbefore (hraised.mpr hescaped))]
      exact hafter
    · intro request uuid now hin
      rcases List.mem_append.mp hin with hold | hnew
      · exact hrequest request uuid now hold
      · exact absurd (List.mem_singleton.mp hnew).symm (hon request uuid now)
  · intro hgone
    rw [hcall'] at hgone
    cases hgone

/-- Its answer. -/
private theorem Accounts.responded (h : Accounts rid s₀ es s tr) {now : Rat} {call : HttpCall}
    {answer : HttpAnswer} (hrun : run step s₀ es = some (s, tr))
    (hstep : s.step (.respond rid now) = some (s', respond call answer now))
    (hcall : s.call? rid = some call) (hstage : call.stage = .answered answer)
    (hgone : s'.call? rid = none) :
    Accounts rid s₀ (es ++ [.respond rid now]) s' (tr ++ respond call answer now) := by
  obtain ⟨hnone, hunanswered, hraised, hrequest⟩ := h.onTheWay call hcall
  have hgiven : rid ∈ s'.received := h.still_received hstep hcall
  refine ⟨(step_moves h.consistent hstep).1, fun _ _ _ _ => hgiven,
    fun hnot => absurd hgiven hnot, ?_, ?_⟩
  · intro call' heq
    rw [hgone] at heq
    cases heq
  · intro _ request uuid arrived response hin hresponse
    have hreceived : .receive rid request uuid arrived ∈ es := by
      rcases List.mem_append.mp hin with hold | hnew
      · exact hold
      · cases List.mem_singleton.mp hnew
    obtain ⟨hsame, hid⟩ := hrequest request uuid arrived hreceived
    have hanswered := (List.mem_append.mp hresponse).resolve_left (hunanswered response)
    have hown : (ServiceEvent.respond rid now).rid? = some rid := rfl
    have hescaped : Escaped rid s₀ (es ++ [.respond rid now]) ↔ call.stage.Raised := by
      rw [escaped_concat hrun, hraised]
      exact or_iff_left id
    rw [AuditedOnce, accesses_concat hrun hstep, hnone, List.nil_append, if_pos hown,
      respond_accesses call answer now, hescaped, hstage, ← hid, hsame]
    cases answer with
    | response statusCode body =>
        have hshown : response.statusCode = statusCode := by
          rcases List.mem_append.mp hanswered with hin | hin
          · obtain ⟨_, -, hcontra⟩ := List.mem_map.mp hin
            cases hcontra
          · cases List.mem_singleton.mp hin
            rfl
        dsimp only
        rw [hshown]
        by_cases haudited : request.Audited
        · rw [if_pos haudited]
          exact iff_of_true rfl ⟨haudited, id⟩
        · rw [if_neg haudited]
          exact iff_of_false (fun hnil => by cases hnil) (fun hboth => haudited hboth.1)
    | raised exc => exact iff_of_false (fun hnil => by cases hnil) (fun hboth => hboth.2 trivial)

end Runs

/-- The requests answered in a run, with the statuses of the answers. -/
def statuses (tr : List ServiceObs) : List (Nat × Nat) :=
  (tr.filterMap ServiceObs.response?).map fun r => (r.1, r.2.statusCode)

end Service

end PaymentConnector
