import PaymentConnector.Process

/-!
# Where a 200 comes from

Two laws about the answers of the endpoint, both carried through the
idempotency cache.

* A 200 reports a transaction of the gateway: the endpoint turns every answer
  that is neither 401, 403 nor 5xx into a 200, and draws a transaction id when
  the body has none, so the law holds exactly in the runs whose accepted
  answers are 2xx answers that carry a transaction id.
* A 200 is about the payment it was asked for: the cache is looked up by key
  alone, so the law holds exactly in the runs in which a cached key is only
  reused for the payment that filled it.

## Main results

* `genuine_iff` — the exact condition for the first law, on the answers.
* `ownPayment_iff` — the exact condition for the second law.
* `ownPayment_of_one_payment_per_key` — clients that use a key for one payment
  only get their own payment back.
-/

namespace PaymentConnector

open Library Library.Machine

/-! ## Transactions of the gateway -/

/-- The transaction id that a 2xx answer with a JSON object reports. -/
def PostOutcome.transaction? : PostOutcome → Option String
  | .response statusCode (.ok (.obj kvs)) =>
      if 200 ≤ statusCode ∧ statusCode < 300 then
        match (objDict kvs).find? "transaction_id" with
        | some (.str transactionId) => some transactionId
        | _ => none
      else none
  | _ => none

/-- The handler reads off a reported transaction id what the gateway wrote. -/
theorem PostOutcome.transaction?_spec {outcome : PostOutcome} {transactionId : String}
    (h : outcome.transaction? = some transactionId) :
    ∃ body, outcome.attempt = .returned body ∧
      ∀ default, body.get "transaction_id" default = .str transactionId := by
  unfold PostOutcome.transaction? at h
  split at h
  · rename_i statusCode kvs
    split at h
    · rename_i hcode
      split at h
      · rename_i hfind
        rw [Option.some.injEq] at h
        have hrejected : ¬ (statusCode = 401 ∨ statusCode = 403) := by omega
        have hserver : ¬ 500 ≤ statusCode := by omega
        refine ⟨objDict kvs, ?_, ?_⟩
        · simp [PostOutcome.attempt, hrejected, hserver, pyDict]
        · intro default
          simp [PyDict.get, hfind, h]
      · cases h
    · cases h
  · cases h

theorem PostOutcome.accepted_of_transaction? {outcome : PostOutcome} {transactionId : String}
    (h : outcome.transaction? = some transactionId) : outcome.accepted = true := by
  obtain ⟨body, hattempt, hget⟩ := PostOutcome.transaction?_spec h
  simp [PostOutcome.accepted, hattempt, hget]

/-- A transaction that the gateway reported to a handler: the handler, the
idempotency key it sent and the transaction id. -/
def report? : Obs → Option (Nat × String × String)
  | .answered rid key outcome => outcome.transaction?.map (fun transactionId =>
      (rid, key, transactionId))
  | _ => none

/-- The transactions the gateway has reported so far. -/
def reports (tr : List Obs) : List (Nat × String × String) := tr.filterMap report?

theorem mem_reports_iff {tr : List Obs} {rid : Nat} {key transactionId : String} :
    (rid, key, transactionId) ∈ reports tr ↔
      ∃ outcome, .answered rid key outcome ∈ tr ∧ outcome.transaction? = some transactionId := by
  rw [reports, List.mem_filterMap]
  constructor
  · intro h
    obtain ⟨x, hx, hreport⟩ := h
    cases x with
    | answered rid' key' outcome =>
        simp only [report?, Option.map_eq_some_iff, Prod.mk.injEq] at hreport
        obtain ⟨T, hT, rfl, rfl, rfl⟩ := hreport
        exact ⟨outcome, hx, hT⟩
    | _ => cases hreport
  · intro h
    obtain ⟨outcome, hx, hT⟩ := h
    exact ⟨.answered rid key outcome, hx, by simp [report?, hT]⟩

/-- A response that is stored or given out, given what was shown before it,
names a transaction that the gateway reported: a fresh one to this very
handler, a replayed one to some handler of the same key. -/
def Genuine (tr : List Obs) : Obs → Prop
  | .stored rid key response => (rid, key, response.transactionId) ∈ reports tr
  | .replied rid request (.ok response) =>
      (rid, request.key, response.transactionId) ∈ reports tr
  | .replied _ request (.replay response) =>
      (request.key, response.transactionId) ∈ (reports tr).map Prod.snd
  | _ => True

/-- Every answer the code accepts reports a transaction. -/
def Event.Reporting : Event → Prop
  | .answer _ outcome _ _ => outcome.accepted = true → outcome.transaction? ≠ none
  | _ => True

/-- What the answers so far tell about the state. -/
structure Reported (p : Process) (tr : List Obs) : Prop where
  named : p.WellNamed
  seen : ∀ rid key outcome, .answered rid key outcome ∈ tr → rid ∈ p.seen
  waiting : ∀ h ∈ p.waiting, ∀ key outcome, .answered h.rid key outcome ∈ tr →
    outcome.accepted = false
  cached : ∀ key response, p.connector.idempotencyCache.get? key = some response →
    (key, response.transactionId) ∈ (reports tr).map Prod.snd

section Contributions

@[simp] private theorem reports_nil : reports [] = [] := rfl

@[simp] private theorem reports_cons (x : Obs) (tr : List Obs) :
    reports (x :: tr) = (report? x).toList ++ reports tr := by
  cases h : report? x <;> simp [reports, h]

@[simp] private theorem reports_append (tr tr' : List Obs) :
    reports (tr ++ tr') = reports tr ++ reports tr' :=
  List.filterMap_append

@[simp] private theorem reports_outputs (outputs : List Output) :
    reports (outputs.map Obs.output) = [] :=
  filterMap_map_eq_nil (fun _ => rfl) outputs

@[simp] private theorem reports_evictions (keys : List String) :
    reports (keys.map Obs.evicted) = [] :=
  filterMap_map_eq_nil (fun _ => rfl) keys

private theorem genuine_outputs (outputs : List Output) :
    ∀ x ∈ outputs.map Obs.output, ∀ tr, Genuine tr x :=
  forall_mem_map (fun _ _ => trivial) outputs

private theorem genuine_evictions (keys : List String) :
    ∀ x ∈ keys.map Obs.evicted, ∀ tr, Genuine tr x :=
  forall_mem_map (fun _ _ => trivial) keys

end Contributions

private theorem reports_mono {tr obs : List Obs} {key transactionId : String}
    (h : (key, transactionId) ∈ (reports tr).map Prod.snd) :
    (key, transactionId) ∈ (reports (tr ++ obs)).map Prod.snd := by
  rw [reports_append, List.map_append]
  exact List.mem_append_left _ h

/-- A step that answers no handler keeps what is known about the others. -/
private theorem Reported.of_silent {p p' : Process} {tr obs : List Obs} (h : Reported p tr)
    (hnamed : p'.WellNamed) (hseen : ∀ rid ∈ p.seen, rid ∈ p'.seen)
    (hwaiting : ∀ h ∈ p'.waiting, h ∈ p.waiting ∨ ¬ h.rid ∈ p.seen)
    (hcached : ∀ key, p'.connector.idempotencyCache.get? key =
      p.connector.idempotencyCache.get? key)
    (hsilent : ∀ rid key outcome, ¬ .answered rid key outcome ∈ obs) :
    Reported p' (tr ++ obs) := by
  refine
    { named := hnamed
      seen := ?_
      waiting := ?_
      cached := ?_ }
  · intro rid key outcome hmem
    rcases List.mem_append.mp hmem with hold | hnew
    · exact hseen rid (h.seen rid key outcome hold)
    · exact absurd hnew (hsilent rid key outcome)
  · intro handler hin key outcome hmem
    rcases List.mem_append.mp hmem with hold | hnew
    · rcases hwaiting handler hin with hwas | hfresh
      · exact h.waiting handler hwas key outcome hold
      · exact absurd (h.seen handler.rid key outcome hold) hfresh
    · exact absurd hnew (hsilent handler.rid key outcome)
  · intro key response hget
    rw [hcached key] at hget
    exact reports_mono (h.cached key response hget)

/-- A step that answers one handler, unless it stores. -/
private theorem Reported.of_answered {p p' : Process} {tr obs : List Obs} (h : Reported p tr)
    {handler : Handler} (outcome : PostOutcome) (hnamed : p'.WellNamed)
    (hmem : handler ∈ p.waiting) (hseen : p'.seen = p.seen)
    (hwaiting : ∀ h' ∈ p'.waiting, (h' ∈ p.waiting ∧ h'.rid ≠ handler.rid) ∨
      (h'.rid = handler.rid ∧ outcome.accepted = false))
    (hcached : ∀ key response, p'.connector.idempotencyCache.get? key = some response →
      (key, response.transactionId) ∈ (reports (tr ++ obs)).map Prod.snd)
    (hanswered : ∀ rid key outcome', .answered rid key outcome' ∈ obs →
      rid = handler.rid ∧ outcome' = outcome) :
    Reported p' (tr ++ obs) := by
  refine
    { named := hnamed
      seen := ?_
      waiting := ?_
      cached := hcached }
  · intro rid key outcome' hin
    rw [hseen]
    rcases List.mem_append.mp hin with hold | hnew
    · exact h.seen rid key outcome' hold
    · rw [(hanswered rid key outcome' hnew).1]
      exact h.named.named handler hmem
  · intro h' hin key outcome' hin'
    rcases hwaiting h' hin with hother | hsame
    · rcases List.mem_append.mp hin' with hold | hnew
      · exact h.waiting h' hother.1 key outcome' hold
      · exact absurd (hanswered h'.rid key outcome' hnew).1 hother.2
    · rcases List.mem_append.mp hin' with hold | hnew
      · rw [hsame.1] at hold
        exact h.waiting handler hmem key outcome' hold
      · rw [(hanswered h'.rid key outcome' hnew).2]
        exact hsame.2

section Stored

variable (tr : List Obs) (handler : Handler) (outcome : PostOutcome) (response : PaymentResponse)
  (outputs : List Output) (evicted : List String)

private theorem reports_storedObs :
    reports (tr ++ storedObs handler outcome response outputs evicted) =
      reports tr ++ (report? (.answered handler.rid handler.request.key outcome)).toList := by
  simp [storedObs, report?]

private theorem chronicle_storedObs_iff :
    Chronicle Genuine tr (storedObs handler outcome response outputs evicted) ↔
      (handler.rid, handler.request.key, response.transactionId) ∈
        reports (tr ++ storedObs handler outcome response outputs evicted) := by
  rw [reports_storedObs, storedObs, chronicle_append_of_forall (genuine_outputs outputs)]
  simp only [Chronicle, chronicle_append_of_forall (genuine_evictions evicted), Genuine,
    reports_append, reports_cons, reports_nil, reports_outputs, reports_evictions,
    List.append_nil, List.append_assoc, true_and, and_true]
  simp [report?]

end Stored

/-- What a store needs to keep the cache reporting. -/
private theorem cached_of_stored {p : Process} {tr obs : List Obs} (h : Reported p tr)
    {handler : Handler} {response : PaymentResponse}
    (hreport : (handler.rid, handler.request.key, response.transactionId) ∈ reports (tr ++ obs)) :
    ∀ key r, (storeIdempotency handler.request.key response
        p.connector.idempotencyCache).1.get? key = some r →
      (key, r.transactionId) ∈ (reports (tr ++ obs)).map Prod.snd := by
  intro key r hget
  rcases get?_storeIdempotency_eq_some hget with hown | hother
  · rw [hown.1, hown.2]
    exact List.mem_map_of_mem hreport
  · exact reports_mono (h.cached key r hother.2)

/-- Good steps keep the invariant. -/
private theorem step_reported {p p' : Process} {tr obs : List Obs} {e : Event}
    (h : Reported p tr) (hstep : p.step e = some (p', obs)) (hgood : Chronicle Genuine tr obs) :
    Reported p' (tr ++ obs) := by
  have hnamed := step_wellNamed h.named hstep
  cases step_spec hstep with
  | load read t manager manager' result outputs =>
      exact h.of_silent hnamed (fun _ hin => hin) (fun _ hin => Or.inl hin) (fun _ => rfl)
        (by simp)
  | refused rid request t client code detail outputs =>
      exact h.of_silent hnamed (fun _ hin => List.mem_cons_of_mem rid hin)
        (fun _ hin => Or.inl hin) (fun _ => rfl) (by simp)
  | raised rid request t exc outputs =>
      exact h.of_silent hnamed (fun _ hin => List.mem_cons_of_mem rid hin)
        (fun _ hin => Or.inl hin) (fun _ => rfl) (by simp)
  | replayed rid request t manager cached outputs =>
      exact h.of_silent hnamed (fun _ hin => List.mem_cons_of_mem rid hin)
        (fun _ hin => Or.inl hin) (fun key => OrderedDict.get?_moveToEnd _ _ key) (by simp)
  | posting rid request t manager client primary hseen =>
      refine h.of_silent hnamed (fun _ hin => List.mem_cons_of_mem rid hin) ?_ (fun _ => rfl)
        (by simp)
      intro handler hin
      rcases List.mem_append.mp hin with hold | hnew
      · exact Or.inl hold
      · rw [List.mem_singleton.mp hnew]
        exact Or.inr hseen
  | stored handler outcome uuid t client inFlight outputs body response hmem =>
      have hreport := (chronicle_storedObs_iff tr handler outcome response outputs _).mp hgood
      refine h.of_answered outcome hnamed hmem rfl (fun _ hin => Or.inl (mem_filter_rid hin))
        (cached_of_stored h hreport) ?_
      intro rid key outcome' hin
      simp [storedObs] at hin
      exact ⟨hin.1, hin.2.2⟩
  | failed handler outcome uuid t client inFlight outputs reply hmem =>
      refine h.of_answered outcome hnamed hmem rfl (fun _ hin => Or.inl (mem_filter_rid hin))
        (fun key r hget => reports_mono (h.cached key r hget)) ?_
      intro rid key outcome' hin
      simp at hin
      exact ⟨hin.1, hin.2.2⟩
  | fallback handler outcome uuid t client inFlight outputs credential hmem hrejected =>
      have hrefused : outcome.accepted = false := by simp [PostOutcome.accepted, hrejected]
      refine h.of_answered outcome hnamed hmem rfl ?_
        (fun key r hget => reports_mono (h.cached key r hget)) ?_
      · intro h' hin
        rcases List.mem_append.mp hin with hold | hnew
        · exact Or.inl (mem_filter_rid hold)
        · rw [List.mem_singleton.mp hnew]
          exact Or.inr ⟨rfl, hrefused⟩
      · intro rid key outcome' hin
        simp at hin
        exact ⟨hin.1, hin.2.2⟩

/-- From an invariant state a step is good exactly when its answer reports. -/
private theorem step_genuine_iff {p p' : Process} {tr obs : List Obs} {e : Event}
    (h : Reported p tr) (hstep : p.step e = some (p', obs)) :
    Chronicle Genuine tr obs ↔ e.Reporting := by
  cases step_spec hstep with
  | load read t manager manager' result outputs =>
      rw [chronicle_append_of_forall (genuine_outputs outputs)]
      exact ⟨fun _ => trivial, fun _ => ⟨trivial, trivial⟩⟩
  | refused rid request t client code detail outputs =>
      rw [chronicle_append_of_forall (genuine_outputs outputs)]
      exact ⟨fun _ => trivial, fun _ => ⟨trivial, trivial⟩⟩
  | raised rid request t exc outputs =>
      rw [chronicle_append_of_forall (genuine_outputs outputs)]
      exact ⟨fun _ => trivial, fun _ => ⟨trivial, trivial⟩⟩
  | replayed rid request t manager cached outputs hseen haccepted hmanager hvalid hcached =>
      rw [chronicle_append_of_forall (genuine_outputs outputs)]
      refine ⟨fun _ => trivial, fun _ => ⟨?_, trivial⟩⟩
      exact reports_mono (h.cached request.key cached hcached)
  | posting => exact ⟨fun _ => trivial, fun _ => ⟨trivial, trivial⟩⟩
  | stored handler outcome uuid t client inFlight outputs body response hmem haccepted hbody
      hbuild =>
      have hT := (buildResponse_ok hbuild).1
      rw [chronicle_storedObs_iff, reports_storedObs, List.mem_append]
      constructor
      · intro hreport _ hnone
        rcases hreport with hold | hnew
        · obtain ⟨outcome', hin, hsome⟩ := mem_reports_iff.mp hold
          have hrefused := h.waiting handler hmem handler.request.key outcome' hin
          rw [PostOutcome.accepted_of_transaction? hsome] at hrefused
          cases hrefused
        · simp [report?, hnone] at hnew
      · intro hreporting
        right
        obtain ⟨T, hsome⟩ := Option.ne_none_iff_exists'.mp (hreporting haccepted)
        obtain ⟨body', hattempt, hget⟩ := PostOutcome.transaction?_spec hsome
        rw [hbody, Attempt.returned.injEq] at hattempt
        rw [hattempt, hget, Json.str.injEq] at hT
        simp [report?, hsome, hT]
  | failed handler outcome uuid t client inFlight outputs reply hmem haccepted hreply =>
      rw [chronicle_append_of_forall (genuine_outputs outputs)]
      constructor
      · intro _ hacc
        rw [haccepted] at hacc
        cases hacc
      · intro _
        rcases hreply with ⟨-, detail, rfl⟩ | ⟨-, exc, rfl⟩ <;>
          exact ⟨trivial, trivial, trivial⟩
  | fallback handler outcome uuid t client inFlight outputs credential hmem hrejected =>
      rw [chronicle_append_of_forall (genuine_outputs outputs)]
      constructor
      · intro _ hacc
        simp [PostOutcome.accepted, hrejected] at hacc
      · exact fun _ => ⟨trivial, trivial, trivial⟩

/-- Every response stored or given out in a run names a transaction that the
gateway reported for its key, exactly when every answer that the code accepts
in the run reports one. -/
theorem genuine_iff (settings : Settings) (manager : CredentialManager) (es : List Event)
    (p : Process) (tr : List Obs)
    (hrun : run Process.step (Process.start settings manager) es = some (p, tr)) :
    Chronicle Genuine [] tr ↔ ∀ e ∈ es, e.Reporting := by
  have hinit : Reported (Process.start settings manager) [] :=
    { named := Process.start_wellNamed settings manager
      seen := fun _ _ _ hin => absurd hin List.not_mem_nil
      waiting := fun _ hin => absurd hin List.not_mem_nil
      cached := fun key response hget => by cases hget }
  rw [← along_event_iff hrun, ← along_recording_iff (h := [])]
  exact chronicle_iff_along (I := Reported)
    (fun _ _ _ _ _ h hs hgood => step_reported h hs hgood)
    (fun _ _ _ _ _ h hs => step_genuine_iff h hs) hinit hrun

instance (tr : List Obs) : ∀ x, Decidable (Genuine tr x)
  | .stored rid key response =>
      inferInstanceAs (Decidable ((rid, key, response.transactionId) ∈ reports tr))
  | .replied rid request (.ok response) =>
      inferInstanceAs (Decidable ((rid, request.key, response.transactionId) ∈ reports tr))
  | .replied _ request (.replay response) =>
      inferInstanceAs
        (Decidable ((request.key, response.transactionId) ∈ (reports tr).map Prod.snd))
  | .replied _ _ (.httpException _ _) | .replied _ _ (.escaped _) | .output _ | .loaded _
  | .posted _ _ _ | .answered _ _ _ | .evicted _ => inferInstanceAs (Decidable True)

/-- The gateway's 200 reports the transaction that the request and its retry are given. -/
theorem genuine_iff_sequential :
    ∃ p tr, run Process.step sampleProcess sequentialRun = some (p, tr) ∧
      Chronicle Genuine [] tr ∧ ∀ e ∈ sequentialRun, e.Reporting := by
  have hrun : ∃ p tr, run Process.step sampleProcess sequentialRun = some (p, tr) ∧
      Chronicle Genuine [] tr := exists_run (by decide +kernel)
  obtain ⟨p, tr, hrun, hgenuine⟩ := hrun
  exact ⟨p, tr, hrun, hgenuine,
    (genuine_iff sampleSettings sampleManager sequentialRun p tr hrun).mp hgenuine⟩

/-- The gateway refuses a payment with 422 and the client retries it. -/
def refusedRun : List Event :=
  [.request 1 sampleRequest (.at 1),
    .answer 1 (.response 422 (.ok (.obj [("detail", .str "invalid card")]))) "uuid-1" (.at 2),
    .request 2 sampleRequest (.at 3)]

/-- The refusal becomes a 200 with a drawn transaction id. -/
theorem not_genuine_refused :
    ∃ p tr, run Process.step sampleProcess refusedRun = some (p, tr) ∧
      ¬ Chronicle Genuine [] tr :=
  exists_run (by decide +kernel)

/-! ## The payment that was asked for -/

/-- The response carries the payment's own fields. -/
def Carries (payment : PaymentRequest) (response : PaymentResponse) : Prop :=
  response.merchantId = payment.merchantId ∧ response.amount = payment.amount ∧
    response.currency = payment.currency

/-- The payment that a fresh 200 for `key` was about, and its response. -/
def approval? (key : String) : Obs → Option (PaymentRequest × PaymentResponse)
  | .replied _ request (.ok response) =>
      if request.key = key then some (request.payment, response) else none
  | _ => none

/-- The last fresh 200 for `key`: the payment it was about and its response. -/
def lastApproval (key : String) (tr : List Obs) : Option (PaymentRequest × PaymentResponse) :=
  (tr.filterMap (approval? key)).getLast?

/-- A 200, given what was shown before it, carries the fields of the payment it
was asked for, and a replayed one is the approval of that very payment. -/
def OwnPayment (tr : List Obs) : Obs → Prop
  | .replied _ request (.ok response) => Carries request.payment response
  | .replied _ request (.replay response) =>
      Carries request.payment response ∧
        lastApproval request.key tr = some (request.payment, response)
  | _ => True

/-- The request that came under the name `rid`, in the events so far. -/
def requested (rid : Nat) (past : List Event) : Option AuthorizeRequest :=
  past.findSome? fun
    | .request rid' request _ => if rid' = rid then some request else none
    | _ => none

/-- The body of the last request for `key` whose POST got an answer that the
endpoint accepts, in the events so far, the latest first. -/
def lastAccepted (key : String) : List Event → Option PaymentRequest
  | [] => none
  | .answer rid outcome _ _ :: past =>
      match (requested rid past).filter (fun request => outcome.accepted && request.key = key) with
      | some request => some request.payment
      | none => lastAccepted key past
  | _ :: past => lastAccepted key past

/-- A request that finds its key cached repeats the body of the last request for
the key that was accepted. -/
def RepeatsBody (past : List Event) (p : Process) : Event → Prop
  | .request _ request t =>
      p.connector.LooksUp request t → request.key ∈ p.connector.idempotencyCache →
        lastAccepted request.key past.reverse = some request.payment
  | _ => True

/-- `RepeatsBody`, read off what was shown. -/
private def SamePayment (q : Process × List Obs) : Event → Prop
  | .request _ request t =>
      q.1.connector.LooksUp request t → request.key ∈ q.1.connector.idempotencyCache →
        (lastApproval request.key q.2).map Prod.fst = some request.payment
  | _ => True

/-- Cached responses carry the fields of the payment they were given out for. -/
def Approved (p : Process) (tr : List Obs) : Prop :=
  ∀ key response, p.connector.idempotencyCache.get? key = some response →
    ∃ payment, lastApproval key tr = some (payment, response) ∧ Carries payment response

section Approvals

variable (key : String)

private theorem lastApproval_append_silent {tr obs : List Obs}
    (h : obs.filterMap (approval? key) = []) :
    lastApproval key (tr ++ obs) = lastApproval key tr := by
  rw [lastApproval, List.filterMap_append, h, List.append_nil, lastApproval]

private theorem approvals_outputs (outputs : List Output) :
    (outputs.map Obs.output).filterMap (approval? key) = [] :=
  filterMap_map_eq_nil (fun _ => rfl) outputs

private theorem approvals_evictions (keys : List String) :
    (keys.map Obs.evicted).filterMap (approval? key) = [] :=
  filterMap_map_eq_nil (fun _ => rfl) keys

private theorem approvals_storedObs (handler : Handler) (outcome : PostOutcome)
    (response : PaymentResponse) (outputs : List Output) (evicted : List String) :
    (storedObs handler outcome response outputs evicted).filterMap (approval? key) =
      if handler.request.key = key then [(handler.request.payment, response)] else [] := by
  rw [storedObs, List.filterMap_append, approvals_outputs, List.nil_append,
    List.filterMap_cons_none rfl, List.filterMap_append, approvals_evictions, List.nil_append]
  by_cases hkey : handler.request.key = key
  · simp [List.filterMap_cons, approval?, hkey]
  · simp [List.filterMap_cons, approval?, hkey]

private theorem ownPayment_outputs (outputs : List Output) :
    ∀ x ∈ outputs.map Obs.output, ∀ tr, OwnPayment tr x :=
  forall_mem_map (fun _ _ => trivial) outputs

private theorem ownPayment_evictions (keys : List String) :
    ∀ x ∈ keys.map Obs.evicted, ∀ tr, OwnPayment tr x :=
  forall_mem_map (fun _ _ => trivial) keys

private theorem ownPayment_storedObs_iff (tr : List Obs) (handler : Handler)
    (outcome : PostOutcome) (response : PaymentResponse) (outputs : List Output)
    (evicted : List String) :
    Chronicle OwnPayment tr (storedObs handler outcome response outputs evicted) ↔
      Carries handler.request.payment response := by
  rw [storedObs, chronicle_append_of_forall (ownPayment_outputs outputs)]
  simp only [Chronicle, chronicle_append_of_forall (ownPayment_evictions evicted), OwnPayment,
    true_and, and_true]

end Approvals

private theorem Approved.of_silent {p p' : Process} {tr obs : List Obs} (h : Approved p tr)
    (hcached : ∀ key, p'.connector.idempotencyCache.get? key =
      p.connector.idempotencyCache.get? key)
    (hsilent : ∀ key, obs.filterMap (approval? key) = []) : Approved p' (tr ++ obs) := by
  intro key response hget
  rw [hcached key] at hget
  rw [lastApproval_append_silent key (hsilent key)]
  exact h key response hget

/-- Every step keeps the invariant. -/
private theorem step_approved {p p' : Process} {tr obs : List Obs} {e : Event}
    (h : Approved p tr) (hstep : p.step e = some (p', obs)) : Approved p' (tr ++ obs) := by
  cases step_spec hstep with
  | load read t manager manager' result outputs =>
      apply h.of_silent (fun _ => rfl)
      intro key
      rw [List.filterMap_append, approvals_outputs]
      rfl
  | refused rid request t client code detail outputs =>
      apply h.of_silent (fun _ => rfl)
      intro key
      rw [List.filterMap_append, approvals_outputs]
      rfl
  | raised rid request t exc outputs =>
      apply h.of_silent (fun _ => rfl)
      intro key
      rw [List.filterMap_append, approvals_outputs]
      rfl
  | replayed rid request t manager cached outputs =>
      refine h.of_silent (fun key => OrderedDict.get?_moveToEnd _ _ key) ?_
      intro key
      rw [List.filterMap_append, approvals_outputs]
      rfl
  | posting => exact h.of_silent (fun _ => rfl) (fun _ => rfl)
  | stored handler outcome uuid t client inFlight outputs body response hmem haccepted hbody
      hbuild =>
      intro key r hget
      have hnew := approvals_storedObs key handler outcome response outputs
        (storeIdempotency handler.request.key response p.connector.idempotencyCache).2
      have hcarries := (buildResponse_ok hbuild).2
      rcases get?_storeIdempotency_eq_some hget with hown | hother
      · rw [if_pos hown.1.symm] at hnew
        refine ⟨handler.request.payment, ?_, ?_⟩
        · rw [lastApproval, List.filterMap_append, hnew, List.getLast?_concat, hown.2]
        · rw [hown.2]
          exact hcarries
      · rw [if_neg (fun hkey => hother.1 hkey.symm)] at hnew
        rw [lastApproval_append_silent key hnew]
        exact h key r hother.2
  | failed handler outcome uuid t client inFlight outputs reply hmem haccepted hreply =>
      apply h.of_silent (fun _ => rfl)
      intro key
      rw [List.filterMap_append, approvals_outputs]
      rcases hreply with ⟨-, detail, rfl⟩ | ⟨-, exc, rfl⟩ <;> rfl
  | fallback handler outcome uuid t client inFlight outputs credential =>
      apply h.of_silent (fun _ => rfl)
      intro key
      rw [List.filterMap_append, approvals_outputs]
      rfl

/-- From an invariant state a step is good exactly when it reuses no cached key
for another payment. -/
private theorem step_ownPayment_iff {p p' : Process} {tr obs : List Obs} {e : Event}
    (h : Approved p tr) (hstep : p.step e = some (p', obs)) :
    Chronicle OwnPayment tr obs ↔ SamePayment (p, tr) e := by
  cases step_spec hstep with
  | load read t manager manager' result outputs =>
      rw [chronicle_append_of_forall (ownPayment_outputs outputs)]
      exact ⟨fun _ => trivial, fun _ => ⟨trivial, trivial⟩⟩
  | refused rid request t client code detail outputs hseen hclient hcode haccepted hmiss =>
      rw [chronicle_append_of_forall (ownPayment_outputs outputs)]
      refine ⟨fun _ => ?_, fun _ => ⟨trivial, trivial⟩⟩
      intro hlooks hin
      have hnone := hmiss hlooks
      rw [OrderedDict.get?_eq_none_iff] at hnone
      exact absurd hin hnone
  | raised rid request t exc outputs hseen haccepted huntimed =>
      rw [chronicle_append_of_forall (ownPayment_outputs outputs)]
      exact ⟨fun _ hlooks => absurd huntimed hlooks.timed, fun _ => ⟨trivial, trivial⟩⟩
  | replayed rid request t manager cached outputs hseen haccepted hmanager hvalid hcached =>
      obtain ⟨payment, hpayment, hcarries⟩ := h request.key cached hcached
      have hquiet : lastApproval request.key (tr ++ outputs.map Obs.output) =
          lastApproval request.key tr :=
        lastApproval_append_silent request.key (approvals_outputs request.key outputs)
      have hin : request.key ∈ p.connector.idempotencyCache :=
        OrderedDict.mem_of_get?_eq_some hcached
      rw [chronicle_append_of_forall (ownPayment_outputs outputs)]
      constructor
      · intro hown _ _
        have hsame : lastApproval request.key (tr ++ outputs.map Obs.output) =
            some (request.payment, cached) := hown.1.2
        rw [hquiet] at hsame
        show (lastApproval request.key tr).map Prod.fst = some request.payment
        rw [hsame]
        rfl
      · intro hsame
        have hfor : (lastApproval request.key tr).map Prod.fst = some request.payment :=
          hsame ⟨haccepted, manager, hmanager, hvalid⟩ hin
        rw [hpayment] at hfor
        have heq : payment = request.payment := Option.some.inj hfor
        rw [heq] at hpayment hcarries
        exact ⟨⟨hcarries, by rw [hquiet, hpayment]⟩, trivial⟩
  | posting rid request t manager client primary hseen haccepted hmanager hvalid hmiss =>
      refine ⟨fun _ => ?_, fun _ => ⟨trivial, trivial⟩⟩
      intro _ hin
      rw [OrderedDict.get?_eq_none_iff] at hmiss
      exact absurd hin hmiss
  | stored handler outcome uuid t client inFlight outputs body response hmem haccepted hbody
      hbuild =>
      rw [ownPayment_storedObs_iff]
      exact ⟨fun _ => trivial, fun _ => (buildResponse_ok hbuild).2⟩
  | failed handler outcome uuid t client inFlight outputs reply hmem haccepted hreply =>
      rw [chronicle_append_of_forall (ownPayment_outputs outputs)]
      refine ⟨fun _ => trivial, fun _ => ?_⟩
      rcases hreply with ⟨-, detail, rfl⟩ | ⟨-, exc, rfl⟩ <;>
        exact ⟨trivial, trivial, trivial⟩
  | fallback handler outcome uuid t client inFlight outputs credential =>
      rw [chronicle_append_of_forall (ownPayment_outputs outputs)]
      exact ⟨fun _ => trivial, fun _ => ⟨trivial, trivial, trivial⟩⟩

private theorem start_approved (settings : Settings) (manager : CredentialManager) :
    Approved (Process.start settings manager) [] :=
  fun key response hget => by cases hget

private theorem ownPayment_iff_along {settings : Settings} {manager : CredentialManager}
    {es : List Event} {p : Process} {tr : List Obs}
    (hrun : run Process.step (Process.start settings manager) es = some (p, tr)) :
    Chronicle OwnPayment [] tr ↔
      Along (recording Process.step) SamePayment (Process.start settings manager, []) es :=
  chronicle_iff_along (I := Approved)
    (fun _ _ _ _ _ h hs _ => step_approved h hs)
    (fun _ _ _ _ _ h hs => step_ownPayment_iff h hs)
    (start_approved settings manager) hrun

/-! ## Who filled an entry, by the events -/

/-- What the events say of the suspended handlers and of the approvals. -/
private structure Told (past : List Event) (p : Process) (tr : List Obs) : Prop where
  named : p.WellNamed
  requested : ∀ h ∈ p.waiting, requested h.rid past.reverse = some h.request
  fresh : ∀ rid, ¬ rid ∈ p.seen → PaymentConnector.requested rid past.reverse = none
  approved : ∀ key, (lastApproval key tr).map Prod.fst = lastAccepted key past.reverse

private theorem requested_cons_request (rid rid' : Nat) (request : AuthorizeRequest)
    (t : StartReadings) (past : List Event) :
    requested rid' (.request rid request t :: past) =
      if rid = rid' then some request else requested rid' past := by
  unfold requested
  rw [List.findSome?_cons]
  by_cases h : rid = rid' <;> simp [h]

private theorem lastAccepted_answer {rid : Nat} {past : List Event} {request : AuthorizeRequest}
    (h : requested rid past = some request) (key : String) (outcome : PostOutcome)
    (uuid : String) (t : AnswerReadings) :
    lastAccepted key (.answer rid outcome uuid t :: past) =
      if outcome.accepted = true ∧ request.key = key then some request.payment
      else lastAccepted key past := by
  rw [lastAccepted, h, Option.filter_some]
  by_cases hboth : outcome.accepted = true ∧ request.key = key
  · simp [hboth]
  · rw [if_neg hboth, if_neg (by simpa using hboth)]

private theorem lastApproval_append (key : String) (tr obs : List Obs) :
    lastApproval key (tr ++ obs) =
      ((obs.filterMap (approval? key)).getLast?).or (lastApproval key tr) := by
  rw [lastApproval, List.filterMap_append, List.getLast?_append]
  rfl

/-- What a handler's first stretch tells. -/
private theorem Told.request {past : List Event} {p p' : Process} {tr obs : List Obs} {rid : Nat}
    {request : AuthorizeRequest} {t : StartReadings} (h : Told past p tr)
    (hnamed : p'.WellNamed) (hseen : ¬ rid ∈ p.seen) (hseen' : p'.seen = rid :: p.seen)
    (hwaiting : ∀ h ∈ p'.waiting, h ∈ p.waiting ∨ (h.rid = rid ∧ h.request = request))
    (hsilent : ∀ key, obs.filterMap (approval? key) = []) :
    Told (past ++ [.request rid request t]) p' (tr ++ obs) := by
  refine ⟨hnamed, ?_, ?_, ?_⟩
  · intro handler hin
    rw [List.reverse_concat, requested_cons_request]
    rcases hwaiting handler hin with hold | ⟨hrid, hrequest⟩
    · have hne : rid ≠ handler.rid := fun heq => hseen (heq ▸ h.named.named handler hold)
      rw [if_neg hne]
      exact h.requested handler hold
    · rw [if_pos hrid.symm, hrequest]
  · intro rid' hfresh
    rw [hseen', List.mem_cons, not_or] at hfresh
    rw [List.reverse_concat, requested_cons_request, if_neg (fun heq => hfresh.1 heq.symm)]
    exact h.fresh rid' hfresh.2
  · intro key
    rw [lastApproval_append_silent key (hsilent key), List.reverse_concat]
    exact h.approved key

/-- What an answer tells: an approval exactly where the endpoint accepts it. -/
private theorem Told.answer {past : List Event} {p p' : Process} {tr obs : List Obs}
    {handler : Handler} {outcome : PostOutcome} {uuid : String} {t : AnswerReadings}
    (h : Told past p tr) (hmem : handler ∈ p.waiting) (hnamed : p'.WellNamed)
    (hseen : p'.seen = p.seen)
    (hwaiting : ∀ h ∈ p'.waiting,
      h ∈ p.waiting ∨ (h.rid = handler.rid ∧ h.request = handler.request))
    (hshown : ∀ key, ((obs.filterMap (approval? key)).getLast?).map Prod.fst =
      if outcome.accepted = true ∧ handler.request.key = key then some handler.request.payment
      else none) :
    Told (past ++ [.answer handler.rid outcome uuid t]) p' (tr ++ obs) := by
  have hreads : ∀ rid, PaymentConnector.requested rid
      (past ++ [Event.answer handler.rid outcome uuid t]).reverse =
        PaymentConnector.requested rid past.reverse := by
    intro rid
    rw [List.reverse_concat]
    rfl
  have hown : PaymentConnector.requested handler.rid past.reverse = some handler.request :=
    h.requested handler hmem
  refine ⟨hnamed, ?_, ?_, ?_⟩
  · intro h' hin
    rw [hreads]
    rcases hwaiting h' hin with hold | ⟨hrid, hrequest⟩
    · exact h.requested h' hold
    · rw [hrid, hrequest, hown]
  · intro rid hfresh
    rw [hseen] at hfresh
    rw [hreads]
    exact h.fresh rid hfresh
  · intro key
    have hbefore := h.approved key
    have hhere := hshown key
    rw [lastApproval_append, List.reverse_concat, lastAccepted_answer hown]
    by_cases hstores : outcome.accepted = true ∧ handler.request.key = key
    · rw [if_pos hstores] at hhere ⊢
      obtain ⟨approval, happroval, hpayment⟩ := Option.map_eq_some_iff.mp hhere
      rw [happroval, ← hpayment]
      rfl
    · rw [if_neg hstores, Option.map_eq_none_iff] at hhere
      rw [hhere, if_neg hstores]
      exact hbefore

private theorem step_told {past : List Event} {p p' : Process} {tr obs : List Obs} {e : Event}
    (h : Told past p tr) (hstep : p.step e = some (p', obs)) :
    Told (past ++ [e]) p' (tr ++ obs) := by
  have hnamed := step_wellNamed h.named hstep
  cases step_spec hstep with
  | load read t manager manager' result outputs =>
      have hreads : ∀ rid, requested rid (past ++ [Event.load read t]).reverse =
          requested rid past.reverse := by
        intro rid
        rw [List.reverse_concat]
        rfl
      refine ⟨hnamed, ?_, ?_, ?_⟩
      · intro handler hin
        rw [hreads]
        exact h.requested handler hin
      · intro rid hfresh
        rw [hreads]
        exact h.fresh rid hfresh
      · intro key
        rw [lastApproval_append_silent key
          (by rw [List.filterMap_append, approvals_outputs]; rfl), List.reverse_concat]
        exact h.approved key
  | refused rid request t client code detail outputs hseen =>
      exact h.request hnamed hseen rfl (fun _ hin => Or.inl hin)
        (fun key => by rw [List.filterMap_append, approvals_outputs]; rfl)
  | raised rid request t exc outputs hseen =>
      exact h.request hnamed hseen rfl (fun _ hin => Or.inl hin)
        (fun key => by rw [List.filterMap_append, approvals_outputs]; rfl)
  | replayed rid request t manager cached outputs hseen =>
      exact h.request hnamed hseen rfl (fun _ hin => Or.inl hin)
        (fun key => by rw [List.filterMap_append, approvals_outputs]; rfl)
  | posting rid request t manager client primary hseen =>
      refine h.request hnamed hseen rfl ?_ (fun _ => rfl)
      intro handler hin
      rcases List.mem_append.mp hin with hold | hnew
      · exact Or.inl hold
      · rw [List.mem_singleton.mp hnew]
        exact Or.inr ⟨rfl, rfl⟩
  | stored handler outcome uuid t client inFlight outputs body response hmem haccepted =>
      refine h.answer hmem hnamed rfl (fun _ hin => Or.inl (mem_filter_rid hin).1) ?_
      intro key
      rw [approvals_storedObs]
      by_cases hkey : handler.request.key = key
      · simp [hkey, haccepted]
      · simp [hkey]
  | failed handler outcome uuid t client inFlight outputs reply hmem haccepted hreply =>
      refine h.answer hmem hnamed rfl (fun _ hin => Or.inl (mem_filter_rid hin).1) ?_
      intro key
      rw [List.filterMap_append, approvals_outputs, haccepted]
      rcases hreply with ⟨-, detail, rfl⟩ | ⟨-, exc, rfl⟩ <;> simp [approval?]
  | fallback handler outcome uuid t client inFlight outputs credential hmem hrejected =>
      refine h.answer hmem hnamed rfl ?_ ?_
      · intro h' hin
        rcases List.mem_append.mp hin with hold | hnew
        · exact Or.inl (mem_filter_rid hold).1
        · rw [List.mem_singleton.mp hnew]
          exact Or.inr ⟨rfl, rfl⟩
      · intro key
        rw [List.filterMap_append, approvals_outputs]
        simp [approval?, PostOutcome.accepted, hrejected]

private theorem run_told {settings : Settings} {manager : CredentialManager}
    (past : List Event) (p : Process) (tr : List Obs)
    (hrun : run Process.step (Process.start settings manager) past = some (p, tr)) :
    Told past p tr := by
  refine run_history_invariant (fun _ _ _ _ _ _ _ h hs => step_told h hs) ?_ hrun
  exact ⟨Process.start_wellNamed settings manager, fun _ hin => absurd hin List.not_mem_nil,
    fun _ _ => rfl, fun _ => rfl⟩

/-- What is read off what was shown can be read off the events. -/
private theorem along_samePayment_iff {settings : Settings} {manager : CredentialManager}
    {es : List Event} :
    Along (recording Process.step) SamePayment (Process.start settings manager, []) es ↔
      EveryEvent Process.step (fun past p e _ => RepeatsBody past p e)
        (Process.start settings manager) es := by
  refine along_recording_iff_everyEvent (I := Told) run_told ?_
  intro past p₁ tr₁ e rest htold
  cases e with
  | load read t => exact Iff.rfl
  | answer rid outcome uuid t => exact Iff.rfl
  | request rid request t =>
      show (_ → _ → (lastApproval request.key tr₁).map Prod.fst = _) ↔
        (_ → _ → lastAccepted request.key past.reverse = _)
      rw [htold.approved request.key]

/-- Every 200 of a run is about the payment it was asked for, exactly when every
request that finds its key cached repeats the body of the last request for the
key whose POST got an accepted answer. -/
theorem ownPayment_iff (settings : Settings) (manager : CredentialManager) (es : List Event)
    (p : Process) (tr : List Obs)
    (hrun : run Process.step (Process.start settings manager) es = some (p, tr)) :
    Chronicle OwnPayment [] tr ↔
      EveryEvent Process.step (fun past p e _ => RepeatsBody past p e)
        (Process.start settings manager) es := by
  rw [ownPayment_iff_along hrun, along_samePayment_iff]

instance (payment : PaymentRequest) (response : PaymentResponse) :
    Decidable (Carries payment response) :=
  inferInstanceAs (Decidable (_ ∧ _))

instance (tr : List Obs) : ∀ x, Decidable (OwnPayment tr x)
  | .replied _ request (.ok response) =>
      inferInstanceAs (Decidable (Carries request.payment response))
  | .replied _ request (.replay response) =>
      inferInstanceAs (Decidable (Carries request.payment response ∧
        lastApproval request.key tr = some (request.payment, response)))
  | .replied _ _ (.httpException _ _) | .replied _ _ (.escaped _) | .output _ | .loaded _
  | .posted _ _ _ | .answered _ _ _ | .stored _ _ _ | .evicted _ =>
      inferInstanceAs (Decidable True)

/-- The retry repeats the body and gets its own approval. -/
theorem ownPayment_iff_sequential :
    ∃ p tr, run Process.step sampleProcess sequentialRun = some (p, tr) ∧
      Chronicle OwnPayment [] tr ∧
        EveryEvent Process.step (fun past p e _ => RepeatsBody past p e) sampleProcess
          sequentialRun := by
  have hrun : ∃ p tr, run Process.step sampleProcess sequentialRun = some (p, tr) ∧
      Chronicle OwnPayment [] tr := exists_run (by decide +kernel)
  obtain ⟨p, tr, hrun, hown⟩ := hrun
  exact ⟨p, tr, hrun, hown,
    (ownPayment_iff sampleSettings sampleManager sequentialRun p tr hrun).mp hown⟩

/-- The key of `samplePayment`, reused for a payment of another merchant. -/
def reusedKeyPayment : PaymentRequest where
  merchantId := "merchant-002"
  amount := 5
  currency := "EUR"
  cardToken := "tok_test_xyz"
  idempotencyKey := "idem-001"
  merchantId_length := by decide
  amount_range := by decide +kernel
  currency_length := by decide
  cardToken_length := by decide
  idempotencyKey_length := sampleKey_length

def reusedKeyRun : List Event :=
  [.request 1 sampleRequest (.at 1), .answer 1 (answerWith 200 "txn-1") "uuid-1" (.at 2),
    .request 2 { sampleRequest with payment := reusedKeyPayment } (.at 3)]

/-- The second payment is answered with the approval of the first. -/
theorem not_ownPayment_reusedKey :
    ∃ p tr, run Process.step sampleProcess reusedKeyRun = some (p, tr) ∧
      ¬ Chronicle OwnPayment [] tr :=
  exists_run (by decide +kernel)

/-! ## One payment for each key -/

/-- A request is about the payment that belongs to its key. -/
def Event.Consistent (paymentOf : String → PaymentRequest) : Event → Prop
  | .request _ r _ => r.payment = paymentOf r.key
  | _ => True

private theorem mem_of_requested {rid : Nat} {past : List Event} {request : AuthorizeRequest}
    (h : requested rid past = some request) : ∃ t, .request rid request t ∈ past := by
  obtain ⟨e, he, hsome⟩ := List.exists_of_findSome?_eq_some h
  cases e with
  | request rid' request' t =>
      obtain ⟨hrid, hrequest⟩ := Option.ite_none_right_eq_some.mp hsome
      rw [hrid, Option.some.inj hrequest] at he
      exact ⟨t, he⟩
  | load read t => cases hsome
  | answer rid' outcome uuid t => cases hsome

/-- Where every key belongs to one payment, that one is the last accepted. -/
private theorem lastAccepted_of_consistent {paymentOf : String → PaymentRequest} {key : String}
    {past : List Event} (h : ∀ e ∈ past, e.Consistent paymentOf) {payment : PaymentRequest}
    (hlast : lastAccepted key past = some payment) : payment = paymentOf key := by
  induction past with
  | nil => cases hlast
  | cons e past ih =>
      have hpast : ∀ e ∈ past, e.Consistent paymentOf :=
        fun e' he' => h e' (List.mem_cons_of_mem e he')
      cases e with
      | load read t => exact ih hpast hlast
      | request rid request t => exact ih hpast hlast
      | answer rid outcome uuid t =>
          simp only [lastAccepted] at hlast
          split at hlast
          · rename_i request hfound
            obtain ⟨hrequested, hkey⟩ := Option.filter_eq_some_iff.mp hfound
            obtain ⟨t', hin⟩ := mem_of_requested hrequested
            have howner : request.payment = paymentOf request.key := hpast _ hin
            have hown : request.key = key := by simpa using (Bool.and_eq_true_iff.mp hkey).2
            rw [← Option.some.inj hlast, howner, hown]
          · exact ih hpast hlast

/-- Clients that use every key for one payment only get every 200 for the
payment they asked for. -/
theorem ownPayment_of_one_payment_per_key (settings : Settings) (manager : CredentialManager)
    (es : List Event) (p : Process) (tr : List Obs) (paymentOf : String → PaymentRequest)
    (hrun : run Process.step (Process.start settings manager) es = some (p, tr))
    (hclients : ∀ e ∈ es, e.Consistent paymentOf) : Chronicle OwnPayment [] tr := by
  rw [ownPayment_iff_along hrun, along_samePayment_iff]
  intro past e rest p₁ tr₁ hes hrun₁
  have htold := run_told past p₁ tr₁ hrun₁
  have happroved : Approved p₁ tr₁ :=
    run_invariant (fun _ _ _ _ _ h hs => step_approved h hs) (start_approved settings manager) hrun₁
  have hpast : ∀ e' ∈ past.reverse, e'.Consistent paymentOf := by
    intro e' he'
    exact hclients e' (by rw [hes]; exact List.mem_append_left _ (List.mem_reverse.mp he'))
  have hnow : e.Consistent paymentOf :=
    hclients e (by rw [hes]; exact List.mem_append_right _ List.mem_cons_self)
  cases e with
  | load read t => trivial
  | answer rid outcome uuid t => trivial
  | request rid request t =>
      intro _ hin
      obtain ⟨cached, hget⟩ := OrderedDict.exists_get?_of_mem hin
      obtain ⟨payment, hpayment, -⟩ := happroved request.key cached hget
      have hlast : lastAccepted request.key past.reverse = some payment := by
        rw [← htold.approved request.key, hpayment]
        rfl
      have hown : request.payment = paymentOf request.key := hnow
      rw [hlast, lastAccepted_of_consistent hpast hlast, hown]

end PaymentConnector
