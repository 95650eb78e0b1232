import Mathlib.Algebra.Order.Group.Multiset
import Mathlib.Data.List.DropRight
import Mathlib.Tactic.Abel
import PaymentConnector.Cluster

/-!
# Two ledgers

The mock takes the decisions, and the replicas tell their clients what was decided.  Between the
two are POSTs and answers that can be late, lost or given up on, and the mock can be restarted
with other keys under way.  Whatever happens to the messages, the replicas report no decision that
the mock did not take: their fresh 200s are matched, one to one, with transactions of the same
idempotency key, and a replayed 200 repeats one of them.  What is left over on the mock's side is
still in flight, or its answer was lost.  The counter of the mock is no such ledger: it tells the
transactions since the last restart.

## Main results

* `Process.step_decisions`, `Process.step_cached` — what a replica reports and keeps, by step.
* `Cluster.step_balanced` — what a step does to the balance of the two.
* `Cluster.reconciled` — the two ledgers, and the mock's count of its answers.
-/

namespace PaymentConnector

open Library Library.Machine VaultGatewayMock

variable {ι : Type}

/-! ## Decisions -/

/-- What was decided about a payment, under its idempotency key. -/
structure Decision where
  key : String
  transactionId : String
  status : PaymentStatus
  deriving DecidableEq

def PaymentResponse.decision (key : String) (response : PaymentResponse) : Decision :=
  ⟨key, response.transactionId, response.status⟩

/-- The decision that a fresh 200 reports. -/
def Obs.decision? : Obs → Option Decision
  | .replied _ request (.ok response) => some (response.decision request.key)
  | _ => none

/-- The decision in the body of an answer to a POST, if it has one. -/
def PostOutcome.decision? (key : String) : PostOutcome → Option Decision
  | .response _ (.ok (.obj kvs)) =>
      match (objDict kvs).find? "transaction_id" with
      | some (.str transactionId) =>
          some ⟨key, transactionId, .ofJson ((objDict kvs).get "status" (.str "error"))⟩
      | _ => none
  | _ => none

def Answer.decision? (a : Answer ι) : Option Decision := a.outcome.decision? a.key

namespace ClusterObs

/-- The decision that a replica gives out afresh. -/
def decision? : ClusterObs ι → Option Decision
  | .replica _ obs => obs.decision?
  | .created _ _ _ | .restarted => none

/-- The decision that the mock takes with a transaction. -/
def transaction? : ClusterObs ι → Option Decision
  | .created key transactionId status => some ⟨key, transactionId, .ofJson (.str status)⟩
  | .replica _ _ | .restarted => none

/-- The mock goes on with the counters that it has. -/
def goesOn : ClusterObs ι → Bool
  | .restarted => false
  | .replica _ _ | .created _ _ _ => true

end ClusterObs

/-- What the replicas have reported afresh. -/
def decisions (tr : List (ClusterObs ι)) : Multiset Decision :=
  (tr.filterMap ClusterObs.decision? : List Decision)

/-- What the mock has decided. -/
def transactions (tr : List (ClusterObs ι)) : Multiset Decision :=
  (tr.filterMap ClusterObs.transaction? : List Decision)

/-- What was shown since the mock was last restarted. -/
def sinceRestart (tr : List (ClusterObs ι)) : List (ClusterObs ι) :=
  tr.rtakeWhile ClusterObs.goesOn

/-- What is on its way back to the replicas. -/
def Cluster.inFlight (c : Cluster ι) : Multiset Decision :=
  (c.answers.filterMap Answer.decision? : List Decision)

theorem decisions_append (tr obs : List (ClusterObs ι)) :
    decisions (tr ++ obs) = decisions tr + decisions obs := by
  rw [decisions, List.filterMap_append, ← Multiset.coe_add]
  rfl

theorem transactions_append (tr obs : List (ClusterObs ι)) :
    transactions (tr ++ obs) = transactions tr + transactions obs := by
  rw [transactions, List.filterMap_append, ← Multiset.coe_add]
  rfl

theorem decisions_replica (i : ι) (obs : List Obs) :
    decisions (obs.map (ClusterObs.replica i)) = (obs.filterMap Obs.decision? : List Decision) := by
  rw [decisions, List.filterMap_map]
  rfl

theorem transactions_replica (tr : List (ClusterObs ι)) (i : ι) (obs : List Obs) :
    transactions (tr ++ obs.map (ClusterObs.replica i)) = transactions tr := by
  rw [transactions, List.filterMap_append, List.filterMap_map]
  exact congrArg _ ((congrArg _ (List.filterMap_none obs)).trans (List.append_nil _))

theorem sinceRestart_append {obs : List (ClusterObs ι)} (h : ∀ o ∈ obs, o.goesOn = true)
    (tr : List (ClusterObs ι)) : sinceRestart (tr ++ obs) = sinceRestart tr ++ obs := by
  have hall : ∀ o ∈ obs.reverse, o.goesOn = true := fun o ho => h o (List.mem_reverse.mp ho)
  rw [sinceRestart, List.rtakeWhile, List.reverse_append, List.takeWhile_append_of_pos hall,
    List.reverse_append, List.reverse_reverse]
  rfl

/-! ### Answers of the mock -/

/-- An answer that the endpoint does not accept reports no decision. -/
theorem PostOutcome.Mocked.decision_none {outcome : PostOutcome} (h : outcome.Mocked)
    (haccepted : outcome.accepted = false) (key : String) : outcome.decision? key = none := by
  cases h with
  | refused code detail hcode => rfl
  | created r => cases haccepted

/-- What the endpoint makes of an answer of the mock is what the mock decided. -/
theorem PostOutcome.Mocked.decision_eq {outcome : PostOutcome} (h : outcome.Mocked)
    {payment : PaymentRequest} {body : PyDict} {uuid : String} {now : Rat}
    {response : PaymentResponse} (hbody : outcome.attempt = .returned body)
    (hbuild : buildResponse payment body uuid now = .ok response) (key : String) :
    outcome.decision? key = some (response.decision key) := by
  cases h with
  | refused code detail hcode =>
      have hrejected : (answer (.error (code, detail))).attempt = .rejected := if_pos hcode
      rw [hrejected] at hbody
      cases hbody
  | created r =>
      obtain rfl : _ = body := Attempt.returned.inj hbody
      obtain rfl : _ = response := Except.ok.inj hbuild
      rfl

/-! ## What a replica reports -/

namespace Process

variable {p p' : Process} {e : Event} {obs : List Obs} {rid : Nat} {key : String}

/-- The only fresh 200 is that of a handler whose POST was answered with a body. -/
inductive Decides (p : Process) : Event → List Decision → Prop
  | other (e : Event) (hother : ∀ rid outcome uuid t, e ≠ .answer rid outcome uuid t) :
      Decides p e []
  | refused (rid : Nat) (outcome : PostOutcome) (uuid : String) (t : AnswerReadings)
      (haccepted : outcome.accepted = false) : Decides p (.answer rid outcome uuid t) []
  | fresh (h : Handler) (outcome : PostOutcome) (uuid : String) (t : AnswerReadings)
      (body : PyDict) (response : PaymentResponse) (hmem : h ∈ p.waiting)
      (haccepted : outcome.accepted = true) (hbody : outcome.attempt = .returned body)
      (hbuild : buildResponse h.request.payment body uuid t.stamp = .ok response) :
      Decides p (.answer h.rid outcome uuid t) [response.decision h.request.key]

private theorem decisions_outputs (outputs : List Output) :
    (outputs.map Obs.output).filterMap Obs.decision? = [] :=
  filterMap_map_eq_nil (fun _ => rfl) outputs

private theorem decisions_evicted (keys : List String) :
    (keys.map Obs.evicted).filterMap Obs.decision? = [] :=
  filterMap_map_eq_nil (fun _ => rfl) keys

theorem step_decisions (hstep : p.step e = some (p', obs)) :
    p.Decides e (obs.filterMap Obs.decision?) := by
  cases step_spec hstep with
  | load =>
      rw [List.filterMap_append, decisions_outputs]
      exact .other _ fun _ _ _ _ h => by cases h
  | refused =>
      rw [List.filterMap_append, decisions_outputs]
      exact .other _ fun _ _ _ _ h => by cases h
  | raised =>
      rw [List.filterMap_append, decisions_outputs]
      exact .other _ fun _ _ _ _ h => by cases h
  | replayed =>
      rw [List.filterMap_append, decisions_outputs]
      exact .other _ fun _ _ _ _ h => by cases h
  | posting => exact .other _ fun _ _ _ _ h => by cases h
  | stored h outcome uuid t client inFlight outputs body response hmem haccepted hbody hbuild =>
      have hshown : (storedObs h outcome response outputs
          (storeIdempotency h.request.key response p.connector.idempotencyCache).2).filterMap
            Obs.decision? = [response.decision h.request.key] := by
        rw [storedObs, List.filterMap_append, decisions_outputs, List.nil_append,
          List.filterMap_cons_none rfl, List.filterMap_append, decisions_evicted]
        rfl
      rw [hshown]
      exact .fresh h outcome uuid t body response hmem haccepted hbody hbuild
  | failed h outcome uuid t client inFlight outputs reply hmem haccepted hreply =>
      rw [List.filterMap_append, decisions_outputs]
      rcases hreply with ⟨-, detail, rfl⟩ | ⟨-, exc, rfl⟩
      · exact .refused h.rid outcome uuid t haccepted
      · exact .refused h.rid outcome uuid t haccepted
  | fallback h outcome uuid t client inFlight outputs credential hmem hrejected =>
      have haccepted : outcome.accepted = false := by simp [PostOutcome.accepted, hrejected]
      rw [List.filterMap_append, decisions_outputs]
      exact .refused h.rid outcome uuid t haccepted

/-- The cache gains nothing but the decision of a fresh 200. -/
theorem step_cached (hstep : p.step e = some (p', obs)) {response : PaymentResponse}
    (h : p'.connector.idempotencyCache.get? key = some response) :
    p.connector.idempotencyCache.get? key = some response ∨
      response.decision key ∈ obs.filterMap Obs.decision? := by
  cases step_spec hstep with
  | load => exact Or.inl h
  | refused => exact Or.inl h
  | raised => exact Or.inl h
  | posting => exact Or.inl h
  | failed => exact Or.inl h
  | fallback => exact Or.inl h
  | replayed rid request t manager cached outputs =>
      exact Or.inl ((OrderedDict.get?_moveToEnd _ _ key).symm.trans h)
  | stored handler outcome uuid t client inFlight outputs body fresh =>
      rcases get?_storeIdempotency_eq_some h with ⟨rfl, rfl⟩ | hother
      · right
        refine List.mem_filterMap.mpr ⟨.replied handler.rid handler.request (.ok response), ?_, rfl⟩
        simp [storedObs]
      · exact Or.inl hother.2

/-- A replay repeats what is in the cache. -/
theorem step_replays (hstep : p.step e = some (p', obs)) {request : AuthorizeRequest}
    {response : PaymentResponse} (h : .replied rid request (.replay response) ∈ obs) :
    p.connector.idempotencyCache.get? request.key = some response := by
  cases step_spec hstep with
  | load => simp at h
  | refused => simp at h
  | raised => simp at h
  | posting => simp at h
  | stored => simp [storedObs] at h
  | fallback => simp at h
  | failed handler outcome uuid t client inFlight outputs reply hmem haccepted hreply =>
      rcases hreply with ⟨-, detail, rfl⟩ | ⟨-, exc, rfl⟩
      · simp at h
      · simp at h
  | replayed rid' request' t manager cached outputs hseen haccepted hmanager hvalid hcached =>
      simp at h
      obtain ⟨-, rfl, rfl⟩ := h
      exact hcached

end Process

/-! ## The balance -/

namespace Cluster

variable {c c' : Cluster ι} {e : ClusterEvent ι} {tr obs : List (ClusterObs ι)}
  {lost : Multiset Decision}

/-- The two ledgers after the answers of `lost` went astray: the transactions are what was
reported, what is in flight and these. -/
structure Balanced (c : Cluster ι) (tr : List (ClusterObs ι)) (lost : Multiset Decision) :
    Prop where
  addressed : c.Addressed
  balance : decisions tr + c.inFlight + lost = transactions tr
  cached : ∀ i key response, (c.replicas i).connector.idempotencyCache.get? key = some response →
    response.decision key ∈ transactions tr
  replayed : ∀ i rid request response,
    .replica i (.replied rid request (.replay response)) ∈ tr →
      response.decision request.key ∈ transactions tr
  counted : c.mock.requestsTotal.count (Mock.endpoint, "200") =
    (transactions (sinceRestart tr)).card

theorem start_balanced (settings : ι → Settings) (manager : ι → CredentialManager)
    (validApiKeys : Option String) : (start settings manager validApiKeys).Balanced [] 0 where
  addressed := start_addressed settings manager validApiKeys
  balance := rfl
  cached := fun _ _ _ h => by cases h
  replayed := fun _ _ _ _ h => by cases h
  counted := rfl

/-! ### Answers -/

/-- The decisions in flight, with that of one answer first. -/
theorem inFlight_eq {n : Nat} {a : Answer ι} (ha : c.answers[n]? = some a) :
    c.inFlight = (a.decision?.toList : List Decision) +
      { c with answers := c.answers.eraseIdx n }.inFlight := by
  obtain ⟨hlt, hget⟩ := List.getElem?_eq_some_iff.mp ha
  have hperm := (List.getElem_cons_eraseIdx_perm hlt).filterMap Answer.decision?
  rw [hget] at hperm
  have hsplit : (a :: c.answers.eraseIdx n).filterMap Answer.decision? =
      a.decision?.toList ++ (c.answers.eraseIdx n).filterMap Answer.decision? := by
    cases hd : a.decision? with
    | none => exact List.filterMap_cons_none hd
    | some d => exact List.filterMap_cons_some hd
  rw [hsplit] at hperm
  rw [inFlight, ← Multiset.coe_eq_coe.mpr hperm, ← Multiset.coe_add]
  rfl

/-- The handler that an answer is delivered to reports its decision. -/
theorem Addressed.decides (h : c.Addressed) {a : Answer ι} (ha : a ∈ c.answers) {uuid : String}
    {t : AnswerReadings} {fresh : List Decision}
    (hfresh : (c.replicas a.replica).Decides (.answer a.rid a.outcome uuid t) fresh) :
    fresh = a.decision?.toList := by
  obtain ⟨howns, hmocked⟩ := h.answers a ha
  generalize he : Event.answer a.rid a.outcome uuid t = e at hfresh
  cases hfresh with
  | other e hother => exact absurd he.symm (hother _ _ _ _)
  | refused rid outcome uuid' t' haccepted =>
      obtain ⟨-, rfl, -, -⟩ := Event.answer.inj he
      rw [Answer.decision?, hmocked.decision_none haccepted]
      rfl
  | fresh handler outcome uuid' t' body response hmem haccepted hbody hbuild =>
      obtain ⟨hrid, rfl, rfl, rfl⟩ := Event.answer.inj he
      have hkey := howns.own handler hmem hrid.symm
      rw [hkey, Answer.decision?, hmocked.decision_eq hbody hbuild]
      rfl

/-- A POST that was given up on reports nothing. -/
theorem decides_givenUp {p : Process} {rid : Nat} {failure : PostFailure} {uuid : String}
    {t : AnswerReadings} {fresh : List Decision}
    (hfresh : p.Decides (.answer rid failure.outcome uuid t) fresh) : fresh = [] := by
  generalize he : Event.answer rid failure.outcome uuid t = e at hfresh
  cases hfresh with
  | other => rfl
  | refused => rfl
  | fresh handler outcome uuid' t' body response hmem haccepted hbody hbuild =>
      obtain ⟨-, rfl, -, -⟩ := Event.answer.inj he
      cases failure with
      | timeout error => cases hbody
      | httpError error => cases hbody

/-- What a replica reports afresh is what its step takes out of flight. -/
theorem Addressed.inFlight_eq (h : c.Addressed) {i : ι} {own : Event}
    {answers : List (Answer ι)} (hevent : c.OwnStep e i own answers) {fresh : List Decision}
    (hfresh : (c.replicas i).Decides own fresh) :
    c.inFlight = (fresh : Multiset Decision) + { c with answers := answers }.inFlight := by
  cases hevent with
  | load i read t =>
      cases hfresh
      exact (zero_add _).symm
  | request i rid request t =>
      cases hfresh
      exact (zero_add _).symm
  | givenUp i rid failure uuid t =>
      rw [decides_givenUp hfresh]
      exact (zero_add _).symm
  | delivered n uuid t a ha =>
      rw [h.decides (List.mem_of_getElem? ha) hfresh]
      exact Cluster.inFlight_eq ha

/-! ### The replicas -/

/-- A step of a replica moves a decision from the messages to what is reported, or none. -/
private theorem Balanced.stepReplica [DecidableEq ι] (h : c.Balanced tr lost)
    (haddressed : c'.Addressed) {i : ι} {own : Event} {answers : List (Answer ι)} {p' : Process}
    {o : List Obs} (hevent : c.OwnStep e i own answers)
    (hown : (c.replicas i).step own = some (p', o))
    (hc' : c' = { c with
      replicas := Function.update c.replicas i p'
      transit := c.transit ++ o.filterMap (post? i)
      answers := answers }) :
    c'.Balanced (tr ++ o.map (ClusterObs.replica i)) lost := by
  subst hc'
  have hfresh := h.addressed.inFlight_eq hevent (Process.step_decisions hown)
  have hbalance : decisions (tr ++ o.map (ClusterObs.replica i)) +
      { c with answers := answers }.inFlight + lost = transactions tr := by
    rw [decisions_append, decisions_replica, ← h.balance, hfresh]
    abel
  have hreported : ∀ {d : Decision}, d ∈ o.filterMap Obs.decision? → d ∈ transactions tr := by
    intro d hd
    rw [← hbalance, decisions_append, decisions_replica]
    simp only [Multiset.mem_add]
    exact Or.inl (Or.inl (Or.inr hd))
  refine
    { addressed := haddressed
      balance := ?_
      cached := ?_
      replayed := ?_
      counted := ?_ }
  · rw [transactions_replica]
    exact hbalance
  · rw [transactions_replica]
    refine forall_update (C := fun _ p => ∀ key response,
      p.connector.idempotencyCache.get? key = some response →
        response.decision key ∈ transactions tr) ?_ fun j _ => h.cached j
    intro key response hget
    rcases Process.step_cached hown hget with hwas | hnew
    · exact h.cached i key response hwas
    · exact hreported hnew
  · intro j rid request response hin
    rw [transactions_replica]
    rcases List.mem_append.mp hin with hold | hnew
    · exact h.replayed j rid request response hold
    · obtain ⟨x, hx, heq⟩ := List.mem_map.mp hnew
      obtain ⟨rfl, rfl⟩ := ClusterObs.replica.inj heq
      exact h.cached i request.key response (Process.step_replays hown hx)
  · rw [sinceRestart_append (List.forall_mem_map.mpr fun _ _ => rfl), transactions_replica]
    exact h.counted

/-! ### The mock -/

theorem answering_inFlight (c : Cluster ι) (n : Nat) (d : Draws) (post : Post ι) (status : String)
    (result : Except (Nat × String) VaultGatewayMock.AuthorizeResponse) :
    (c.answering n d post status result).inFlight =
      c.inFlight + (((answer result).decision? post.key).toList : List Decision) := by
  rw [inFlight, answering, List.filterMap_append, ← Multiset.coe_add]
  refine congrArg (c.inFlight + ·) (congrArg _ ?_)
  show [Answer.mk post.replica post.rid post.key (answer result)].filterMap Answer.decision? = _
  cases hd : (answer result).decision? post.key with
  | none => exact List.filterMap_cons_none hd
  | some decision => exact List.filterMap_cons_some hd

/-- The mock takes a decision with the answer that reports it. -/
private theorem Balanced.creates (h : c.Balanced tr lost) {n : Nat} {d : Draws} {post : Post ι}
    (r : VaultGatewayMock.AuthorizeResponse)
    (haddressed : (c.answering n d post "200" (.ok r)).Addressed) :
    (c.answering n d post "200" (.ok r)).Balanced
      (tr ++ [.created post.key r.transactionId r.status]) lost := by
  have hledger : ∀ tr : List (ClusterObs ι),
      transactions (tr ++ [.created post.key r.transactionId r.status]) =
        transactions tr + {⟨post.key, r.transactionId, .ofJson (.str r.status)⟩} :=
    fun tr => transactions_append tr _
  refine
    { addressed := haddressed
      balance := ?_
      cached := fun i key response hget => ?_
      replayed := fun i rid request response hin => ?_
      counted := ?_ }
  · have hreported : decisions (tr ++ [.created post.key r.transactionId r.status]) =
        decisions tr := (decisions_append _ _).trans (add_zero _)
    rw [hledger, hreported, answering_inFlight, ← h.balance]
    show _ + (_ + {Decision.mk post.key r.transactionId (.ofJson (.str r.status))}) + _ = _
    abel
  · rw [hledger, Multiset.mem_add]
    exact Or.inl (h.cached i key response hget)
  · rw [hledger, Multiset.mem_add]
    rcases List.mem_append.mp hin with hold | hnew
    · exact Or.inl (h.replayed i rid request response hold)
    · cases List.mem_singleton.mp hnew
  · rw [sinceRestart_append (List.forall_mem_singleton.mpr rfl), hledger, Multiset.card_add,
      ← h.counted]
    show (c.mock.requestsTotal ++ [(Mock.endpoint, "200")]).count _ = _
    rw [List.count_append]
    rfl

/-- A refusal is no decision. -/
private theorem Balanced.refuses (h : c.Balanced tr lost) {n : Nat} {d : Draws} {post : Post ι}
    {status : String} (hstatus : status ≠ "200") {code : Nat} {detail : String}
    (haddressed : (c.answering n d post status (.error (code, detail))).Addressed) :
    (c.answering n d post status (.error (code, detail))).Balanced tr lost := by
  refine { h with
    addressed := haddressed
    balance := ?_
    counted := ?_ }
  · have hsame : (c.answering n d post status (.error (code, detail))).inFlight = c.inFlight :=
      (answering_inFlight _ _ _ _ _ _).trans (add_zero _)
    rw [hsame]
    exact h.balance
  · have hother : [(Mock.endpoint, status)].count (Mock.endpoint, "200") = 0 := by
      rw [List.count_eq_zero, List.mem_singleton, Prod.mk.injEq]
      exact fun heq => hstatus heq.2.symm
    show (c.mock.requestsTotal ++ [(Mock.endpoint, status)]).count _ = _
    rw [List.count_append, hother, add_zero]
    exact h.counted

/-- The new process counts from zero. -/
private theorem Balanced.restarts (h : c.Balanced tr lost) {validApiKeys : Option String}
    {unread : Post ι → Bool}
    (haddressed : { c with
      mock := .start validApiKeys
      transit := c.transit.filter unread }.Addressed) :
    { c with mock := .start validApiKeys, transit := c.transit.filter unread }.Balanced
      (tr ++ [ClusterObs.restarted]) lost := by
  have hledger : transactions (tr ++ [ClusterObs.restarted]) = transactions tr :=
    (transactions_append tr _).trans (add_zero _)
  have hreported : decisions (tr ++ [ClusterObs.restarted]) = decisions tr :=
    (decisions_append tr _).trans (add_zero _)
  refine
    { addressed := haddressed
      balance := ?_
      cached := ?_
      replayed := ?_
      counted := ?_ }
  · rw [hledger, hreported]
    exact h.balance
  · rw [hledger]
    exact h.cached
  · rw [hledger]
    intro i rid request response hin
    rcases List.mem_append.mp hin with hold | hnew
    · exact h.replayed i rid request response hold
    · cases List.mem_singleton.mp hnew
  · rw [sinceRestart, List.rtakeWhile_concat_neg _ _ _ Bool.false_ne_true]
    rfl

/-! ### Runs -/

/-- No answer is lost on its way. -/
def Delivering : ClusterEvent ι → Prop
  | .loseAnswer _ => False
  | _ => True

/-- A step keeps the balance, and only an answer that is lost adds to what is lost. -/
theorem step_balanced [DecidableEq ι] (h : c.Balanced tr lost)
    (hstep : c.step e = some (c', obs)) :
    ∃ lost', c'.Balanced (tr ++ obs) lost' ∧ (Delivering e → lost' = lost) := by
  have haddressed := step_addressed h.addressed hstep
  cases step_cases hstep with
  | replica e i own answers p' o hevent hown =>
      exact ⟨lost, h.stepReplica haddressed hevent hown rfl, fun _ => rfl⟩
  | created n d post r => exact ⟨lost, h.creates r haddressed, fun _ => rfl⟩
  | refused n d post status code detail hpost hrefused hstatus =>
      rw [List.append_nil]
      exact ⟨lost, h.refuses hstatus haddressed, fun _ => rfl⟩
  | lostPost n =>
      rw [List.append_nil]
      exact ⟨lost, { h with addressed := haddressed }, fun _ => rfl⟩
  | lostAnswer n =>
      rw [List.append_nil]
      cases ha : c.answers[n]? with
      | none =>
          rw [List.eraseIdx_of_length_le (List.getElem?_eq_none_iff.mp ha)]
          exact ⟨lost, h, fun _ => rfl⟩
      | some a =>
          refine ⟨lost + (a.decision?.toList : List Decision), ?_, False.elim⟩
          refine { h with addressed := haddressed, balance := ?_ }
          rw [← h.balance, inFlight_eq ha]
          abel
  | restarted => exact ⟨lost, h.restarts haddressed, fun _ => rfl⟩

section Run

variable [DecidableEq ι] {settings : ι → Settings} {manager : ι → CredentialManager}
  {validApiKeys : Option String} {es : List (ClusterEvent ι)}

theorem run_balanced (hrun : run step (start settings manager validApiKeys) es = some (c, tr)) :
    ∃ lost, c.Balanced tr lost := by
  refine run_invariant (I := fun c tr => ∃ lost, c.Balanced tr lost) ?_
    ⟨0, start_balanced settings manager validApiKeys⟩ hrun
  intro c tr e c' obs h hstep
  obtain ⟨lost, h⟩ := h
  obtain ⟨lost', hnext, -⟩ := step_balanced h hstep
  exact ⟨lost', hnext⟩

/-- Where every answer arrives, nothing is lost. -/
theorem run_lossless (hrun : run step (start settings manager validApiKeys) es = some (c, tr))
    (hdelivering : ∀ e ∈ es, Delivering e) : c.Balanced tr 0 := by
  refine run_invariant_along (C := fun _ e => Delivering e) (I := fun c tr => c.Balanced tr 0) ?_
    (start_balanced settings manager validApiKeys) (along_of_forall (fun _ => hdelivering) _) hrun
  intro c tr e c' obs h hhere hstep
  obtain ⟨lost', hnext, hkept⟩ := step_balanced h hstep
  rw [hkept hhere] at hnext
  exact hnext

end Run

/-- In every run of any number of replicas against the mock, with POSTs and answers delayed, lost
and given up on and with any restarts of the mock: the fresh 200s of all replicas together and the
decisions still in flight are matched one to one with transactions of the mock, of the same
idempotency key, transaction id and status, and these are all transactions where no answer is
lost; a replayed 200 repeats a transaction; and the mock has counted one 200 for each transaction
since its last restart. -/
theorem reconciled [DecidableEq ι] (settings : ι → Settings) (manager : ι → CredentialManager)
    (validApiKeys : Option String) (es : List (ClusterEvent ι)) (c : Cluster ι)
    (tr : List (ClusterObs ι))
    (hrun : run step (start settings manager validApiKeys) es = some (c, tr)) :
    decisions tr + c.inFlight ≤ transactions tr ∧
      ((∀ e ∈ es, Delivering e) → decisions tr + c.inFlight = transactions tr) ∧
      (∀ i rid request response, .replica i (.replied rid request (.replay response)) ∈ tr →
        response.decision request.key ∈ transactions tr) ∧
      c.mock.requestsTotal.count (Mock.endpoint, "200") =
        (transactions (sinceRestart tr)).card := by
  obtain ⟨lost, hbalanced⟩ := run_balanced hrun
  refine ⟨?_, fun hdelivering => ?_, hbalanced.replayed, hbalanced.counted⟩
  · rw [← hbalanced.balance]
    exact Multiset.le_add_right _ _
  · have hbalance := (run_lossless hrun hdelivering).balance
    rw [add_zero] at hbalance
    exact hbalance

/-- The answer to a processed POST is lost, the mock is restarted for a new key, and the client
retries the payment on the other replica. -/
def restartedRun : List (ClusterEvent Bool) :=
  [.request true 1 sampleRequest (.at 1), .process 0 (sampleDraws "aaaaaaaaaaaaaaaa"),
    .loseAnswer 0, .giveUp true 1 (.timeout "read timeout") "uuid-1" (.at 11),
    .restart (some "key-v1,key-v2") fun _ => true,
    .request false 1 sampleRequest (.at 12), .process 0 (sampleDraws "bbbbbbbbbbbbbbbb")]

/-- Of two transactions one was lost on its way back and one is in flight, and the mock has counted
the second one only. -/
theorem reconciled_restarted :
    ∃ c tr, run step sampleCluster restartedRun = some (c, tr) ∧
      (transactions tr).card = 2 ∧ c.inFlight.card = 1 ∧
      (transactions (sinceRestart tr)).card = 1 ∧
      (decisions tr + c.inFlight ≤ transactions tr ∧
        ((∀ e ∈ restartedRun, Delivering e) → decisions tr + c.inFlight = transactions tr) ∧
        (∀ i rid request response, .replica i (.replied rid request (.replay response)) ∈ tr →
          response.decision request.key ∈ transactions tr) ∧
        c.mock.requestsTotal.count (Mock.endpoint, "200") =
          (transactions (sinceRestart tr)).card) := by
  obtain ⟨c, tr, hrun, hledger, hinFlight, hcounted⟩ :
      ∃ c tr, run step sampleCluster restartedRun = some (c, tr) ∧
        (transactions tr).card = 2 ∧ c.inFlight.card = 1 ∧
        (transactions (sinceRestart tr)).card = 1 := exists_run (by decide +kernel)
  exact ⟨c, tr, hrun, hledger, hinFlight, hcounted, reconciled (fun _ => sampleSettings)
    (fun _ => sampleManager) (some "key-v1") restartedRun c tr hrun⟩

end Cluster

end PaymentConnector
