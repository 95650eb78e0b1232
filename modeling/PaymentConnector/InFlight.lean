import Mathlib.Data.List.Dedup
import PaymentConnector.OwnSteps

/-!
# The handlers under way

`_in_flight` goes up in the first line of the authorize handler and down in its
`finally` clause, so between two stretches of code it is the number of handlers
suspended at a POST.  These are the requests that the trace shows with a POST and
without an answer.

## Main results

* `Process.run_underWay` — both hold after every run.
-/

namespace PaymentConnector

open Library Library.Machine

/-! ## The counter -/

theorem beginRequest_inFlight (c : Connector) (request : AuthorizeRequest) (t : StartReadings)
    (rid : Nat) :
    (c.beginRequest request t).1.inFlight =
      c.inFlight + (suspended rid request (c.beginRequest request t).2.1).length := by
  have hspec := beginRequest_spec c request t
  generalize c.beginRequest request t = r at hspec ⊢
  cases hspec with
  | refused => simp [suspended]
  | raised => simp [suspended]
  | replayed => simp [suspended]
  | posting => simp [suspended]

private theorem finishRequest_inFlight (c : Connector) (payment : PaymentRequest) (uuid : String)
    (now : Rat) (progress : Progress) (rid : Nat) (request : AuthorizeRequest) :
    (c.finishRequest payment uuid now progress).1.inFlight + 1 =
      c.inFlight +
        (suspended rid request (c.finishRequest payment uuid now progress).2.1).length := by
  cases progress with
  | posting pending => simp [Connector.finishRequest, suspended]
  | failed error =>
      cases error <;>
        simp [Connector.finishRequest, Connector.gatewayFailed, Connector.leave, suspended]
  | escaped exc => simp [Connector.finishRequest, Connector.leave, suspended]
  | returned body =>
      simp only [Connector.finishRequest]
      split <;> simp [Connector.leave, suspended]

theorem resumeRequest_inFlight (c : Connector) (client : GatewayClient)
    (payment : PaymentRequest) (p : Pending) (outcome : PostOutcome) (uuid : String)
    (t : AnswerReadings) (rid : Nat) (request : AuthorizeRequest) :
    (c.resumeRequest client payment p outcome uuid t).1.inFlight + 1 =
      c.inFlight +
        (suspended rid request
          (c.resumeRequest client payment p outcome uuid t).2.1).length := by
  unfold Connector.resumeRequest
  rcases client.resumeAuthorize p outcome t with ⟨client', progress, outputs⟩
  exact finishRequest_inFlight { c with gatewayClient := some client' } payment uuid t.stamp
    progress rid request

/-- One handler goes on and the others stay. -/
private theorem length_filter_rid {waiting : List Handler} {h : Handler}
    (hnodup : (waiting.map Handler.rid).Nodup) (hmem : h ∈ waiting) :
    (waiting.filter (fun h' => h'.rid ≠ h.rid)).length + 1 = waiting.length := by
  induction waiting with
  | nil => cases hmem
  | cons first rest ih =>
      rw [List.map_cons, List.nodup_cons] at hnodup
      by_cases hrid : first.rid = h.rid
      · have hothers : ∀ h' ∈ rest, h'.rid ≠ h.rid := by
          intro h' hin heq
          exact hnodup.1 (hrid ▸ heq ▸ List.mem_map_of_mem hin)
        have hkept : rest.filter (fun h' => h'.rid ≠ h.rid) = rest :=
          List.filter_eq_self.mpr fun h' hin => decide_eq_true (hothers h' hin)
        rw [List.filter_cons_of_neg (by simp [hrid]), hkept, List.length_cons]
      · have hin : h ∈ rest := by
          rcases List.mem_cons.mp hmem with heq | hin
          · exact absurd (congrArg Handler.rid heq.symm) hrid
          · exact hin
        rw [List.filter_cons_of_pos (by simp [hrid]), List.length_cons, List.length_cons,
          ih hnodup.2 hin]

/-- A step moves the counter as it moves the number of suspended handlers. -/
theorem step_inFlight {p p' : Process} {e : Event} {obs : List Obs} (hp : p.WellNamed)
    (hstep : p.step e = some (p', obs)) :
    p'.connector.inFlight + p.waiting.length = p.connector.inFlight + p'.waiting.length := by
  cases e with
  | load read t =>
      cases step_spec hstep with
      | load => rfl
  | request rid request t =>
      simp only [Process.step] at hstep
      split at hstep
      · cases hstep
      · have hcount := beginRequest_inFlight p.connector request t rid
        rcases hbegin : p.connector.beginRequest request t with ⟨connector, advance, outputs⟩
        simp only [hbegin, Option.some.injEq, Prod.mk.injEq] at hstep hcount
        obtain ⟨rfl, rfl⟩ := hstep
        simp only [List.length_append]
        omega
  | answer rid outcome uuid t =>
      simp only [Process.step] at hstep
      split at hstep
      · rename_i client handler hclient hfind
        have hrid : handler.rid = rid := by simpa using List.find?_some hfind
        subst hrid
        have hgone := length_filter_rid hp.distinct (List.mem_of_find?_eq_some hfind)
        have hcount := resumeRequest_inFlight p.connector client handler.request.payment
          handler.pending outcome uuid t handler.rid handler.request
        rcases hresume : p.connector.resumeRequest client handler.request.payment handler.pending
          outcome uuid t with ⟨connector, advance, outputs, evicted⟩
        simp only [hresume, Option.some.injEq, Prod.mk.injEq] at hstep hcount
        obtain ⟨rfl, rfl⟩ := hstep
        simp only [List.length_append]
        omega
      · cases hstep

/-! ## The requests without an answer -/

/-- The request that an observation posts for. -/
def Obs.postedRid? : Obs → Option Nat
  | .posted rid _ _ => some rid
  | _ => none

/-- The request that an observation answers. -/
def Obs.repliedRid? : Obs → Option Nat
  | .replied rid _ _ => some rid
  | _ => none

/-- The requests that a trace shows with a POST and without an answer. -/
def unanswered (tr : List Obs) : List Nat :=
  (tr.filterMap Obs.postedRid?).dedup.filter
    (fun rid => rid ∉ tr.filterMap Obs.repliedRid?)

theorem mem_unanswered {rid : Nat} {tr : List Obs} :
    rid ∈ unanswered tr ↔
      rid ∈ tr.filterMap Obs.postedRid? ∧ ¬ rid ∈ tr.filterMap Obs.repliedRid? := by
  rw [unanswered, List.mem_filter, List.mem_dedup, decide_eq_true_eq]

theorem unanswered_nodup (tr : List Obs) : (unanswered tr).Nodup :=
  (List.nodup_dedup _).filter _

private theorem postedRid?_outputs (outputs : List Output) :
    (outputs.map Obs.output).filterMap Obs.postedRid? = [] :=
  filterMap_map_eq_nil (fun _ => rfl) outputs

private theorem repliedRid?_outputs (outputs : List Output) :
    (outputs.map Obs.output).filterMap Obs.repliedRid? = [] :=
  filterMap_map_eq_nil (fun _ => rfl) outputs

private theorem postedRid?_evictions (keys : List String) :
    (keys.map Obs.evicted).filterMap Obs.postedRid? = [] :=
  filterMap_map_eq_nil (fun _ => rfl) keys

private theorem repliedRid?_evictions (keys : List String) :
    (keys.map Obs.evicted).filterMap Obs.repliedRid? = [] :=
  filterMap_map_eq_nil (fun _ => rfl) keys

/-- What the names shown in a run say about the suspended handlers. -/
structure Process.UnderWay (p : Process) (tr : List Obs) : Prop where
  wellNamed : p.WellNamed
  counted : p.connector.inFlight = p.waiting.length
  posted_seen : ∀ rid ∈ tr.filterMap Obs.postedRid?, rid ∈ p.seen
  replied_seen : ∀ rid ∈ tr.filterMap Obs.repliedRid?, rid ∈ p.seen
  waiting_iff : ∀ rid, rid ∈ p.waiting.map Handler.rid ↔ rid ∈ unanswered tr

/-- How the suspended handlers and the names shown change in a step: not at all, by a
request that is answered at once, by one that suspends, or by a suspended one that is
answered or posts again. -/
inductive HandlerMove (p p' : Process) (obs : List Obs) : Prop
  | idle (hwaiting : p'.waiting.map Handler.rid = p.waiting.map Handler.rid)
      (hseen : p'.seen = p.seen) (hposted : obs.filterMap Obs.postedRid? = [])
      (hreplied : obs.filterMap Obs.repliedRid? = [])
  | turnedDown (rid : Nat) (hfresh : ¬ rid ∈ p.seen)
      (hwaiting : p'.waiting.map Handler.rid = p.waiting.map Handler.rid)
      (hseen : p'.seen = rid :: p.seen) (hposted : obs.filterMap Obs.postedRid? = [])
      (hreplied : obs.filterMap Obs.repliedRid? = [rid])
  | entered (rid : Nat) (hfresh : ¬ rid ∈ p.seen)
      (hwaiting : p'.waiting.map Handler.rid = p.waiting.map Handler.rid ++ [rid])
      (hseen : p'.seen = rid :: p.seen) (hposted : obs.filterMap Obs.postedRid? = [rid])
      (hreplied : obs.filterMap Obs.repliedRid? = [])
  | finished (rid : Nat) (hmem : rid ∈ p.waiting.map Handler.rid)
      (hwaiting : p'.waiting.map Handler.rid =
        (p.waiting.map Handler.rid).filter (fun rid' => rid' ≠ rid))
      (hseen : p'.seen = p.seen) (hposted : obs.filterMap Obs.postedRid? = [])
      (hreplied : obs.filterMap Obs.repliedRid? = [rid])
  | again (rid : Nat) (hmem : rid ∈ p.waiting.map Handler.rid)
      (hwaiting : p'.waiting.map Handler.rid =
        (p.waiting.map Handler.rid).filter (fun rid' => rid' ≠ rid) ++ [rid])
      (hseen : p'.seen = p.seen) (hposted : obs.filterMap Obs.postedRid? = [rid])
      (hreplied : obs.filterMap Obs.repliedRid? = [])

private theorem map_filter_rid (waiting : List Handler) (rid : Nat) :
    (waiting.filter (fun h => h.rid ≠ rid)).map Handler.rid =
      (waiting.map Handler.rid).filter (fun rid' => rid' ≠ rid) := by
  rw [List.filter_map]
  rfl

theorem step_handlerMove {p p' : Process} {e : Event} {obs : List Obs}
    (hstep : p.step e = some (p', obs)) : HandlerMove p p' obs := by
  cases step_spec hstep with
  | load =>
      exact .idle rfl rfl
        (by rw [List.filterMap_append, postedRid?_outputs]; rfl)
        (by rw [List.filterMap_append, repliedRid?_outputs]; rfl)
  | refused rid request t client code detail outputs hseen =>
      exact .turnedDown rid hseen rfl rfl
        (by rw [List.filterMap_append, postedRid?_outputs]; rfl)
        (by rw [List.filterMap_append, repliedRid?_outputs]; rfl)
  | raised rid request t exc outputs hseen =>
      exact .turnedDown rid hseen rfl rfl
        (by rw [List.filterMap_append, postedRid?_outputs]; rfl)
        (by rw [List.filterMap_append, repliedRid?_outputs]; rfl)
  | replayed rid request t manager cached outputs hseen =>
      exact .turnedDown rid hseen rfl rfl
        (by rw [List.filterMap_append, postedRid?_outputs]; rfl)
        (by rw [List.filterMap_append, repliedRid?_outputs]; rfl)
  | posting rid request t manager client primary hseen =>
      exact .entered rid hseen (by rw [List.map_append]; rfl) rfl rfl rfl
  | stored h outcome uuid t client inFlight outputs body response hmem =>
      refine .finished h.rid (List.mem_map_of_mem hmem) (map_filter_rid _ _) rfl ?_ ?_
      · rw [storedObs, List.filterMap_append, postedRid?_outputs, List.nil_append,
          List.filterMap_cons_none rfl, List.filterMap_append, postedRid?_evictions]
        rfl
      · rw [storedObs, List.filterMap_append, repliedRid?_outputs, List.nil_append,
          List.filterMap_cons_none rfl, List.filterMap_append, repliedRid?_evictions]
        rfl
  | failed h outcome uuid t client inFlight outputs reply hmem =>
      exact .finished h.rid (List.mem_map_of_mem hmem) (map_filter_rid _ _) rfl
        (by rw [List.filterMap_append, postedRid?_outputs]; rfl)
        (by rw [List.filterMap_append, repliedRid?_outputs]; rfl)
  | fallback h outcome uuid t client inFlight outputs credential hmem =>
      exact .again h.rid (List.mem_map_of_mem hmem)
        (by rw [List.map_append, map_filter_rid]; rfl) rfl
        (by rw [List.filterMap_append, postedRid?_outputs]; rfl)
        (by rw [List.filterMap_append, repliedRid?_outputs]; rfl)

namespace Process

theorem start_underWay (settings : Settings) (manager : CredentialManager) :
    (start settings manager).UnderWay [] where
  wellNamed := start_wellNamed settings manager
  counted := rfl
  posted_seen := fun _ h => absurd h List.not_mem_nil
  replied_seen := fun _ h => absurd h List.not_mem_nil
  waiting_iff := fun _ => Iff.rfl

/-- The names shown are given out. -/
private theorem UnderWay.step_seen {p p' : Process} {tr obs : List Obs} {e : Event}
    (h : p.UnderWay tr) (hstep : p.step e = some (p', obs)) (rid : Nat)
    (hrid : rid ∈ (tr ++ obs).filterMap Obs.postedRid? ∨
      rid ∈ (tr ++ obs).filterMap Obs.repliedRid?) : rid ∈ p'.seen := by
  have hwaiting : ∀ rid' ∈ p.waiting.map Handler.rid, rid' ∈ p.seen := fun rid' hmem =>
    h.posted_seen rid' (mem_unanswered.mp ((h.waiting_iff rid').mp hmem)).1
  have hold : rid ∈ tr.filterMap Obs.postedRid? ∨ rid ∈ tr.filterMap Obs.repliedRid? →
      rid ∈ p.seen := fun hor => hor.elim (h.posted_seen rid) (h.replied_seen rid)
  rw [List.filterMap_append, List.filterMap_append, List.mem_append, List.mem_append] at hrid
  cases step_handlerMove hstep with
  | idle hwaiting' hseen hposted hreplied =>
      rw [hposted, hreplied] at hrid
      rw [hseen]
      exact hold (by simpa using hrid)
  | turnedDown rid' hfresh hwaiting' hseen hposted hreplied
  | entered rid' hfresh hwaiting' hseen hposted hreplied =>
      rw [hposted, hreplied] at hrid
      rw [hseen, List.mem_cons]
      by_cases heq : rid = rid'
      · exact Or.inl heq
      · exact Or.inr (hold (by simpa [heq] using hrid))
  | finished rid' hmem hwaiting' hseen hposted hreplied
  | again rid' hmem hwaiting' hseen hposted hreplied =>
      rw [hposted, hreplied] at hrid
      rw [hseen]
      by_cases heq : rid = rid'
      · exact heq ▸ hwaiting rid' hmem
      · exact hold (by simpa [heq] using hrid)

/-- The suspended handlers are those of the requests without an answer. -/
private theorem UnderWay.step_waiting {p p' : Process} {tr obs : List Obs} {e : Event}
    (h : p.UnderWay tr) (hstep : p.step e = some (p', obs)) (rid : Nat) :
    rid ∈ p'.waiting.map Handler.rid ↔ rid ∈ unanswered (tr ++ obs) := by
  have hiff := h.waiting_iff rid
  rw [mem_unanswered] at hiff ⊢
  rw [List.filterMap_append, List.filterMap_append, List.mem_append, List.mem_append]
  cases step_handlerMove hstep with
  | idle hwaiting hseen hposted hreplied => simpa [hposted, hreplied, hwaiting] using hiff
  | turnedDown rid' hfresh hwaiting hseen hposted hreplied =>
      rw [hposted, hreplied, hwaiting]
      by_cases heq : rid = rid'
      · subst heq
        have hout : ¬ rid ∈ p.waiting.map Handler.rid := fun hin =>
          hfresh (h.posted_seen rid (hiff.mp hin).1)
        simp [hout]
      · simpa [heq] using hiff
  | entered rid' hfresh hwaiting hseen hposted hreplied =>
      rw [hposted, hreplied, hwaiting]
      by_cases heq : rid = rid'
      · subst heq
        have hout : ¬ rid ∈ tr.filterMap Obs.repliedRid? := fun hin =>
          hfresh (h.replied_seen rid hin)
        simp [hout]
      · simpa [heq] using hiff
  | finished rid' hmem hwaiting hseen hposted hreplied =>
      rw [hposted, hreplied, hwaiting]
      by_cases heq : rid = rid'
      · simp [heq]
      · simpa [heq] using hiff
  | again rid' hmem hwaiting hseen hposted hreplied =>
      rw [hposted, hreplied, hwaiting]
      by_cases heq : rid = rid'
      · subst heq
        simp [(hiff.mp hmem).2]
      · simpa [heq] using hiff

theorem UnderWay.step {p p' : Process} {tr obs : List Obs} {e : Event} (h : p.UnderWay tr)
    (hstep : p.step e = some (p', obs)) : p'.UnderWay (tr ++ obs) where
  wellNamed := step_wellNamed h.wellNamed hstep
  counted := by
    have hcount := step_inFlight h.wellNamed hstep
    have hcounted := h.counted
    omega
  posted_seen := fun rid hrid => h.step_seen hstep rid (Or.inl hrid)
  replied_seen := fun rid hrid => h.step_seen hstep rid (Or.inr hrid)
  waiting_iff := h.step_waiting hstep

theorem run_underWay {p p' : Process} {es : List Event} {tr tr' : List Obs} (h : p.UnderWay tr)
    (hrun : run Process.step p es = some (p', tr')) : p'.UnderWay (tr ++ tr') := by
  induction es generalizing p tr tr' with
  | nil =>
      obtain ⟨rfl, rfl⟩ := run_nil_iff.mp hrun
      rw [List.append_nil]
      exact h
  | cons e es ih =>
      obtain ⟨p₁, o₁, tr₁, hs, hr, rfl⟩ := run_cons_iff.mp hrun
      rw [← List.append_assoc]
      exact ih (h.step hs) hr

/-- The counter counts the requests without an answer. -/
theorem UnderWay.inFlight_eq {p : Process} {tr : List Obs} (h : p.UnderWay tr) :
    p.connector.inFlight = (unanswered tr).length := by
  have hperm : (p.waiting.map Handler.rid).Perm (unanswered tr) :=
    (List.perm_ext_iff_of_nodup h.wellNamed.distinct (unanswered_nodup tr)).mpr h.waiting_iff
  rw [h.counted, ← hperm.length_eq, List.length_map]

end Process

end PaymentConnector
