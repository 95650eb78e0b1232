import PaymentConnector.Process
import PaymentConnector.VaultGatewayMock

/-!
# Replicas against the gateway mock

Any number of connector replicas, each with its own idempotency cache, send
POSTs to one mock.  POSTs and answers are in flight for any length of time, can
be lost, and can be processed after the connector has given up on them.  The
keys that the mock accepts are in its environment, so they change only with a
restart: the new process counts from zero, and the POSTs that the old one had
taken and not answered are dropped.

## Main results

* `Cluster.step_cases` — what a step of the cluster can do.
* `Cluster.step_addressed` — every message belongs to a request of its replica
  and carries its key.
-/

namespace PaymentConnector

open Library Library.Machine VaultGatewayMock

variable {ι : Type}

/-- A POST on its way to the mock, with the key in its `X-Gateway-API-Key`. -/
structure Post (ι : Type) where
  replica : ι
  rid : Nat
  payment : PaymentRequest
  apiKey : String

/-- An answer on its way back to a handler of a replica. -/
structure Answer (ι : Type) where
  replica : ι
  rid : Nat
  key : String
  outcome : PostOutcome

/-- The request of a POST. -/
def Post.sender (post : Post ι) : ι × Nat := (post.replica, post.rid)

def Post.key (post : Post ι) : String := post.payment.idempotencyKey

/-- The request of an answer. -/
def Answer.sender (a : Answer ι) : ι × Nat := (a.replica, a.rid)

structure Cluster (ι : Type) where
  replicas : ι → Process
  mock : Mock
  transit : List (Post ι)
  answers : List (Answer ι)

/-- How the HTTP client of a replica gives up on a POST. -/
inductive PostFailure
  | timeout (error : String)
  | httpError (error : String)

def PostFailure.outcome : PostFailure → PostOutcome
  | .timeout error => .timeout error
  | .httpError error => .httpError error

/-- In a restart of the mock, `unread` tells which of the POSTs on their way its old process
has not taken yet. -/
inductive ClusterEvent (ι : Type)
  | load (i : ι) (read : VaultRead) (t : LoadReadings)
  | request (i : ι) (rid : Nat) (request : AuthorizeRequest) (t : StartReadings)
  | process (n : Nat) (d : Draws)
  | deliver (n : Nat) (uuid : String) (t : AnswerReadings)
  | giveUp (i : ι) (rid : Nat) (failure : PostFailure) (uuid : String) (t : AnswerReadings)
  | losePost (n : Nat)
  | loseAnswer (n : Nat)
  | restart (validApiKeys : Option String) (unread : Post ι → Bool)

/-- What a step makes visible: what a replica shows, the transactions that the
mock creates and its restarts. -/
inductive ClusterObs (ι : Type)
  | replica (i : ι) (obs : Obs)
  | created (key : String) (transactionId : String) (status : String)
  | restarted

/-- The POST that a replica sends, if the credential's key can be a header. -/
def post? (i : ι) : Obs → Option (Post ι)
  | .posted rid _ pending =>
      match pending.credential.apiKey with
      | .str apiKey => some ⟨i, rid, pending.payload, apiKey⟩
      | _ => none
  | _ => none

namespace Cluster

/-- The cluster after start-up. -/
def start (settings : ι → Settings) (manager : ι → CredentialManager)
    (validApiKeys : Option String) : Cluster ι where
  replicas := fun i => .start (settings i) (manager i)
  mock := .start validApiKeys
  transit := []
  answers := []

/-- A step of one replica; what it posts is in flight from then on. -/
def stepReplica [DecidableEq ι] (c : Cluster ι) (i : ι) (e : Event) :
    Option (Cluster ι × List (ClusterObs ι)) :=
  match (c.replicas i).step e with
  | none => none
  | some (p', obs) =>
      some
        ({ c with
            replicas := Function.update c.replicas i p'
            transit := c.transit ++ obs.filterMap (post? i) },
          obs.map (ClusterObs.replica i))

/-- The mock answers the POST at place `n`. -/
def process (c : Cluster ι) (n : Nat) (d : Draws) : Option (Cluster ι × List (ClusterObs ι)) :=
  match c.transit[n]? with
  | none => none
  | some post =>
      let (mock, result) :=
        c.mock.authorizeTransaction post.payment.payload (some post.apiKey) d
      some
        ({ c with
            mock := mock
            transit := c.transit.eraseIdx n
            answers := c.answers ++ [⟨post.replica, post.rid, post.key, answer result⟩] },
          match result with
          | .error _ => []
          | .ok r => [.created post.key r.transactionId r.status])

/-- One step of the cluster. -/
def step [DecidableEq ι] (c : Cluster ι) : ClusterEvent ι → Option (Cluster ι × List (ClusterObs ι))
  | .load i read t => c.stepReplica i (.load read t)
  | .request i rid request t => c.stepReplica i (.request rid request t)
  | .process n d => c.process n d
  | .deliver n uuid t =>
      match c.answers[n]? with
      | none => none
      | some a =>
          { c with answers := c.answers.eraseIdx n }.stepReplica a.replica
            (.answer a.rid a.outcome uuid t)
  | .giveUp i rid failure uuid t => c.stepReplica i (.answer rid failure.outcome uuid t)
  | .losePost n => some ({ c with transit := c.transit.eraseIdx n }, [])
  | .loseAnswer n => some ({ c with answers := c.answers.eraseIdx n }, [])
  | .restart validApiKeys unread =>
      some
        ({ c with mock := .start validApiKeys, transit := c.transit.filter unread }, [.restarted])

/-! ## What a step can do -/

/-- The events in which a replica takes a step of its own, and the answers that they leave in
flight. -/
inductive OwnStep (c : Cluster ι) : ClusterEvent ι → ι → Event → List (Answer ι) → Prop
  | load (i : ι) (read : VaultRead) (t : LoadReadings) :
      OwnStep c (.load i read t) i (.load read t) c.answers
  | request (i : ι) (rid : Nat) (request : AuthorizeRequest) (t : StartReadings) :
      OwnStep c (.request i rid request t) i (.request rid request t) c.answers
  | delivered (n : Nat) (uuid : String) (t : AnswerReadings) (a : Answer ι)
      (ha : c.answers[n]? = some a) :
      OwnStep c (.deliver n uuid t) a.replica (.answer a.rid a.outcome uuid t)
        (c.answers.eraseIdx n)
  | givenUp (i : ι) (rid : Nat) (failure : PostFailure) (uuid : String) (t : AnswerReadings) :
      OwnStep c (.giveUp i rid failure uuid t) i (.answer rid failure.outcome uuid t) c.answers

/-- The cluster after the mock answered the POST at place `n`. -/
def answering (c : Cluster ι) (n : Nat) (d : Draws) (post : Post ι) (status : String)
    (result : Except (Nat × String) VaultGatewayMock.AuthorizeResponse) : Cluster ι :=
  { c with
    mock := c.mock.record status d
    transit := c.transit.eraseIdx n
    answers := c.answers ++ [⟨post.replica, post.rid, post.key, answer result⟩] }

inductive StepCases [DecidableEq ι] (c : Cluster ι) :
    ClusterEvent ι → Cluster ι → List (ClusterObs ι) → Prop
  | replica (e : ClusterEvent ι) (i : ι) (own : Event) (answers : List (Answer ι)) (p' : Process)
      (o : List Obs) (hevent : c.OwnStep e i own answers)
      (hown : (c.replicas i).step own = some (p', o)) :
      StepCases c e
        { c with
          replicas := Function.update c.replicas i p'
          transit := c.transit ++ o.filterMap (post? i)
          answers := answers }
        (o.map (ClusterObs.replica i))
  | created (n : Nat) (d : Draws) (post : Post ι) (r : VaultGatewayMock.AuthorizeResponse)
      (hpost : c.transit[n]? = some post)
      (haccepted : acceptsKey c.mock.validApiKeys post.apiKey = true) :
      StepCases c (.process n d) (c.answering n d post "200" (.ok r))
        [.created post.key r.transactionId r.status]
  | refused (n : Nat) (d : Draws) (post : Post ι) (status : String) (code : Nat)
      (detail : String) (hpost : c.transit[n]? = some post)
      (hrefused : ¬ acceptsKey c.mock.validApiKeys post.apiKey = true) (hstatus : status ≠ "200")
      (hcode : code = 401 ∨ code = 403) :
      StepCases c (.process n d) (c.answering n d post status (.error (code, detail))) []
  | lostPost (n : Nat) : StepCases c (.losePost n) { c with transit := c.transit.eraseIdx n } []
  | lostAnswer (n : Nat) :
      StepCases c (.loseAnswer n) { c with answers := c.answers.eraseIdx n } []
  | restarted (validApiKeys : Option String) (unread : Post ι → Bool) :
      StepCases c (.restart validApiKeys unread)
        { c with mock := .start validApiKeys, transit := c.transit.filter unread } [.restarted]

variable {c c' : Cluster ι} {obs : List (ClusterObs ι)}

private theorem stepReplica_eq [DecidableEq ι] {i : ι} {e : Event}
    (h : c.stepReplica i e = some (c', obs)) :
    ∃ p' o, (c.replicas i).step e = some (p', o) ∧ obs = o.map (ClusterObs.replica i) ∧
      c' = { c with
        replicas := Function.update c.replicas i p'
        transit := c.transit ++ o.filterMap (post? i) } := by
  unfold stepReplica at h
  cases hstep : (c.replicas i).step e with
  | none =>
      rw [hstep] at h
      cases h
  | some r =>
      obtain ⟨p', o⟩ := r
      rw [hstep] at h
      have heq := Option.some.inj h
      exact ⟨p', o, rfl, (congrArg Prod.snd heq).symm, (congrArg Prod.fst heq).symm⟩

private theorem process_cases [DecidableEq ι] {n : Nat} {d : Draws}
    (h : c.process n d = some (c', obs)) : c.StepCases (.process n d) c' obs := by
  unfold process at h
  cases hpost : c.transit[n]? with
  | none =>
      rw [hpost] at h
      cases h
  | some post =>
      have hiff := authorizeTransaction_ok_iff c.mock post.payment.payload post.apiKey d
      rw [hpost] at h
      rcases authorizeTransaction_cases c.mock post.payment.payload post.apiKey d with
        ⟨r, hok⟩ | ⟨status, code, detail, hstatus, hcode, hrefused⟩
      · rw [hok] at hiff
        simp only [hok, Option.some.injEq, Prod.mk.injEq] at h
        obtain ⟨rfl, rfl⟩ := h
        exact .created n d post r hpost (hiff.mp ⟨r, rfl⟩)
      · rw [hrefused] at hiff
        simp only [hrefused, Option.some.injEq, Prod.mk.injEq] at h
        obtain ⟨rfl, rfl⟩ := h
        refine .refused n d post status code detail hpost (fun haccepted => ?_) hstatus hcode
        obtain ⟨response, hok⟩ := hiff.mpr haccepted
        cases hok

theorem step_cases [DecidableEq ι] {e : ClusterEvent ι} (h : c.step e = some (c', obs)) :
    c.StepCases e c' obs := by
  cases e with
  | load i read t =>
      obtain ⟨p', o, hown, rfl, rfl⟩ := stepReplica_eq h
      exact .replica _ i _ _ p' o (.load i read t) hown
  | request i rid request t =>
      obtain ⟨p', o, hown, rfl, rfl⟩ := stepReplica_eq h
      exact .replica _ i _ _ p' o (.request i rid request t) hown
  | giveUp i rid failure uuid t =>
      obtain ⟨p', o, hown, rfl, rfl⟩ := stepReplica_eq h
      exact .replica _ i _ _ p' o (.givenUp i rid failure uuid t) hown
  | deliver n uuid t =>
      simp only [step] at h
      split at h
      · cases h
      · rename_i a ha
        obtain ⟨p', o, hown, rfl, rfl⟩ := stepReplica_eq h
        exact .replica _ a.replica _ _ p' o (.delivered n uuid t a ha) hown
  | process n d => exact process_cases h
  | losePost n =>
      obtain ⟨rfl, rfl⟩ := Prod.mk.inj (Option.some.inj h)
      exact .lostPost n
  | loseAnswer n =>
      obtain ⟨rfl, rfl⟩ := Prod.mk.inj (Option.some.inj h)
      exact .lostAnswer n
  | restart validApiKeys unread =>
      obtain ⟨rfl, rfl⟩ := Prod.mk.inj (Option.some.inj h)
      exact .restarted validApiKeys unread

end Cluster

/-! ## Messages and their requests -/

namespace Process

variable {p p' : Process} {e : Event} {obs : List Obs} {rid : Nat} {key : String}

/-- A name that was given out belongs, if at all, to a handler of this key. -/
structure Owns (p : Process) (rid : Nat) (key : String) : Prop where
  seen : rid ∈ p.seen
  own : ∀ h ∈ p.waiting, h.rid = rid → h.request.key = key

theorem step_owns (h : p.Owns rid key) (hstep : p.step e = some (p', obs)) : p'.Owns rid key := by
  cases step_spec hstep with
  | load => exact ⟨h.seen, h.own⟩
  | refused => exact ⟨List.mem_cons_of_mem _ h.seen, h.own⟩
  | raised => exact ⟨List.mem_cons_of_mem _ h.seen, h.own⟩
  | replayed => exact ⟨List.mem_cons_of_mem _ h.seen, h.own⟩
  | posting rid' request t manager client primary hseen =>
      refine ⟨List.mem_cons_of_mem _ h.seen, ?_⟩
      intro handler hmem hrid
      rcases List.mem_append.mp hmem with hold | hnew
      · exact h.own handler hold hrid
      · rw [List.mem_singleton.mp hnew] at hrid
        have hfresh : ¬ rid ∈ p.seen := hrid ▸ hseen
        exact absurd h.seen hfresh
  | stored handler => exact ⟨h.seen, fun h' hmem => h.own h' (mem_filter_rid hmem).1⟩
  | failed handler => exact ⟨h.seen, fun h' hmem => h.own h' (mem_filter_rid hmem).1⟩
  | fallback handler outcome uuid t client inFlight outputs credential hmem =>
      refine ⟨h.seen, ?_⟩
      intro h' hmem' hrid
      rcases List.mem_append.mp hmem' with hold | hnew
      · exact h.own h' (mem_filter_rid hold).1 hrid
      · rw [List.mem_singleton.mp hnew] at hrid ⊢
        exact h.own handler hmem hrid

/-- Suspended handlers have names, and post the payments of their requests. -/
structure Posting (p : Process) : Prop where
  named : p.WellNamed
  payload : ∀ h ∈ p.waiting, h.pending.payload = h.request.payment

theorem start_posting (settings : Settings) (manager : CredentialManager) :
    (start settings manager).Posting where
  named := start_wellNamed settings manager
  payload := fun _ h => absurd h List.not_mem_nil

theorem step_posting (hp : p.Posting) (hstep : p.step e = some (p', obs)) : p'.Posting where
  named := step_wellNamed hp.named hstep
  payload := by
    cases step_spec hstep with
    | load => exact hp.payload
    | refused => exact hp.payload
    | raised => exact hp.payload
    | replayed => exact hp.payload
    | posting rid request =>
        intro h hmem
        rcases List.mem_append.mp hmem with hold | hnew
        · exact hp.payload h hold
        · rw [List.mem_singleton.mp hnew]
    | stored => exact fun h hmem => hp.payload h (mem_filter_rid hmem).1
    | failed => exact fun h hmem => hp.payload h (mem_filter_rid hmem).1
    | fallback handler outcome uuid t client inFlight outputs credential hin =>
        intro h hmem
        rcases List.mem_append.mp hmem with hold | hnew
        · exact hp.payload h (mem_filter_rid hold).1
        · rw [List.mem_singleton.mp hnew]
          exact hp.payload handler hin

/-- What is posted is awaited by the handler of its name. -/
theorem step_posted {payment : PaymentRequest} {pending : Pending}
    (hstep : p.step e = some (p', obs)) (h : .posted rid payment pending ∈ obs) :
    ∃ handler ∈ p'.waiting, handler.rid = rid ∧ handler.pending = pending := by
  cases step_spec hstep with
  | load => simp at h
  | refused => simp at h
  | raised => simp at h
  | replayed => simp at h
  | stored => simp [storedObs] at h
  | failed => simp at h
  | posting =>
      obtain ⟨rfl, rfl, rfl⟩ := Obs.posted.inj (List.mem_singleton.mp h)
      exact ⟨_, List.mem_append_right _ (List.mem_singleton.mpr rfl), rfl, rfl⟩
  | fallback =>
      simp at h
      obtain ⟨rfl, rfl, rfl⟩ := h
      exact ⟨_, List.mem_append_right _ (List.mem_singleton.mpr rfl), rfl, rfl⟩

/-- A suspended handler owns its name. -/
theorem WellNamed.owns (hp : p.WellNamed) {h : Handler} (hmem : h ∈ p.waiting) :
    p.Owns h.rid h.request.key where
  seen := hp.named h hmem
  own := fun h' hmem' hrid => by rw [hp.eq_of_rid hmem' hmem hrid]

end Process

/-- What a replica posts is awaited by a handler of the replica with this payment. -/
theorem exists_handler_of_post {i : ι} {p p' : Process} {e : Event} {o : List Obs}
    (hp : p.Posting) (hstep : p.step e = some (p', o)) {post : Post ι}
    (h : post ∈ o.filterMap (post? i)) :
    post.replica = i ∧ ∃ handler ∈ p'.waiting, handler.rid = post.rid ∧
      handler.request.key = post.key := by
  obtain ⟨x, hx, hpost⟩ := List.mem_filterMap.mp h
  cases x with
  | posted rid payment pending =>
      simp only [post?] at hpost
      split at hpost
      · obtain rfl := Option.some.inj hpost
        obtain ⟨handler, hmem, hrid, rfl⟩ := Process.step_posted hstep hx
        refine ⟨rfl, handler, hmem, hrid, ?_⟩
        show handler.request.payment.idempotencyKey = handler.pending.payload.idempotencyKey
        rw [(Process.step_posting hp hstep).payload handler hmem]
      · cases hpost
  | _ => cases hpost

/-- An answer that the mock can give: a refused key, or a transaction. -/
inductive PostOutcome.Mocked : PostOutcome → Prop
  | refused (code : Nat) (detail : String) (hcode : code = 401 ∨ code = 403) :
      Mocked (answer (.error (code, detail)))
  | created (r : AuthorizeResponse) : Mocked (answer (.ok r))

namespace Cluster

/-- Every message belongs to a handler of its key. -/
structure Addressed (c : Cluster ι) : Prop where
  posting : ∀ i, (c.replicas i).Posting
  posts : ∀ post ∈ c.transit, (c.replicas post.replica).Owns post.rid post.key
  answers : ∀ a ∈ c.answers, (c.replicas a.replica).Owns a.rid a.key ∧ a.outcome.Mocked

theorem start_addressed (settings : ι → Settings) (manager : ι → CredentialManager)
    (validApiKeys : Option String) : (start settings manager validApiKeys).Addressed where
  posting := fun i => Process.start_posting (settings i) (manager i)
  posts := fun _ h => absurd h List.not_mem_nil
  answers := fun _ h => absurd h List.not_mem_nil

variable {c c' : Cluster ι} {e : ClusterEvent ι} {obs : List (ClusterObs ι)}

theorem OwnStep.mem_answers {i : ι} {own : Event} {answers : List (Answer ι)}
    (h : c.OwnStep e i own answers) {a : Answer ι} (ha : a ∈ answers) : a ∈ c.answers := by
  cases h with
  | delivered n => exact List.mem_of_mem_eraseIdx ha
  | load => exact ha
  | request => exact ha
  | givenUp => exact ha

/-- The mock answers a POST under the name and the key of its request. -/
private theorem Addressed.answering (h : c.Addressed) {n : Nat} (d : Draws) {post : Post ι}
    (status : String) {result : Except (Nat × String) VaultGatewayMock.AuthorizeResponse}
    (hpost : c.transit[n]? = some post) (hmocked : (answer result).Mocked) :
    (c.answering n d post status result).Addressed where
  posting := h.posting
  posts := fun post' hin => h.posts post' (List.mem_of_mem_eraseIdx hin)
  answers := by
    intro a ha
    rcases List.mem_append.mp ha with hold | hnew
    · exact h.answers a hold
    · rw [List.mem_singleton.mp hnew]
      exact ⟨h.posts post (List.mem_of_getElem? hpost), hmocked⟩

variable [DecidableEq ι]

/-- What holds of the replica that takes a step and of the others holds of all. -/
theorem forall_update {C : ι → Process → Prop} {i : ι} {p' : Process}
    (hown : C i p') (hothers : ∀ j, j ≠ i → C j (c.replicas j)) (j : ι) :
    C j (Function.update c.replicas i p' j) := by
  by_cases hij : j = i
  · subst hij
    rw [Function.update_self]
    exact hown
  · rw [Function.update_of_ne hij]
    exact hothers j hij

/-- Where one replica takes a step, what the others own stays theirs. -/
theorem update_owns {i : ι} {own : Event} {p' : Process} {o : List Obs}
    (hown : (c.replicas i).step own = some (p', o)) {j : ι} {rid : Nat} {key : String}
    (h : (c.replicas j).Owns rid key) : (Function.update c.replicas i p' j).Owns rid key := by
  by_cases hij : j = i
  · subst hij
    rw [Function.update_self]
    exact Process.step_owns h hown
  · rw [Function.update_of_ne hij]
    exact h

theorem step_addressed (h : c.Addressed) (hstep : c.step e = some (c', obs)) : c'.Addressed := by
  cases step_cases hstep with
  | replica e i own answers p' o hevent hown =>
      have hnext := Process.step_posting (h.posting i) hown
      refine ⟨forall_update (C := fun _ p => p.Posting) hnext fun j _ => h.posting j, ?_, ?_⟩
      · intro post hin
        rcases List.mem_append.mp hin with hold | hnew
        · exact update_owns hown (h.posts post hold)
        · obtain ⟨hi, handler, hmem, hrid, hkey⟩ := exists_handler_of_post (h.posting i) hown hnew
          have howns := hnext.named.owns hmem
          rw [hrid, hkey] at howns
          show (Function.update c.replicas i p' post.replica).Owns _ _
          rw [hi, Function.update_self]
          exact howns
      · intro a ha
        obtain ⟨howns, hmocked⟩ := h.answers a (hevent.mem_answers ha)
        exact ⟨update_owns hown howns, hmocked⟩
  | created n d post r hpost => exact h.answering d "200" hpost (.created r)
  | refused n d post status code detail hpost hrefused hstatus hcode =>
      exact h.answering d status hpost (.refused code detail hcode)
  | lostPost n =>
      exact { h with posts := fun post hin => h.posts post (List.mem_of_mem_eraseIdx hin) }
  | lostAnswer n =>
      exact { h with answers := fun a ha => h.answers a (List.mem_of_mem_eraseIdx ha) }
  | restarted validApiKeys unread =>
      exact { h with posts := fun post hin => h.posts post (List.mem_of_mem_filter hin) }

end Cluster

/-! ## A sample cluster -/

/-- Two replicas and a mock that accepts their key. -/
def sampleCluster : Cluster Bool :=
  .start (fun _ => sampleSettings) (fun _ => sampleManager) (some "key-v1")

def sampleDraws (hex : String) : Draws := ⟨0, hex, 0, 0, "2026-01-01T00:00:00+00:00"⟩

/-- The answer to a processed POST is lost and the client retries the payment
on the other replica. -/
def lostAnswerRun : List (ClusterEvent Bool) :=
  [.request true 1 sampleRequest (.at 1), .process 0 (sampleDraws "aaaaaaaaaaaaaaaa"),
    .loseAnswer 0, .giveUp true 1 (.timeout "read timeout") "uuid-1" (.at 11),
    .request false 1 sampleRequest (.at 12), .process 0 (sampleDraws "bbbbbbbbbbbbbbbb")]

end PaymentConnector
