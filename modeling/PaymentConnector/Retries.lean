import Mathlib.Algebra.Order.Group.Multiset
import Mathlib.Tactic.Abel
import Mathlib.Tactic.GCongr
import PaymentConnector.Cluster

/-!
# Retries across the two services

The connector and the design document rely on the gateway to deduplicate by
`idempotency_key`.  The mock creates a transaction for every POST with an
accepted API key, so a payment is charged at most once only as far as the
connector keeps a retry from being posted: when it comes to the replica that
has been answered before, and that has not evicted the response since.

## Main results

* `run_tracked` — of the POSTs of one request the mock accepts at most one, and
  each belongs to a request that missed the cache of its replica.
* `createdKeys_nodup_iff` — the exact condition for at most one transaction per
  idempotency key.
-/

namespace PaymentConnector

open Library Library.Machine VaultGatewayMock

variable {ι : Type}

/-- The key of a transaction that is created. -/
def createdKey? : ClusterObs ι → Option String
  | .created key _ _ => some key
  | .replica _ _ | .restarted => none

/-- The keys of the transactions the mock has created, one for each. -/
def createdKeys (tr : List (ClusterObs ι)) : List String := tr.filterMap createdKey?

theorem createdKeys_replica (i : ι) (obs : List Obs) :
    createdKeys (obs.map (ClusterObs.replica i)) = [] := by
  rw [createdKeys, List.filterMap_map]
  exact List.filterMap_none obs

namespace Process

variable {p p' : Process} {e : Event} {obs : List Obs}

/-- A suspended handler was suspended before, or has just missed the cache. -/
theorem step_handlers (hstep : p.step e = some (p', obs)) {h : Handler} (hmem : h ∈ p'.waiting) :
    (∃ h₀ ∈ p.waiting, h₀.rid = h.rid ∧ h₀.request = h.request) ∨
      ∃ t, e = .request h.rid h.request t ∧
        ¬ h.request.key ∈ p.connector.idempotencyCache := by
  cases step_spec hstep with
  | load => exact Or.inl ⟨h, hmem, rfl, rfl⟩
  | refused => exact Or.inl ⟨h, hmem, rfl, rfl⟩
  | raised => exact Or.inl ⟨h, hmem, rfl, rfl⟩
  | replayed => exact Or.inl ⟨h, hmem, rfl, rfl⟩
  | stored => exact Or.inl ⟨h, (mem_filter_rid hmem).1, rfl, rfl⟩
  | failed => exact Or.inl ⟨h, (mem_filter_rid hmem).1, rfl, rfl⟩
  | posting rid request t manager client primary hseen haccepted hmanager hvalid hmiss =>
      rcases List.mem_append.mp hmem with hold | hnew
      · exact Or.inl ⟨h, hold, rfl, rfl⟩
      · rw [List.mem_singleton.mp hnew]
        exact Or.inr ⟨t, rfl, (OrderedDict.get?_eq_none_iff _ _).mp hmiss⟩
  | fallback handler outcome uuid t client inFlight outputs credential hin =>
      rcases List.mem_append.mp hmem with hold | hnew
      · exact Or.inl ⟨h, (mem_filter_rid hold).1, rfl, rfl⟩
      · rw [List.mem_singleton.mp hnew]
        exact Or.inl ⟨handler, hin, rfl, rfl⟩

/-- The requests whose POSTs a step sends: a new one, or one whose POST was refused. -/
inductive Sends (p : Process) (i : ι) : Event → List (ι × Nat) → Prop
  | nothing (e : Event) : Sends p i e []
  | first (rid : Nat) (request : AuthorizeRequest) (t : StartReadings) (hfresh : ¬ rid ∈ p.seen) :
      Sends p i (.request rid request t) [(i, rid)]
  | second (rid : Nat) (outcome : PostOutcome) (uuid : String) (t : AnswerReadings)
      (hrejected : outcome.attempt = .rejected) : Sends p i (.answer rid outcome uuid t) [(i, rid)]

/-- A POST is sent under the name of its request, or not at all. -/
private theorem senders_posted (i : ι) (rid : Nat) (payment : PaymentRequest) (pending : Pending) :
    ([Obs.posted rid payment pending].filterMap (post? i)).map Post.sender = [] ∨
      ([Obs.posted rid payment pending].filterMap (post? i)).map Post.sender = [(i, rid)] := by
  rw [List.filterMap_cons]
  simp only [post?]
  cases pending.credential.apiKey with
  | str apiKey => exact Or.inr rfl
  | _ => exact Or.inl rfl

private theorem posts_outputs (i : ι) (outputs : List Output) :
    (outputs.map Obs.output).filterMap (post? i) = [] := by
  rw [List.filterMap_map]
  exact List.filterMap_none outputs

theorem step_sends (i : ι) (hstep : p.step e = some (p', obs)) :
    p.Sends i e ((obs.filterMap (post? i)).map Post.sender) := by
  cases step_spec hstep with
  | load =>
      rw [List.filterMap_append, posts_outputs]
      exact .nothing _
  | refused =>
      rw [List.filterMap_append, posts_outputs]
      exact .nothing _
  | raised =>
      rw [List.filterMap_append, posts_outputs]
      exact .nothing _
  | replayed =>
      rw [List.filterMap_append, posts_outputs]
      exact .nothing _
  | failed =>
      rw [List.filterMap_append, posts_outputs]
      exact .nothing _
  | stored =>
      have hevicted : ∀ keys : List String,
          (keys.map Obs.evicted).filterMap (post? i) = [] := by
        intro keys
        rw [List.filterMap_map]
        exact List.filterMap_none keys
      rw [storedObs, List.filterMap_append, posts_outputs, List.nil_append,
        List.filterMap_cons_none rfl, List.filterMap_append, hevicted]
      exact .nothing _
  | posting rid request t manager client primary hseen =>
      rcases senders_posted i rid request.payment _ with hnone | hsent
      · rw [hnone]
        exact .nothing _
      · rw [hsent]
        exact .first rid request t hseen
  | fallback handler outcome uuid t client inFlight outputs credential hmem hrejected =>
      rw [List.filterMap_append, posts_outputs, List.nil_append, List.filterMap_cons_none rfl]
      rcases senders_posted i handler.rid handler.request.payment _ with hnone | hsent
      · rw [hnone]
        exact .nothing _
      · rw [hsent]
        exact .second handler.rid outcome uuid t hrejected

/-- A cached key stays cached until it is evicted. -/
theorem step_keeps_cached {key : String} (h : key ∈ p.connector.idempotencyCache)
    (hstep : p.step e = some (p', obs)) :
    key ∈ p'.connector.idempotencyCache ∨ .evicted key ∈ obs := by
  cases step_spec hstep with
  | load => exact Or.inl h
  | refused => exact Or.inl h
  | raised => exact Or.inl h
  | posting => exact Or.inl h
  | failed => exact Or.inl h
  | fallback => exact Or.inl h
  | replayed => exact Or.inl ((OrderedDict.mem_moveToEnd _ _ _).mpr h)
  | stored handler outcome uuid t client inFlight outputs body response =>
      by_cases hkept : key ∈
          (storeIdempotency handler.request.key response p.connector.idempotencyCache).2
      · exact Or.inr (by simp [storedObs, hkept])
      · exact Or.inl (mem_storeIdempotency_of_kept (Or.inr h) hkept)

/-- The response to an accepted answer is cached, unless it is evicted at once. -/
theorem step_caches {rid : Nat} {outcome : PostOutcome} {uuid : String} {t : AnswerReadings}
    (haccepted : outcome.accepted = true)
    (hstep : p.step (.answer rid outcome uuid t) = some (p', obs)) :
    ∃ h ∈ p.waiting, h.rid = rid ∧
      (h.request.key ∈ p'.connector.idempotencyCache ∨ .evicted h.request.key ∈ obs) := by
  cases step_spec hstep with
  | failed handler outcome uuid t client inFlight outputs reply hmem hrefused =>
      rw [haccepted] at hrefused
      cases hrefused
  | fallback handler outcome uuid t client inFlight outputs credential hmem hrejected =>
      simp [PostOutcome.accepted, hrejected] at haccepted
  | stored handler outcome uuid t client inFlight outputs body response hmem =>
      refine ⟨handler, hmem, rfl, ?_⟩
      by_cases hkept : handler.request.key ∈
          (storeIdempotency handler.request.key response p.connector.idempotencyCache).2
      · exact Or.inr (by simp [storedObs, hkept])
      · exact Or.inl (mem_storeIdempotency_of_kept (Or.inl rfl) hkept)

end Process

namespace Cluster

/-! ## POSTs that the mock accepts -/

/-- The POST that an event makes the mock process under an API key that it accepts. -/
def processed? (c : Cluster ι) : ClusterEvent ι → Option (Post ι)
  | .process n _ => c.transit[n]?.filter fun post => acceptsKey c.mock.validApiKeys post.apiKey
  | _ => none

private theorem processed?_of_accepts {c : Cluster ι} {n : Nat} {post : Post ι} (d : Draws)
    (hpost : c.transit[n]? = some post)
    (haccepted : acceptsKey c.mock.validApiKeys post.apiKey = true) :
    c.processed? (.process n d) = some post := by
  rw [processed?, hpost]
  exact Option.filter_eq_some_iff.mpr ⟨rfl, haccepted⟩

private theorem processed?_of_refuses {c : Cluster ι} {n : Nat} {post : Post ι} (d : Draws)
    (hpost : c.transit[n]? = some post)
    (hrefused : ¬ acceptsKey c.mock.validApiKeys post.apiKey = true) :
    c.processed? (.process n d) = none := by
  rw [processed?, hpost]
  refine Option.filter_eq_none_iff.mpr fun post' heq => ?_
  rw [← Option.some.inj heq]
  exact hrefused

/-- The requests whose refusals are on their way back. -/
def refusals (answers : List (Answer ι)) : Multiset (ι × Nat) :=
  ((answers.filter fun a => !a.outcome.accepted).map Answer.sender : List (ι × Nat))

/-- The requests that may have a transaction or still get one: each POST in flight, each refusal
on its way back, which the fallback POST may follow, and each POST accepted. -/
def charges (c : Cluster ι) (posts : List (Post ι)) : Multiset (ι × Nat) :=
  (c.transit.map Post.sender : List (ι × Nat)) + refusals c.answers +
    (posts.map Post.sender : List (ι × Nat))

/-- The POST at a place is one of those in flight. -/
private theorem transit_eq {c : Cluster ι} {n : Nat} {post : Post ι}
    (hpost : c.transit[n]? = some post) :
    (c.transit.map Post.sender : Multiset (ι × Nat)) =
      {post.sender} + ((c.transit.eraseIdx n).map Post.sender : List (ι × Nat)) := by
  obtain ⟨hlt, rfl⟩ := List.getElem?_eq_some_iff.mp hpost
  rw [Multiset.singleton_add, Multiset.cons_coe]
  exact Multiset.coe_eq_coe.mpr ((List.getElem_cons_eraseIdx_perm hlt).map Post.sender).symm

/-- So is the answer at a place, among the refusals if it is one. -/
private theorem refusals_eq {answers : List (Answer ι)} {n : Nat} {a : Answer ι}
    (ha : answers[n]? = some a) :
    refusals answers =
      (if a.outcome.accepted then 0 else {a.sender}) + refusals (answers.eraseIdx n) := by
  obtain ⟨hlt, hget⟩ := List.getElem?_eq_some_iff.mp ha
  have hperm := (List.getElem_cons_eraseIdx_perm hlt).filter fun a => !a.outcome.accepted
  rw [hget, List.filter_cons] at hperm
  rw [refusals, ← Multiset.coe_eq_coe.mpr (hperm.map Answer.sender)]
  cases a.outcome.accepted with
  | true => exact (zero_add _).symm
  | false =>
      rw [if_neg Bool.false_ne_true, Multiset.singleton_add, refusals, Multiset.cons_coe]
      rfl

private theorem refusals_append (answers : List (Answer ι)) (a : Answer ι) :
    refusals (answers ++ [a]) =
      refusals answers + if a.outcome.accepted then 0 else {a.sender} := by
  rw [refusals, List.filter_append, List.map_append, ← Multiset.coe_add, List.filter_cons]
  cases a.outcome.accepted <;> rfl

variable [DecidableEq ι]

/-- The POSTs that the mock processes in a run under API keys that it accepts. -/
def processed (c : Cluster ι) (es : List (ClusterEvent ι)) : List (Post ι) :=
  translate step processed? c es

/-- The mock processes a POST of the request under an API key that it accepts. -/
def Processed (c : Cluster ι) (es : List (ClusterEvent ι)) (i : ι) (rid : Nat) : Prop :=
  (i, rid) ∈ (c.processed es).map Post.sender

/-- An accepted answer to a POST of the request was delivered to its replica, which has not
evicted the key since. -/
def Kept (c₀ : Cluster ι) (past : List (ClusterEvent ι)) (i : ι) (rid : Nat) (key : String) :
    Prop :=
  ∃ es₁ n uuid t es₂ c₁ tr₁ a c₂ tr₂, past = es₁ ++ .deliver n uuid t :: es₂ ∧
    run step c₀ es₁ = some (c₁, tr₁) ∧ c₁.answers[n]? = some a ∧ a.sender = (i, rid) ∧
    a.outcome.accepted = true ∧ run step c₁ (.deliver n uuid t :: es₂) = some (c₂, tr₂) ∧
    ¬ .replica i (.evicted key) ∈ tr₂

/-- A request for a key comes after another one for it, and POSTs of both reach the mock under
API keys that it accepts; but the first one is at another replica, or has no accepted answer
there yet, because it is still on its way, late, lost or given up on, or its key has been evicted
since. -/
def Repeats (c₀ : Cluster ι) (past : List (ClusterEvent ι)) (e : ClusterEvent ι)
    (rest : List (ClusterEvent ι)) : Prop :=
  ∃ i rid request t j rid' request' t', e = .request i rid request t ∧
    .request j rid' request' t' ∈ past ∧ request'.key = request.key ∧
    Processed c₀ (past ++ e :: rest) j rid' ∧ Processed c₀ (past ++ e :: rest) i rid ∧
    (j ≠ i ∨ ¬ Kept c₀ past j rid' request.key)

/-! ## What the messages of a run go back to -/

/-- The request arrived and missed the cache of its replica. -/
def Missed (c₀ : Cluster ι) (es : List (ClusterEvent ι)) (i : ι) (rid : Nat) (key : String) :
    Prop :=
  ∃ past request t rest c tr, es = past ++ .request i rid request t :: rest ∧
    run step c₀ past = some (c, tr) ∧ request.key = key ∧
    ¬ key ∈ (c.replicas i).connector.idempotencyCache

/-- Every message goes back to a request that missed the cache, and no request has two. -/
structure Tracked (c₀ : Cluster ι) (es : List (ClusterEvent ι)) (c : Cluster ι) : Prop where
  addressed : c.Addressed
  arrived : ∀ i rid request t, .request i rid request t ∈ es → rid ∈ (c.replicas i).seen
  unique : ∀ i rid request t request' t', .request i rid request t ∈ es →
    .request i rid request' t' ∈ es → request = request'
  handlers : ∀ i, ∀ h ∈ (c.replicas i).waiting, Missed c₀ es i h.rid h.request.key
  posts : ∀ post ∈ c.transit, Missed c₀ es post.replica post.rid post.key
  processed : ∀ post ∈ c₀.processed es, Missed c₀ es post.replica post.rid post.key
  once : (c.charges (c₀.processed es)).Nodup

variable {c₀ c c' : Cluster ι} {es : List (ClusterEvent ι)} {e : ClusterEvent ι}
  {tr obs : List (ClusterObs ι)} {i : ι} {rid : Nat} {key : String}

theorem Missed.concat (h : Missed c₀ es i rid key) (e : ClusterEvent ι) :
    Missed c₀ (es ++ [e]) i rid key := by
  obtain ⟨past, request, t, rest, c, tr, rfl, hrun, hkey, hmiss⟩ := h
  exact ⟨past, request, t, rest ++ [e], c, tr, by simp, hrun, hkey, hmiss⟩

theorem Missed.mem (h : Missed c₀ es i rid key) :
    ∃ request t, .request i rid request t ∈ es ∧ request.key = key := by
  obtain ⟨past, request, t, rest, c, tr, rfl, -, hkey, -⟩ := h
  exact ⟨request, t, List.mem_append_right _ List.mem_cons_self, hkey⟩

/-- What is charged has arrived. -/
theorem Tracked.seen_of_mem (h : Tracked c₀ es c) (hin : (i, rid) ∈ c.charges (c₀.processed es)) :
    rid ∈ (c.replicas i).seen := by
  rw [charges, Multiset.mem_add, Multiset.mem_add] at hin
  rcases hin with (hpost | hanswer) | hprocessed
  · obtain ⟨post, hmem, heq⟩ := List.mem_map.mp hpost
    obtain ⟨rfl, rfl⟩ := Prod.mk.inj heq
    exact (h.addressed.posts post hmem).seen
  · obtain ⟨a, hmem, heq⟩ := List.mem_map.mp hanswer
    obtain ⟨rfl, rfl⟩ := Prod.mk.inj heq
    exact (h.addressed.answers a (List.mem_of_mem_filter hmem)).1.seen
  · obtain ⟨post, hmem, heq⟩ := List.mem_map.mp hprocessed
    obtain ⟨rfl, rfl⟩ := Prod.mk.inj heq
    obtain ⟨request, t, harrived, -⟩ := (h.processed post hmem).mem
    exact h.arrived _ _ request t harrived

private theorem processed_concat (hrun : run step c₀ es = some (c, tr)) :
    c₀.processed (es ++ [e]) = c₀.processed es ++ (c.processed? e).toList :=
  translate_concat processed? e hrun

/-- An event that processes nothing adds nothing. -/
private theorem processed_concat_of_none (hrun : run step c₀ es = some (c, tr))
    (hnone : c.processed? e = none) : c₀.processed (es ++ [e]) = c₀.processed es := by
  rw [processed_concat hrun, hnone]
  exact List.append_nil _

/-- What a step adds to the charges is a request that has just arrived. -/
private theorem Tracked.once_of (h : Tracked c₀ es c) {posts : List (Post ι)}
    (hle : c'.charges posts ≤ c.charges (c₀.processed es) ∨
      ∃ i rid, ¬ rid ∈ (c.replicas i).seen ∧
        c'.charges posts ≤ (i, rid) ::ₘ c.charges (c₀.processed es)) :
    (c'.charges posts).Nodup := by
  rcases hle with hle | ⟨i, rid, hfresh, hle⟩
  · exact Multiset.nodup_of_le hle h.once
  · refine Multiset.nodup_of_le hle (Multiset.nodup_cons.mpr ⟨fun hin => ?_, h.once⟩)
    exact hfresh (h.seen_of_mem hin)

/-- A replica's step sends a POST for a new request, or for one whose refusal it takes. -/
private theorem Tracked.once_replica (h : Tracked c₀ es c) {own : Event}
    {answers : List (Answer ι)} {p' : Process} {o : List Obs} (hevent : c.OwnStep e i own answers)
    (hown : (c.replicas i).step own = some (p', o)) :
    (charges
      { c with
        replicas := Function.update c.replicas i p'
        transit := c.transit ++ o.filterMap (post? i)
        answers := answers } (c₀.processed es)).Nodup := by
  refine h.once_of ?_
  have hsends := Process.step_sends i hown
  unfold charges
  dsimp only
  rw [List.map_append, ← Multiset.coe_add]
  generalize (o.filterMap (post? i)).map Post.sender = sent at hsends
  cases hevent with
  | load i read t =>
      cases hsends
      exact Or.inl (by simp)
  | request i rid request t =>
      cases hsends with
      | nothing => exact Or.inl (by simp)
      | first rid request t hfresh =>
          refine Or.inr ⟨i, rid, hfresh, le_of_eq ?_⟩
          rw [Multiset.coe_singleton, ← Multiset.singleton_add]
          abel
  | givenUp i rid failure uuid t =>
      generalize hown' : Event.answer rid failure.outcome uuid t = own' at hsends
      cases hsends with
      | nothing => exact Or.inl (by simp)
      | first => cases hown'
      | second rid' outcome uuid' t' hrejected =>
          obtain ⟨-, rfl, -, -⟩ := Event.answer.inj hown'
          cases failure with
          | timeout error => cases hrejected
          | httpError error => cases hrejected
  | delivered n uuid t a ha =>
      left
      rw [refusals_eq ha]
      generalize hown' : Event.answer a.rid a.outcome uuid t = own' at hsends
      cases hsends with
      | nothing =>
          rw [Multiset.coe_nil, add_zero]
          gcongr
          exact Multiset.le_add_left _ _
      | first => cases hown'
      | second rid' outcome uuid' t' hrejected =>
          obtain ⟨rfl, rfl, -, -⟩ := Event.answer.inj hown'
          have hrefused : ¬ a.outcome.accepted = true := by
            simp [PostOutcome.accepted, hrejected]
          rw [if_neg hrefused, Multiset.coe_singleton, Answer.sender]
          exact le_of_eq (by abel)

/-- A request that arrives has a new name, which is given out from then on. -/
private theorem step_arrival {rid' : Nat} {request : AuthorizeRequest} {t : StartReadings}
    (hstep : c.step e = some (c', obs)) (he : e = .request i rid' request t) :
    ¬ rid' ∈ (c.replicas i).seen ∧ rid' ∈ (c'.replicas i).seen := by
  subst he
  cases step_cases hstep with
  | replica e i own answers p' o hevent hown =>
      cases hevent
      show _ ∧ rid' ∈ (Function.update c.replicas i p' i).seen
      rw [Function.update_self]
      cases step_spec hown with
      | refused _ _ _ _ _ _ _ hseen => exact ⟨hseen, List.mem_cons_self⟩
      | raised _ _ _ _ _ hseen => exact ⟨hseen, List.mem_cons_self⟩
      | replayed _ _ _ _ _ _ hseen => exact ⟨hseen, List.mem_cons_self⟩
      | posting _ _ _ _ _ _ hseen => exact ⟨hseen, List.mem_cons_self⟩

/-- Names that were given out stay so. -/
private theorem step_seen (hstep : c.step e = some (c', obs)) (h : rid ∈ (c.replicas i).seen) :
    rid ∈ (c'.replicas i).seen := by
  cases step_cases hstep with
  | replica e j own answers p' o hevent hown =>
      by_cases hij : i = j
      · subst hij
        show rid ∈ (Function.update c.replicas i p' i).seen
        rw [Function.update_self]
        cases step_spec hown with
        | load => exact h
        | refused => exact List.mem_cons_of_mem _ h
        | raised => exact List.mem_cons_of_mem _ h
        | replayed => exact List.mem_cons_of_mem _ h
        | posting => exact List.mem_cons_of_mem _ h
        | stored => exact h
        | failed => exact h
        | fallback => exact h
      · show rid ∈ (Function.update c.replicas j p' i).seen
        rw [Function.update_of_ne hij]
        exact h
  | created => exact h
  | refused => exact h
  | lostPost => exact h
  | lostAnswer => exact h
  | restarted => exact h

/-- The part that is about the names of requests. -/
private theorem Tracked.names (h : Tracked c₀ es c) (hstep : c.step e = some (c', obs)) :
    (∀ i rid request t, .request i rid request t ∈ es ++ [e] → rid ∈ (c'.replicas i).seen) ∧
      ∀ i rid request t request' t', .request i rid request t ∈ es ++ [e] →
        .request i rid request' t' ∈ es ++ [e] → request = request' := by
  constructor
  · intro i rid request t hin
    rcases List.mem_append.mp hin with hold | hnew
    · exact step_seen hstep (h.arrived i rid request t hold)
    · exact (step_arrival hstep (List.mem_singleton.mp hnew).symm).2
  · intro i rid request t request' t' hin hin'
    rcases List.mem_append.mp hin with hold | hnew
    · rcases List.mem_append.mp hin' with hold' | hnew'
      · exact h.unique i rid request t request' t' hold hold'
      · have hfresh := (step_arrival hstep (List.mem_singleton.mp hnew').symm).1
        exact absurd (h.arrived i rid request t hold) hfresh
    · have hfresh := (step_arrival hstep (List.mem_singleton.mp hnew).symm).1
      rcases List.mem_append.mp hin' with hold' | hnew'
      · exact absurd (h.arrived i rid request' t' hold') hfresh
      · have heq := (List.mem_singleton.mp hnew).trans (List.mem_singleton.mp hnew').symm
        exact (ClusterEvent.request.inj heq).2.2.1

/-- A suspended handler missed the cache on its arrival. -/
private theorem Tracked.step_handlers (hrun : run step c₀ es = some (c, tr))
    (h : Tracked c₀ es c) {own : Event} {answers : List (Answer ι)} {p' : Process} {o : List Obs}
    (hevent : c.OwnStep e i own answers) (hown : (c.replicas i).step own = some (p', o))
    {handler : Handler} (hmem : handler ∈ p'.waiting) :
    Missed c₀ (es ++ [e]) i handler.rid handler.request.key := by
  rcases Process.step_handlers hown hmem with ⟨h₀, hold, hrid, hrequest⟩ | ⟨t, rfl, hmiss⟩
  · have hmissed := h.handlers i h₀ hold
    rw [hrid, hrequest] at hmissed
    exact hmissed.concat e
  · cases hevent with
    | request i rid request t => exact ⟨es, handler.request, t, [], c, tr, rfl, hrun, rfl, hmiss⟩

theorem Tracked.step (hrun : run step c₀ es = some (c, tr)) (h : Tracked c₀ es c)
    (hstep : c.step e = some (c', obs)) : Tracked c₀ (es ++ [e]) c' := by
  have haddressed := step_addressed h.addressed hstep
  obtain ⟨harrived, hunique⟩ := h.names hstep
  have hhandlers := fun i handler hmem => (h.handlers i handler hmem).concat e
  have hposts := fun post hin => (h.posts post hin).concat e
  have hprocessed := fun post hin => (h.processed post hin).concat e
  cases step_cases hstep with
  | replica e i own answers p' o hevent hown =>
      have hsame : c₀.processed (es ++ [e]) = c₀.processed es :=
        processed_concat_of_none hrun (by cases hevent <;> rfl)
      refine ⟨haddressed, harrived, hunique, ?_, ?_, ?_, ?_⟩
      · refine forall_update (C := fun i p => ∀ h ∈ p.waiting, Missed c₀ (es ++ [e]) i h.rid
          h.request.key) ?_ fun j _ => hhandlers j
        exact fun handler hmem => h.step_handlers hrun hevent hown hmem
      · intro post hin
        rcases List.mem_append.mp hin with hold | hnew
        · exact hposts post hold
        · obtain ⟨rfl, handler, hmem, hrid, hkey⟩ :=
            exists_handler_of_post (h.addressed.posting i) hown hnew
          rw [← hrid, ← hkey]
          exact h.step_handlers hrun hevent hown hmem
      · rw [hsame]
        exact hprocessed
      · rw [hsame]
        exact h.once_replica hevent hown
  | created n d post r hpost haccepted =>
      have hadded : c₀.processed (es ++ [.process n d]) = c₀.processed es ++ [post] := by
        rw [processed_concat hrun, processed?_of_accepts d hpost haccepted]
        rfl
      refine ⟨haddressed, harrived, hunique, hhandlers,
        fun post' hin => hposts post' (List.mem_of_mem_eraseIdx hin), ?_, ?_⟩
      · rw [hadded]
        intro post' hin
        rcases List.mem_append.mp hin with hold | hnew
        · exact hprocessed post' hold
        · rw [List.mem_singleton.mp hnew]
          exact hposts post (List.mem_of_getElem? hpost)
      · rw [hadded]
        refine h.once_of (Or.inl (le_of_eq ?_))
        unfold charges
        rw [transit_eq hpost, List.map_append, ← Multiset.coe_add, answering, refusals_append]
        show _ + (refusals c.answers + 0) + (_ + {post.sender}) = _
        abel
  | refused n d post status code detail hpost hrefused hstatus hcode =>
      have hsame : c₀.processed (es ++ [.process n d]) = c₀.processed es :=
        processed_concat_of_none hrun (processed?_of_refuses d hpost hrefused)
      refine ⟨haddressed, harrived, hunique, hhandlers,
        fun post' hin => hposts post' (List.mem_of_mem_eraseIdx hin), ?_, ?_⟩
      · rw [hsame]
        exact hprocessed
      · rw [hsame]
        refine h.once_of (Or.inl (le_of_eq ?_))
        have hnot : (answer (.error (code, detail))).accepted = false := by
          simp [answer, PostOutcome.accepted, PostOutcome.attempt, hcode]
        unfold charges
        rw [transit_eq hpost, answering, refusals_append]
        dsimp only
        rw [hnot]
        show _ + (refusals c.answers + {post.sender}) + _ = _
        abel
  | lostPost n =>
      have hsame : c₀.processed (es ++ [.losePost n]) = c₀.processed es :=
        processed_concat_of_none hrun rfl
      refine ⟨haddressed, harrived, hunique, hhandlers,
        fun post hin => hposts post (List.mem_of_mem_eraseIdx hin), ?_, ?_⟩
      · rw [hsame]
        exact hprocessed
      · rw [hsame]
        refine h.once_of (Or.inl ?_)
        unfold charges
        gcongr
        exact ((List.eraseIdx_sublist _ _).map _).subperm
  | lostAnswer n =>
      have hsame : c₀.processed (es ++ [.loseAnswer n]) = c₀.processed es :=
        processed_concat_of_none hrun rfl
      refine ⟨haddressed, harrived, hunique, hhandlers, hposts, ?_, ?_⟩
      · rw [hsame]
        exact hprocessed
      · rw [hsame]
        refine h.once_of (Or.inl ?_)
        unfold charges
        gcongr
        exact (((List.eraseIdx_sublist _ _).filter _).map _).subperm
  | restarted validApiKeys unread =>
      have hsame : c₀.processed (es ++ [.restart validApiKeys unread]) = c₀.processed es :=
        processed_concat_of_none hrun rfl
      refine ⟨haddressed, harrived, hunique, hhandlers,
        fun post hin => hposts post (List.mem_of_mem_filter hin), ?_, ?_⟩
      · rw [hsame]
        exact hprocessed
      · rw [hsame]
        refine h.once_of (Or.inl ?_)
        unfold charges
        gcongr
        exact (List.filter_sublist.map _).subperm

theorem start_tracked (settings : ι → Settings) (manager : ι → CredentialManager)
    (validApiKeys : Option String) :
    Tracked (start settings manager validApiKeys) [] (start settings manager validApiKeys) where
  addressed := start_addressed settings manager validApiKeys
  arrived := fun _ _ _ _ h => absurd h List.not_mem_nil
  unique := fun _ _ _ _ _ _ h => absurd h List.not_mem_nil
  handlers := fun _ _ h => absurd h List.not_mem_nil
  posts := fun _ h => absurd h List.not_mem_nil
  processed := fun _ h => absurd h List.not_mem_nil
  once := Multiset.nodup_zero

theorem run_tracked {settings : ι → Settings} {manager : ι → CredentialManager}
    {validApiKeys : Option String}
    (hrun : run step (start settings manager validApiKeys) es = some (c, tr)) :
    Tracked (start settings manager validApiKeys) es c :=
  run_history_invariant (I := fun es c _ => Tracked (start settings manager validApiKeys) es c)
    (fun _ _ _ _ _ _ hprefix h hs => h.step hprefix hs)
    (start_tracked settings manager validApiKeys) hrun

/-! ## Transactions and POSTs -/

/-- The mock creates a transaction for each POST that it accepts, and no others. -/
theorem createdKeys_eq (hrun : run step c₀ es = some (c, tr)) :
    createdKeys tr = (c₀.processed es).map Post.key := by
  refine run_history_invariant
    (I := fun es _ tr => createdKeys tr = (c₀.processed es).map Post.key) ?_ rfl hrun
  intro es c tr e c' obs hprefix ih hs
  suffices h : createdKeys obs = (c.processed? e).toList.map Post.key by
    rw [processed_concat hprefix, List.map_append, ← ih, ← h]
    exact List.filterMap_append
  cases step_cases hs with
  | replica e i own answers p' o hevent hown =>
      rw [createdKeys_replica]
      cases hevent <;> rfl
  | created n d post r hpost haccepted =>
      rw [processed?_of_accepts d hpost haccepted]
      rfl
  | refused n d post status code detail hpost hrefused =>
      rw [processed?_of_refuses d hpost hrefused]
      rfl
  | lostPost => rfl
  | lostAnswer => rfl
  | restarted => rfl

/-- A request has at most one POST that the mock accepts. -/
theorem Tracked.nodup_senders (h : Tracked c₀ es c) :
    ((c₀.processed es).map Post.sender).Nodup := by
  have hle : ((c₀.processed es).map Post.sender : Multiset (ι × Nat)) ≤
      c.charges (c₀.processed es) := Multiset.le_add_left _ _
  exact Multiset.coe_nodup.mp (Multiset.nodup_of_le hle h.once)

/-- A POST carries the key of the request that it is sent for. -/
theorem Tracked.key_eq (h : Tracked c₀ es c) {post : Post ι} (hpost : post ∈ c₀.processed es)
    {request : AuthorizeRequest} {t : StartReadings} (hsender : post.sender = (i, rid))
    (harrived : .request i rid request t ∈ es) : post.key = request.key := by
  obtain ⟨rfl, rfl⟩ := Prod.mk.inj hsender
  obtain ⟨request', t', harrived', hkey⟩ := (h.processed post hpost).mem
  rw [← hkey, h.unique _ _ request' t' request t harrived' harrived]

/-! ## Answered keys stay cached -/

private theorem step_keeps (hstep : c.step e = some (c', obs))
    (h : key ∈ (c.replicas i).connector.idempotencyCache) :
    key ∈ (c'.replicas i).connector.idempotencyCache ∨ .replica i (.evicted key) ∈ obs := by
  cases step_cases hstep with
  | replica e j own answers p' o hevent hown =>
      by_cases hij : i = j
      · subst hij
        rcases Process.step_keeps_cached h hown with hcached | hevicted
        · left
          show key ∈ (Function.update c.replicas i p' i).connector.idempotencyCache
          rw [Function.update_self]
          exact hcached
        · exact Or.inr (List.mem_map_of_mem hevicted)
      · left
        show key ∈ (Function.update c.replicas j p' i).connector.idempotencyCache
        rw [Function.update_of_ne hij]
        exact h
  | created => exact Or.inl h
  | refused => exact Or.inl h
  | lostPost => exact Or.inl h
  | lostAnswer => exact Or.inl h
  | restarted => exact Or.inl h

private theorem run_keeps (hrun : run step c es = some (c', tr))
    (h : key ∈ (c.replicas i).connector.idempotencyCache)
    (hkept : ¬ .replica i (.evicted key) ∈ tr) :
    key ∈ (c'.replicas i).connector.idempotencyCache := by
  have hor : key ∈ (c'.replicas i).connector.idempotencyCache ∨ .replica i (.evicted key) ∈ tr := by
    refine run_invariant (I := fun c tr => key ∈ (c.replicas i).connector.idempotencyCache ∨
      .replica i (.evicted key) ∈ tr) ?_ (Or.inl h) hrun
    intro c tr e c' o hI hs
    rcases hI with hcached | hevicted
    · exact (step_keeps hs hcached).imp_right (List.mem_append_right tr)
    · exact Or.inr (List.mem_append_left o hevicted)
  exact hor.resolve_right hkept

/-- Once its answer is delivered, the key of a request is cached until it is evicted. -/
theorem Kept.cached {settings : ι → Settings} {manager : ι → CredentialManager}
    {validApiKeys : Option String}
    (hrun : run step (start settings manager validApiKeys) es = some (c, tr))
    (h : Kept (start settings manager validApiKeys) es i rid key) {request : AuthorizeRequest}
    {t : StartReadings} (harrived : .request i rid request t ∈ es) (hkey : request.key = key) :
    key ∈ (c.replicas i).connector.idempotencyCache := by
  obtain ⟨es₁, n, uuid, t', es₂, c₁, tr₁, a, c₂, tr₂, rfl, hrun₁, ha, hsender, haccepted, hrun₂,
    hkept⟩ := h
  have htracked := run_tracked hrun
  obtain ⟨c₁', tr₁', tr₂', hrun₁', hrun₂', -⟩ := run_append_iff.mp hrun
  cases hrun₁.symm.trans hrun₁'
  cases hrun₂.symm.trans hrun₂'
  obtain ⟨c', o, tr₃, hs, hrun₃, rfl⟩ := run_cons_iff.mp hrun₂
  obtain ⟨rfl, rfl⟩ := Prod.mk.inj hsender
  refine run_keeps hrun₃ ?_ fun hin => hkept (List.mem_append_right o hin)
  cases step_cases hs with
  | replica e i own answers p' o hevent hown =>
      cases hevent with
      | delivered n uuid t a' ha' =>
          obtain rfl := Option.some.inj (ha.symm.trans ha')
          obtain ⟨handler, hmem, hrid, hcached⟩ := Process.step_caches haccepted hown
          -- the handler that takes the answer serves the request of this name
          obtain ⟨request', t₀, harrived', hkey'⟩ :=
            ((run_tracked hrun₁).handlers _ handler hmem).mem
          rw [hrid] at harrived'
          have hsame := htracked.unique _ _ request' t₀ request t
            (List.mem_append_left _ harrived') harrived
          rw [← hkey', hsame, hkey] at hcached
          show key ∈ (Function.update c₁.replicas a.replica p' a.replica).connector.idempotencyCache
          rw [Function.update_self]
          refine hcached.resolve_right fun hevicted => hkept ?_
          exact List.mem_append_left _ (List.mem_map_of_mem hevicted)

/-- Two places of one list are the same place, or one comes before the other. -/
private theorem cut_cases {α : Type} {l₁ l₂ r₁ r₂ : List α} {x y : α}
    (h : l₁ ++ x :: r₁ = l₂ ++ y :: r₂) : x = y ∨ x ∈ l₂ ∨ y ∈ l₁ := by
  rcases List.append_eq_append_iff.mp h with ⟨l, rfl, hrest⟩ | ⟨l, rfl, hrest⟩
  · cases l with
    | nil => exact Or.inl (List.cons.inj hrest).1
    | cons z l =>
        rw [(List.cons.inj hrest).1]
        exact Or.inr (Or.inl (List.mem_append_right _ List.mem_cons_self))
  · cases l with
    | nil => exact Or.inl (List.cons.inj hrest).1.symm
    | cons z l =>
        rw [(List.cons.inj hrest).1]
        exact Or.inr (Or.inr (List.mem_append_right _ List.mem_cons_self))

end Cluster

open Cluster

variable [DecidableEq ι]

/-- Where a request repeats another one, the mock creates two transactions with its key. -/
private theorem not_nodup_of_repeats {c₀ c : Cluster ι} {es past rest : List (ClusterEvent ι)}
    {e : ClusterEvent ι} (htracked : Tracked c₀ es c) (hes : es = past ++ e :: rest)
    {c₁ c₂ : Cluster ι} {obs : List (ClusterObs ι)} (hpast : Tracked c₀ past c₁)
    (hstep : c₁.step e = some (c₂, obs)) (h : Repeats c₀ past e rest) :
    ¬ ((c₀.processed es).map Post.key).Nodup := by
  obtain ⟨i, rid, request, t, j, rid', request', t', rfl, hearlier, hkey, hfirst, hsecond, -⟩ := h
  rw [← hes] at hfirst hsecond
  obtain ⟨x, hx, hxsender⟩ := List.mem_map.mp hfirst
  obtain ⟨y, hy, hysender⟩ := List.mem_map.mp hsecond
  have hin : ClusterEvent.request i rid request t ∈ es := by
    rw [hes]
    exact List.mem_append_right _ List.mem_cons_self
  have hin' : ClusterEvent.request j rid' request' t' ∈ es := by
    rw [hes]
    exact List.mem_append_left _ hearlier
  intro hnodup
  have hkeys : x.key = y.key := by
    rw [htracked.key_eq hx hxsender hin', htracked.key_eq hy hysender hin, hkey]
  have hsame : x = y := List.inj_on_of_nodup_map hnodup hx hy hkeys
  obtain ⟨rfl, rfl⟩ := Prod.mk.inj (hxsender.symm.trans (hsame ▸ hysender))
  exact (step_arrival hstep rfl).1 (hpast.arrived _ _ request' t' hearlier)

/-- A request that repeats no other one and misses the cache is the first one for its key whose
POST the mock accepts. -/
private theorem not_mem_past {settings : ι → Settings} {manager : ι → CredentialManager}
    {validApiKeys : Option String} {es past rest : List (ClusterEvent ι)} {e : ClusterEvent ι}
    {c : Cluster ι} {tr : List (ClusterObs ι)}
    (hrun : run step (start settings manager validApiKeys) past = some (c, tr))
    (hes : es = past ++ e :: rest)
    (h : ¬ Repeats (start settings manager validApiKeys) past e rest) {x y : Post ι}
    (hx : x ∈ (start settings manager validApiKeys).processed es)
    (hy : y ∈ (start settings manager validApiKeys).processed es)
    {request request' : AuthorizeRequest} {t t' : StartReadings}
    (he : e = .request y.replica y.rid request t)
    (hmiss : ¬ request.key ∈ (c.replicas y.replica).connector.idempotencyCache)
    (hkey : request'.key = request.key) : ¬ .request x.replica x.rid request' t' ∈ past := by
  intro hin
  refine h ⟨y.replica, y.rid, request, t, x.replica, x.rid, request', t', he, hin, hkey, ?_, ?_, ?_⟩
  · rw [← hes]
    exact List.mem_map_of_mem hx
  · rw [← hes]
    exact List.mem_map_of_mem hy
  · by_cases hreplica : x.replica = y.replica
    · refine Or.inr fun hkept => hmiss ?_
      rw [← hreplica]
      exact hkept.cached hrun hin hkey
    · exact Or.inl hreplica

theorem createdKeys_nodup_iff (settings : ι → Settings) (manager : ι → CredentialManager)
    (validApiKeys : Option String) (es : List (ClusterEvent ι)) (c : Cluster ι)
    (tr : List (ClusterObs ι))
    (hrun : run step (start settings manager validApiKeys) es = some (c, tr)) :
    (createdKeys tr).Nodup ↔
      EveryEvent step
        (fun past _ e rest => ¬ Repeats (start settings manager validApiKeys) past e rest)
        (start settings manager validApiKeys) es := by
  have htracked := run_tracked hrun
  rw [createdKeys_eq hrun]
  constructor
  · intro hnodup past e rest c₁ tr₁ hes hpast hrepeats
    subst hes
    obtain ⟨c₁', tr₁', c₂, obs, tr₂, hpast', hs, -⟩ := run_cut hrun
    cases hpast.symm.trans hpast'
    exact not_nodup_of_repeats htracked rfl (run_tracked hpast) hs hrepeats hnodup
  · intro h
    refine List.Nodup.map_on ?_ htracked.nodup_senders.of_map
    intro x hx y hy hkeys
    refine List.inj_on_of_nodup_map htracked.nodup_senders hx hy ?_
    obtain ⟨past₁, request₁, t₁, rest₁, c₁, tr₁, hes₁, hrun₁, hkey₁, hmiss₁⟩ :=
      htracked.processed x hx
    obtain ⟨past₂, request₂, t₂, rest₂, c₂, tr₂, hes₂, hrun₂, hkey₂, hmiss₂⟩ :=
      htracked.processed y hy
    have hrequests : request₁.key = request₂.key := by rw [hkey₁, hkey₂, hkeys]
    rcases cut_cases (hes₁.symm.trans hes₂) with hsame | hbefore | hafter
    · obtain ⟨hreplica, hrid, -, -⟩ := ClusterEvent.request.inj hsame
      rw [Post.sender, Post.sender, hreplica, hrid]
    · rw [← hkey₂] at hmiss₂
      exact absurd hbefore (not_mem_past hrun₂ hes₂ (h past₂ _ rest₂ c₂ tr₂ hes₂ hrun₂) hx hy rfl
        hmiss₂ hrequests)
    · rw [← hkey₁] at hmiss₁
      exact absurd hafter (not_mem_past hrun₁ hes₁ (h past₁ _ rest₁ c₁ tr₁ hes₁ hrun₁) hy hx rfl
        hmiss₁ hrequests.symm)

/-- A payment is answered and retried on the same replica. -/
def answeredRun : List (ClusterEvent Bool) :=
  [.request true 1 sampleRequest (.at 1), .process 0 (sampleDraws "aaaaaaaaaaaaaaaa"),
    .deliver 0 "uuid-1" (.at 2), .request true 2 sampleRequest (.at 3)]

/-- The retry is answered from the cache, so that there is one transaction. -/
theorem createdKeys_nodup_iff_answered :
    ∃ c tr, run step sampleCluster answeredRun = some (c, tr) ∧ createdKeys tr = ["idem-001"] ∧
      EveryEvent step (fun past _ e rest => ¬ Repeats sampleCluster past e rest) sampleCluster
        answeredRun := by
  obtain ⟨c, tr, hrun, hkeys⟩ :
      ∃ c tr, run step sampleCluster answeredRun = some (c, tr) ∧
        createdKeys tr = ["idem-001"] :=
    exists_run (by decide +kernel)
  refine ⟨c, tr, hrun, hkeys, ?_⟩
  refine (createdKeys_nodup_iff (fun _ => sampleSettings) (fun _ => sampleManager) (some "key-v1")
    answeredRun c tr hrun).mp ?_
  rw [hkeys]
  exact List.nodup_singleton _

/-- The retry of a payment whose answer is lost goes to the other replica: two transactions with
one key. -/
theorem not_nodup_lostAnswer :
    ∃ c tr, run step sampleCluster lostAnswerRun = some (c, tr) ∧ ¬ (createdKeys tr).Nodup :=
  exists_run (by decide +kernel)

end PaymentConnector
