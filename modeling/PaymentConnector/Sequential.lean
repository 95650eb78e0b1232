import PaymentConnector.Library.Lru
import PaymentConnector.Process

/-!
# Requests handled one after another

When no request arrives while another one is at the gateway, the idempotency
cache is a least-recently-used map of the 200s given out: a store writes a key
that is not there, a replay moves one that is.  So a key is still cached exactly
as long as fewer than 10,000 other keys were stored or replayed since, and a
request for it is answered with the response stored last.

## Main results

* `step_retains` — a step keeps the cache in the order of its uses.
* `request_answered` — a request between its arrival and its answer.
* `sequentialIdempotency` — the bound, the replays and the refusals.
-/

namespace PaymentConnector

open Library Library.Machine

/-! ## Uses of the cache -/

/-- The key that an observation stores or replays. -/
def Obs.used? : Obs → Option String
  | .stored _ key _ => some key
  | .replied _ request (.replay _) => some request.key
  | _ => none

/-- The keys stored or replayed, first to last. -/
def usedKeys (tr : List Obs) : List String := tr.filterMap Obs.used?

/-- The response that an observation stores under `key`. -/
def storedUnder? (key : String) : Obs → Option PaymentResponse
  | .stored _ key' response => if key' = key then some response else none
  | _ => none

/-- The response stored last under `key`. -/
def lastStored? (key : String) (tr : List Obs) : Option PaymentResponse :=
  (tr.filterMap (storedUnder? key)).getLast?

/-- A request arrives only when no handler is suspended. -/
def Event.InTurn (p : Process) : Event → Prop
  | .request _ _ _ => p.waiting = []
  | _ => True

/-- The observation answers a request with a 200. -/
def Obs.Answers200 (key : String) : Obs → Prop
  | .replied _ request reply => request.key = key ∧ reply.statusCode = 200
  | _ => False

section Shown

@[simp] theorem usedKeys_append (tr obs : List Obs) :
    usedKeys (tr ++ obs) = usedKeys tr ++ usedKeys obs :=
  List.filterMap_append

@[simp] theorem usedKeys_outputs (outputs : List Output) :
    usedKeys (outputs.map Obs.output) = [] :=
  filterMap_map_eq_nil (fun _ => rfl) outputs

@[simp] theorem usedKeys_evictions (keys : List String) :
    usedKeys (keys.map Obs.evicted) = [] :=
  filterMap_map_eq_nil (fun _ => rfl) keys

theorem usedKeys_storedObs (h : Handler) (outcome : PostOutcome) (response : PaymentResponse)
    (outputs : List Output) (evicted : List String) :
    usedKeys (storedObs h outcome response outputs evicted) = [h.request.key] := by
  rw [storedObs, usedKeys_append, usedKeys_outputs, List.nil_append, usedKeys,
    List.filterMap_cons_none rfl]
  show usedKeys (evicted.map Obs.evicted ++ _) = _
  rw [usedKeys_append, usedKeys_evictions]
  rfl

variable (key : String)

@[simp] private theorem storedUnder_outputs (outputs : List Output) :
    (outputs.map Obs.output).filterMap (storedUnder? key) = [] :=
  filterMap_map_eq_nil (fun _ => rfl) outputs

@[simp] private theorem storedUnder_evictions (keys : List String) :
    (keys.map Obs.evicted).filterMap (storedUnder? key) = [] :=
  filterMap_map_eq_nil (fun _ => rfl) keys

private theorem storedUnder_storedObs (h : Handler) (outcome : PostOutcome)
    (response : PaymentResponse) (outputs : List Output) (evicted : List String) :
    (storedObs h outcome response outputs evicted).filterMap (storedUnder? key) =
      if h.request.key = key then [response] else [] := by
  rw [storedObs, List.filterMap_append, storedUnder_outputs, List.nil_append,
    List.filterMap_cons_none rfl, List.filterMap_append, storedUnder_evictions, List.nil_append]
  by_cases hkey : h.request.key = key
  · simp [List.filterMap_cons, storedUnder?, hkey]
  · simp [List.filterMap_cons, storedUnder?, hkey]

private theorem lastStored?_append_silent {tr obs : List Obs}
    (h : obs.filterMap (storedUnder? key) = []) :
    lastStored? key (tr ++ obs) = lastStored? key tr := by
  rw [lastStored?, List.filterMap_append, h, List.append_nil, lastStored?]

private theorem lastStored?_append_stored {tr obs : List Obs} {response : PaymentResponse}
    (h : obs.filterMap (storedUnder? key) = [response]) :
    lastStored? key (tr ++ obs) = some response := by
  rw [lastStored?, List.filterMap_append, h, List.getLast?_concat]

end Shown

/-! ## The cache along a run -/

/-- The cache holds the keys of the 200s in the order of their last use, and
under each the response stored last; the handler that is suspended, if any,
will store a key that is not there. -/
structure Retains (p : Process) (tr : List Obs) : Prop where
  keys : p.connector.idempotencyCache.keys =
    Lru.order idempotencyCacheMaxSize [] (usedKeys tr)
  bodies : ∀ key response, p.connector.idempotencyCache.get? key = some response →
    lastStored? key tr = some response
  answered : ∀ key, ∀ x ∈ tr, x.Answers200 key → key ∈ usedKeys tr
  alone : p.waiting = [] ∨
    ∃ h, p.waiting = [h] ∧ ¬ h.request.key ∈ p.connector.idempotencyCache

theorem start_retains (settings : Settings) (manager : CredentialManager) :
    Retains (Process.start settings manager) [] where
  keys := rfl
  bodies := fun _ _ h => by cases h
  answered := fun _ _ hx => absurd hx List.not_mem_nil
  alone := Or.inl rfl

theorem Retains.bounded {p : Process} {tr : List Obs} (h : Retains p tr) :
    p.connector.idempotencyCache.length ≤ idempotencyCacheMaxSize := by
  rw [← OrderedDict.length_keys, h.keys]
  exact Lru.length_order_le (Nat.zero_le _)

/-- A step that neither stores nor replays. -/
private theorem Retains.of_silent {p p' : Process} {tr : List Obs} (h : Retains p tr)
    (outputs : List Output) {obs : List Obs}
    (hcache : p'.connector.idempotencyCache = p.connector.idempotencyCache)
    (hused : usedKeys obs = []) (hstored : ∀ key, obs.filterMap (storedUnder? key) = [])
    (hanswered : ∀ key, ∀ x ∈ obs, ¬ x.Answers200 key)
    (halone : p'.waiting = [] ∨
      ∃ h, p'.waiting = [h] ∧ ¬ h.request.key ∈ p.connector.idempotencyCache) :
    Retains p' (tr ++ (outputs.map Obs.output ++ obs)) where
  keys := by
    rw [hcache, usedKeys_append, usedKeys_append, usedKeys_outputs, hused, List.append_nil,
      List.append_nil]
    exact h.keys
  bodies := by
    intro key response hget
    have hsilent : (outputs.map Obs.output ++ obs).filterMap (storedUnder? key) = [] := by
      rw [List.filterMap_append, storedUnder_outputs, hstored, List.append_nil]
    rw [hcache] at hget
    rw [lastStored?_append_silent key hsilent]
    exact h.bodies key response hget
  answered := by
    intro key x hx h200
    rw [usedKeys_append]
    apply List.mem_append_left
    rcases List.mem_append.mp hx with hold | hnew
    · exact h.answered key x hold h200
    · have hquiet := (forall_mem_outputs_append (fun _ hno => hno) outputs obs).mpr (hanswered key)
      exact absurd h200 (hquiet x hnew)
  alone := by
    rw [hcache]
    exact halone

/-- A step that stores or replays one key, and answers at most requests for it. -/
private theorem Retains.of_used {p p' : Process} {tr obs : List Obs} {k : String}
    (h : Retains p tr) (hused : usedKeys obs = [k])
    (hkeys : p'.connector.idempotencyCache.keys =
      Lru.use idempotencyCacheMaxSize p.connector.idempotencyCache.keys k)
    (hbodies : ∀ key response, p'.connector.idempotencyCache.get? key = some response →
      lastStored? key (tr ++ obs) = some response)
    (hanswered : ∀ key, ∀ x ∈ obs, x.Answers200 key → k = key)
    (hwaiting : p'.waiting = []) : Retains p' (tr ++ obs) where
  keys := by
    rw [usedKeys_append, hused, Lru.order_concat, ← h.keys]
    exact hkeys
  bodies := hbodies
  answered := by
    intro key x hx h200
    rw [usedKeys_append, hused]
    rcases List.mem_append.mp hx with hold | hnew
    · exact List.mem_append_left _ (h.answered key x hold h200)
    · rw [hanswered key x hnew h200]
      exact List.mem_append_right _ List.mem_cons_self
  alone := Or.inl hwaiting

/-- A handler in turn is the only one. -/
private theorem eq_of_alone {waiting : List Handler} {h : Handler} {C : Handler → Prop}
    (halone : waiting = [] ∨ ∃ h', waiting = [h'] ∧ C h') (hmem : h ∈ waiting) :
    waiting = [h] ∧ C h := by
  rcases halone with hnil | ⟨h', hone, hC⟩
  · rw [hnil] at hmem
    cases hmem
  · rw [hone, List.mem_singleton] at hmem
    rw [hmem]
    exact ⟨hone, hC⟩

private theorem filter_alone (h : Handler) :
    [h].filter (fun h' => h'.rid ≠ h.rid) = [] := by
  rw [List.filter_cons_of_neg (by simp)]
  rfl

/-- Every step of requests in turn keeps the cache in the order of its uses. -/
theorem step_retains {p p' : Process} {tr obs : List Obs} {e : Event} (h : Retains p tr)
    (hturn : e.InTurn p) (hstep : p.step e = some (p', obs)) : Retains p' (tr ++ obs) := by
  cases step_spec hstep with
  | load read t manager manager' result outputs =>
      apply h.of_silent outputs
      · rfl
      · rfl
      · exact fun _ => rfl
      · simp [Obs.Answers200]
      · exact h.alone
  | refused rid request t client code detail outputs hseen hclient hcode =>
      apply h.of_silent outputs
      · rfl
      · rfl
      · exact fun _ => rfl
      · intro key
        rw [List.forall_mem_singleton]
        intro h200
        have hstatus : code = 200 := h200.2
        omega
      · exact h.alone
  | raised rid request t exc outputs hseen =>
      apply h.of_silent outputs
      · rfl
      · rfl
      · exact fun _ => rfl
      · intro key
        rw [List.forall_mem_singleton]
        intro h200
        have hstatus : 500 = 200 := h200.2
        omega
      · exact h.alone
  | replayed rid request t manager cached outputs hseen haccepted hmanager hvalid hcached =>
      have hmem := OrderedDict.mem_of_get?_eq_some hcached
      apply h.of_used (k := request.key)
      · rw [usedKeys_append, usedKeys_outputs]
        rfl
      · exact Lru.keys_moveToEnd hmem h.bounded
      · intro key response hget
        rw [OrderedDict.get?_moveToEnd] at hget
        have hsilent : (outputs.map Obs.output ++
            [Obs.replied rid request (.replay cached)]).filterMap (storedUnder? key) = [] := by
          rw [List.filterMap_append, storedUnder_outputs]
          rfl
        rw [lastStored?_append_silent key hsilent]
        exact h.bodies key response hget
      · intro key
        rw [forall_mem_outputs_append (fun _ hno => hno.elim), List.forall_mem_singleton]
        exact fun h200 => h200.1
      · exact hturn
  | posting rid request t manager client primary hseen haccepted hmanager hvalid hmiss =>
      have hwaiting : p.waiting = [] := hturn
      apply h.of_silent []
      · rfl
      · rfl
      · exact fun _ => rfl
      · simp [Obs.Answers200]
      · rw [hwaiting]
        exact Or.inr ⟨_, rfl, (OrderedDict.get?_eq_none_iff _ _).mp hmiss⟩
  | stored handler outcome uuid t client inFlight outputs body response hmem =>
      obtain ⟨hone, hnew⟩ := eq_of_alone h.alone hmem
      apply h.of_used (k := handler.request.key)
      · exact usedKeys_storedObs handler outcome response outputs _
      · exact Lru.keys_evictOver_set response hnew
      · intro key body' hget
        have hshown := storedUnder_storedObs key handler outcome response outputs
          (storeIdempotency handler.request.key response p.connector.idempotencyCache).2
        rcases get?_storeIdempotency_eq_some hget with ⟨hkey, hbody⟩ | ⟨hkey, hold⟩
        · rw [if_pos hkey.symm] at hshown
          rw [lastStored?_append_stored key hshown, hbody]
        · rw [if_neg (fun heq => hkey heq.symm)] at hshown
          rw [lastStored?_append_silent key hshown]
          exact h.bodies key body' hold
      · intro key
        rw [storedObs, forall_mem_outputs_append (fun _ hno => hno.elim),
          List.forall_mem_cons, List.forall_mem_append, List.forall_mem_cons,
          List.forall_mem_singleton]
        exact ⟨fun hno => hno.elim, forall_mem_map (fun _ hno => hno.elim) _,
          fun hno => hno.elim, fun h200 => h200.1⟩
      · rw [hone, filter_alone]
  | failed handler outcome uuid t client inFlight outputs reply hmem haccepted hreply =>
      obtain ⟨hone, -⟩ := eq_of_alone h.alone hmem
      apply h.of_silent outputs
      · rfl
      · rcases hreply with ⟨-, detail, rfl⟩ | ⟨-, exc, rfl⟩ <;> rfl
      · exact fun _ => rfl
      · intro key
        rw [List.forall_mem_cons, List.forall_mem_singleton]
        refine ⟨fun hno => hno, ?_⟩
        intro h200
        rcases hreply with ⟨-, detail, rfl⟩ | ⟨-, exc, rfl⟩
        · cases h200.2
        · cases h200.2
      · rw [hone, filter_alone]
        exact Or.inl rfl
  | fallback handler outcome uuid t client inFlight outputs credential hmem =>
      obtain ⟨hone, hnew⟩ := eq_of_alone h.alone hmem
      apply h.of_silent outputs
      · rfl
      · rfl
      · exact fun _ => rfl
      · intro key
        rw [List.forall_mem_cons, List.forall_mem_singleton]
        exact ⟨fun hno => hno, fun hno => hno⟩
      · rw [hone, filter_alone]
        exact Or.inr ⟨_, rfl, hnew⟩

/-! ## Replays -/

/-- A request that is looked up for a key that is still cached is answered with
the response stored last. -/
theorem Retains.replays {p p' : Process} {tr obs : List Obs} {rid : Nat}
    {request : AuthorizeRequest} {t : StartReadings} (h : Retains p tr)
    (hlooks : p.connector.LooksUp request t)
    (hstep : p.step (.request rid request t) = some (p', obs))
    (hanswered : ∃ x ∈ tr, x.Answers200 request.key)
    (hfew : (Lru.since request.key (usedKeys tr)).toFinset.card < idempotencyCacheMaxSize) :
    ∃ response, ∃ outputs : List Output, lastStored? request.key tr = some response ∧
      obs = outputs.map Obs.output ++ [.replied rid request (.replay response)] := by
  obtain ⟨x, hx, h200⟩ := hanswered
  have hused := h.answered request.key x hx h200
  have hmem : request.key ∈ p.connector.idempotencyCache := by
    rw [OrderedDict.mem_def, h.keys]
    exact (Lru.mem_order_iff List.nodup_nil hused).mpr hfew
  obtain ⟨response, hget⟩ := OrderedDict.exists_get?_of_mem hmem
  cases step_spec hstep with
  | refused rid request t client code detail outputs hseen hclient hcode haccepted hmiss =>
      rw [hmiss hlooks] at hget
      cases hget
  | raised rid request t exc outputs hseen haccepted huntimed =>
      exact absurd huntimed hlooks.timed
  | replayed rid request t manager cached outputs hseen haccepted hmanager hvalid hcached =>
      exact ⟨cached, outputs, h.bodies request.key cached hcached, rfl⟩
  | posting rid request t manager client primary hseen haccepted hmanager hvalid hmiss =>
      rw [hmiss] at hget
      cases hget

/-! ## Refusals -/

/-- The observation answers a request with an `HTTPException`. -/
def Obs.Refuses : Obs → Prop
  | .replied _ _ (.httpException _ _) => True
  | _ => False

/-- A request that arrived when no handler was suspended, up to its answer: as
long as it is at the gateway the cache is as on its arrival, and so it is after
a refusal. -/
def CacheKept (cache : OrderedDict String PaymentResponse) (p : Process) (tr : List Obs) :
    Prop :=
  (p.waiting = [] ∧ ((∃ x ∈ tr, x.Refuses) → p.connector.idempotencyCache = cache)) ∨
    (∃ h, p.waiting = [h]) ∧ p.connector.idempotencyCache = cache ∧ ∀ x ∈ tr, ¬ x.Refuses

private theorem request_cacheKept {p p' : Process} {rid : Nat} {request : AuthorizeRequest}
    {t : StartReadings} {obs : List Obs} (hturn : p.waiting = [])
    (hstep : p.step (.request rid request t) = some (p', obs)) :
    CacheKept p.connector.idempotencyCache p' obs := by
  cases step_spec hstep with
  | refused => exact Or.inl ⟨hturn, fun _ => rfl⟩
  | raised => exact Or.inl ⟨hturn, fun _ => rfl⟩
  | replayed rid request t manager cached outputs =>
      refine Or.inl ⟨hturn, ?_⟩
      intro hrefused
      obtain ⟨x, hx, hrefuses⟩ := hrefused
      have hquiet : ∀ y ∈ outputs.map Obs.output ++ [.replied rid request (.replay cached)],
          ¬ y.Refuses := by
        rw [forall_mem_outputs_append (fun _ hno => hno), List.forall_mem_singleton]
        exact fun hno => hno
      exact absurd hrefuses (hquiet x hx)
  | posting =>
      refine Or.inr ⟨?_, rfl, ?_⟩
      · rw [hturn]
        exact ⟨_, rfl⟩
      · rw [List.forall_mem_singleton]
        exact fun hno => hno

/-- A handler that goes on was the only one suspended. -/
private theorem CacheKept.alone {cache : OrderedDict String PaymentResponse} {p : Process}
    {tr : List Obs} {h : Handler} (hun : CacheKept cache p tr) (hmem : h ∈ p.waiting) :
    p.waiting = [h] ∧ p.connector.idempotencyCache = cache ∧ ∀ x ∈ tr, ¬ x.Refuses := by
  rcases hun with ⟨hwaiting, -⟩ | ⟨⟨h', hone⟩, hcache, hnone⟩
  · rw [hwaiting] at hmem
    cases hmem
  · rw [hone, List.mem_singleton] at hmem
    rw [hmem]
    exact ⟨hone, hcache, hnone⟩

private theorem step_cacheKept {cache : OrderedDict String PaymentResponse} {p p' : Process}
    {tr obs : List Obs} {e : Event} (h : CacheKept cache p tr)
    (hquiet : ∀ rid request t, e ≠ .request rid request t)
    (hstep : p.step e = some (p', obs)) : CacheKept cache p' (tr ++ obs) := by
  cases step_spec hstep with
  | load read t manager manager' result outputs =>
      have hshown : ∀ x ∈ outputs.map Obs.output ++ [.loaded result], ¬ x.Refuses := by
        rw [forall_mem_outputs_append (fun _ hno => hno), List.forall_mem_singleton]
        exact fun hno => hno
      rcases h with ⟨hwaiting, hcache⟩ | ⟨hone, hcache, hnone⟩
      · refine Or.inl ⟨hwaiting, ?_⟩
        intro hrefused
        obtain ⟨x, hx, hrefuses⟩ := hrefused
        rcases List.mem_append.mp hx with hold | hnew
        · exact hcache ⟨x, hold, hrefuses⟩
        · exact absurd hrefuses (hshown x hnew)
      · refine Or.inr ⟨hone, hcache, ?_⟩
        rw [List.forall_mem_append]
        exact ⟨hnone, hshown⟩
  | refused rid request t => exact absurd rfl (hquiet rid request t)
  | raised rid request t => exact absurd rfl (hquiet rid request t)
  | replayed rid request t => exact absurd rfl (hquiet rid request t)
  | posting rid request t => exact absurd rfl (hquiet rid request t)
  | stored handler outcome uuid t client inFlight outputs body response hmem =>
      obtain ⟨hone, hcache, hnone⟩ := h.alone hmem
      have hshown : ∀ x ∈ storedObs handler outcome response outputs
          (storeIdempotency handler.request.key response p.connector.idempotencyCache).2,
          ¬ x.Refuses := by
        rw [storedObs, forall_mem_outputs_append (fun _ hno => hno), List.forall_mem_cons,
          List.forall_mem_append, List.forall_mem_cons, List.forall_mem_singleton]
        exact ⟨fun hno => hno, forall_mem_map (fun _ hno => hno) _, fun hno => hno,
          fun hno => hno⟩
      refine Or.inl ⟨?_, ?_⟩
      · rw [hone, filter_alone]
      · intro hrefused
        obtain ⟨x, hx, hrefuses⟩ := hrefused
        rcases List.mem_append.mp hx with hold | hnew
        · exact absurd hrefuses (hnone x hold)
        · exact absurd hrefuses (hshown x hnew)
  | failed handler outcome uuid t client inFlight outputs reply hmem =>
      obtain ⟨hone, hcache, -⟩ := h.alone hmem
      refine Or.inl ⟨?_, fun _ => hcache⟩
      rw [hone, filter_alone]
  | fallback handler outcome uuid t client inFlight outputs credential hmem =>
      obtain ⟨hone, hcache, hnone⟩ := h.alone hmem
      refine Or.inr ⟨?_, hcache, ?_⟩
      · rw [hone, filter_alone]
        exact ⟨_, rfl⟩
      · rw [List.forall_mem_append]
        refine ⟨hnone, ?_⟩
        rw [forall_mem_outputs_append (fun _ hno => hno), List.forall_mem_cons,
          List.forall_mem_singleton]
        exact ⟨fun hno => hno, fun hno => hno⟩

/-- From the arrival of a request on, as long as no other one arrives: if it is
refused, the cache is what it was, in its order. -/
theorem request_answered {p p' : Process} {rid : Nat} {request : AuthorizeRequest}
    {t : StartReadings} {es : List Event} {tr : List Obs} (hturn : p.waiting = [])
    (hquiet : ∀ e ∈ es, ∀ rid request t, e ≠ .request rid request t)
    (hrun : run Process.step p (.request rid request t :: es) = some (p', tr)) :
    CacheKept p.connector.idempotencyCache p' tr := by
  obtain ⟨p₁, obs, tr', hstep, hrest, rfl⟩ := run_cons_iff.mp hrun
  refine run_invariant_along (C := fun _ e => ∀ rid request t, e ≠ .request rid request t)
    (I := fun q tr => CacheKept p.connector.idempotencyCache q (obs ++ tr)) ?_ ?_
    (along_of_forall (fun _ e he => hquiet e he) p₁) hrest
  · intro q trq e q' o h hC hs
    rw [← List.append_assoc]
    exact step_cacheKept h hC hs
  · rw [List.append_nil]
    exact request_cacheKept hturn hstep

theorem CacheKept.cache_eq {cache : OrderedDict String PaymentResponse} {p : Process}
    {tr : List Obs} (h : CacheKept cache p tr) (hrefused : ∃ x ∈ tr, x.Refuses) :
    p.connector.idempotencyCache = cache := by
  rcases h with ⟨-, hcache⟩ | ⟨-, hcache, -⟩
  · exact hcache hrefused
  · exact hcache

/-! ## Whole runs -/

/-- In every run that handles its requests one after another: the cache never
holds more than 10,000 responses; once a request for a key has been answered
with a 200, the next one that passes the checks of API key and credentials is
answered, in the step of its arrival, with the response stored last and nothing
else, provided fewer than 10,000 distinct other keys were stored or replayed
since the key was; and a request that is refused leaves the cache and its order
as they were on its arrival. -/
theorem sequentialIdempotency (settings : Settings) (manager : CredentialManager)
    (es : List Event) (p : Process) (tr : List Obs)
    (hrun : run Process.step (Process.start settings manager) es = some (p, tr))
    (hturn : Along Process.step (fun p e => e.InTurn p) (Process.start settings manager) es) :
    p.connector.idempotencyCache.length ≤ 10000 ∧
      (∀ rid request t p' obs, p.connector.LooksUp request t →
        p.step (.request rid request t) = some (p', obs) →
          (∃ x ∈ tr, x.Answers200 request.key) →
            (Lru.since request.key (usedKeys tr)).toFinset.card < 10000 →
              ∃ response, ∃ outputs : List Output, lastStored? request.key tr = some response ∧
                obs = outputs.map Obs.output ++ [.replied rid request (.replay response)]) ∧
        ∀ rid request t es' p' tr', p.waiting = [] →
          (∀ e ∈ es', ∀ rid request t, e ≠ .request rid request t) →
            run Process.step p (.request rid request t :: es') = some (p', tr') →
              (∃ code detail, .replied rid request (.httpException code detail) ∈ tr') →
                p'.connector.idempotencyCache = p.connector.idempotencyCache := by
  have hretains : Retains p tr :=
    run_invariant_along (I := Retains) (fun _ _ _ _ _ h hC hs => step_retains h hC hs)
      (start_retains settings manager) hturn hrun
  refine ⟨hretains.bounded, ?_, ?_⟩
  · intro rid request t p' obs hlooks hstep hanswered hfew
    exact hretains.replays hlooks hstep hanswered hfew
  · intro rid request t es' p' tr' hwaiting hquiet hrun' hrefused
    obtain ⟨code, detail, hin⟩ := hrefused
    exact (request_answered hwaiting hquiet hrun').cache_eq ⟨_, hin, trivial⟩

instance (p : Process) : ∀ e : Event, Decidable (e.InTurn p)
  | .request _ _ _ => inferInstanceAs (Decidable (p.waiting = []))
  | .load _ _ | .answer _ _ _ _ => inferInstanceAs (Decidable True)

instance (key : String) : ∀ x : Obs, Decidable (x.Answers200 key)
  | .replied _ request reply =>
      inferInstanceAs (Decidable (request.key = key ∧ reply.statusCode = 200))
  | .output _ | .loaded _ | .posted _ _ _ | .answered _ _ _ | .stored _ _ _ | .evicted _ =>
      inferInstanceAs (Decidable False)

/-- The first answer for the sample key is replayed. -/
theorem sequentialIdempotency_replayed :
    ∃ p tr p' obs, run Process.step sampleProcess (sequentialRun.take 2) = some (p, tr) ∧
      p.step (.request 2 sampleRequest (.at 3)) = some (p', obs) ∧
        ∃ response, ∃ outputs : List Output, lastStored? sampleRequest.key tr = some response ∧
          obs = outputs.map Obs.output ++ [.replied 2 sampleRequest (.replay response)] := by
  have hrun : ∃ p tr, run Process.step sampleProcess (sequentialRun.take 2) = some (p, tr) ∧
      (p.step (.request 2 sampleRequest (.at 3))).isSome = true ∧
        p.connector.LooksUp sampleRequest (.at 3) ∧
          (∃ x ∈ tr, x.Answers200 sampleRequest.key) ∧
            (Lru.since sampleRequest.key (usedKeys tr)).toFinset.card < 10000 :=
    exists_run (by decide +kernel)
  have hturn : Along Process.step (fun p e => e.InTurn p) sampleProcess
      (sequentialRun.take 2) := by
    decide +kernel
  obtain ⟨p, tr, hrun, hnext, hlooks, hanswered, hfew⟩ := hrun
  obtain ⟨⟨p', obs⟩, hstep⟩ := Option.isSome_iff_exists.mp hnext
  have hlaw := sequentialIdempotency sampleSettings sampleManager _ p tr hrun hturn
  exact ⟨p, tr, p', obs, hrun, hstep, hlaw.2.1 2 sampleRequest (.at 3) p' obs hlooks hstep
    hanswered hfew⟩

end PaymentConnector
