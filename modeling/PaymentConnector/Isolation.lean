import Mathlib.Data.List.Dedup
import PaymentConnector.FailClosed

/-!
# Isolation between callers

The idempotency cache belongs to the process and is looked up by key alone, so
a caller who picks a key that another caller uses gets, or leaves, an answer
there.  For the keys that no other caller uses the callers are isolated: what
a caller is answered there depends on the caller's own requests and on the
gateway's answers to them, and on nothing that the others do.

The statement compares two runs.  A schedule fixes the answer to every POST
that may be made for a request; the answer to a POST that is not made, because
the cache had a response, does not arrive.

## Main results

* `isolation` — two undisturbed runs with the same part under an API key answer
  its requests alike where they share no idempotency key with other callers,
  and only with responses made for requests under it.
-/

namespace PaymentConnector

open Library Library.Machine

/-! ## Schedules -/

/-- A step of a schedule. -/
def Process.stepScheduled (p : Process) : Event → Option (Process × List Obs)
  | .answer rid outcome uuid t =>
      if rid ∈ p.waiting.map Handler.rid then p.step (.answer rid outcome uuid t) else some (p, [])
  | e => p.step e

/-- A scheduled step is a step, or an answer to a POST that was not made. -/
theorem stepScheduled_cases {p p' : Process} {e : Event} {obs : List Obs}
    (h : p.stepScheduled e = some (p', obs)) :
    p.step e = some (p', obs) ∨
      ∃ rid outcome uuid t, e = .answer rid outcome uuid t ∧
        ¬ rid ∈ p.waiting.map Handler.rid ∧ p' = p ∧ obs = [] := by
  cases e with
  | load => exact Or.inl h
  | request => exact Or.inl h
  | answer rid outcome uuid t =>
      simp only [Process.stepScheduled] at h
      split at h
      · exact Or.inl h
      · rename_i hout
        rw [Option.some.injEq, Prod.mk.injEq] at h
        exact Or.inr ⟨rid, outcome, uuid, t, rfl, hout, h.1.symm, h.2.symm⟩

theorem stepScheduled_validated {settings : Settings} {p p' : Process} {e : Event}
    {obs : List Obs} (h : Validated settings p) (hstep : p.stepScheduled e = some (p', obs)) :
    Validated settings p' := by
  rcases stepScheduled_cases hstep with hs | hskip
  · exact step_validated h hs
  · obtain ⟨_, _, _, _, _, _, hsame, _⟩ := hskip
    rw [hsame]
    exact h

/-- The names of the requests under an API key. -/
def ridsUnder (apiKey : String) (es : List Event) : List Nat :=
  es.filterMap (fun e =>
    match e with
    | .request rid r _ => if r.xApiKey = some apiKey then some rid else none
    | _ => none)

/-- The loads, the requests under an API key and the answers to their POSTs. -/
def partUnder (apiKey : String) (es : List Event) : List Event :=
  es.filter (fun e =>
    match e with
    | .load _ _ => true
    | .request _ r _ => r.xApiKey = some apiKey
    | .answer rid _ _ _ => rid ∈ ridsUnder apiKey es)

/-- The idempotency keys of a run. -/
def idempotencyKeys (es : List Event) : List String :=
  es.filterMap (fun e =>
    match e with
    | .request _ r _ => some r.key
    | _ => none)

/-- The idempotency keys that a run uses under other API keys. -/
def keysOfOthers (apiKey : String) (es : List Event) : List String :=
  es.filterMap (fun e =>
    match e with
    | .request _ r _ => if r.xApiKey = some apiKey then none else some r.key
    | _ => none)

/-- The reply to a request with a property. -/
def replyTo? (P : AuthorizeRequest → Bool) : Obs → Option (Nat × Reply)
  | .replied rid request reply => if P request then some (rid, reply) else none
  | _ => none

/-- The replies to the requests with a property, in order. -/
def repliesTo (P : AuthorizeRequest → Bool) (tr : List Obs) : List (Nat × Reply) :=
  tr.filterMap (replyTo? P)

/-- Requests have a valid API key. -/
def Event.ValidUnder (settings : Settings) : Event → Prop
  | .request _ r _ => acceptsApiKey settings r.xApiKey = true
  | _ => True

/-- The credentials are valid and the breaker admits the call when a request
arrives. -/
def Event.AdmittedBy (p : Process) : Event → Prop
  | .request _ _ t => p.connector.Ready t
  | _ => True

instance (settings : Settings) (e : Event) : Decidable (e.ValidUnder settings) :=
  match e with
  | .load _ _ => isTrue trivial
  | .request _ r _ => inferInstanceAs (Decidable (acceptsApiKey settings r.xApiKey = true))
  | .answer _ _ _ _ => isTrue trivial

instance (p : Process) (e : Event) : Decidable (e.AdmittedBy p) :=
  match e with
  | .load _ _ => isTrue trivial
  | .request _ _ t => inferInstanceAs (Decidable (p.connector.Ready t))
  | .answer _ _ _ _ => isTrue trivial

/-- A run under valid API keys with so few idempotency keys that none is
evicted, in which every request is admitted. -/
structure Undisturbed (settings : Settings) (manager : CredentialManager) (es : List Event)
    (p : Process) (tr : List Obs) : Prop where
  run : run Process.stepScheduled (.start settings manager) es = some (p, tr)
  valid : ∀ e ∈ es, e.ValidUnder settings
  few : (idempotencyKeys es).dedup.length ≤ idempotencyCacheMaxSize
  admitted : Along Process.stepScheduled (fun p e => e.AdmittedBy p) (.start settings manager) es

/-- A request under the API key with an idempotency key that no request under
another API key has in either run. -/
def unshared (apiKey : String) (es₁ es₂ : List Event) (request : AuthorizeRequest) : Bool :=
  request.xApiKey = some apiKey &&
    request.key ∉ keysOfOthers apiKey es₁ ++ keysOfOthers apiKey es₂

/-- The response was made for a request under the API key. -/
def MadeUnder (apiKey : String) (tr : List Obs) (response : PaymentResponse) : Prop :=
  ∃ rid request, .replied rid request (.ok response) ∈ tr ∧ request.xApiKey = some apiKey

/-! ## Replies -/

section Replies

variable {P : AuthorizeRequest → Bool}

theorem repliesTo_append (xs ys : List Obs) :
    repliesTo P (xs ++ ys) = repliesTo P xs ++ repliesTo P ys :=
  List.filterMap_append

theorem repliesTo_outputs_append (outputs : List Output) (obs : List Obs) :
    repliesTo P (outputs.map Obs.output ++ obs) = repliesTo P obs := by
  have houtputs : repliesTo P (outputs.map Obs.output) = [] :=
    filterMap_map_eq_nil (fun _ => rfl) outputs
  rw [repliesTo_append, houtputs, List.nil_append]

/-- The completion of a POST shows the reply at the end of the stretch. -/
theorem repliesTo_answered (outputs : List Output) (rid : Nat) (key : String)
    (outcome : PostOutcome) (evicted : List String) (obs : List Obs) :
    repliesTo P (outputs.map Obs.output ++ .answered rid key outcome ::
      (evicted.map Obs.evicted ++ obs)) = repliesTo P obs := by
  have hevicted : repliesTo P (evicted.map Obs.evicted) = [] :=
    filterMap_map_eq_nil (fun _ => rfl) evicted
  rw [repliesTo_outputs_append]
  show repliesTo P (evicted.map Obs.evicted ++ obs) = repliesTo P obs
  rw [repliesTo_append, hevicted, List.nil_append]

/-- A reply to another request does not count. -/
theorem repliesTo_replied {rid : Nat} {request : AuthorizeRequest} {reply : Reply}
    (h : P request = false) : repliesTo P [.replied rid request reply] = [] := by
  simp [repliesTo, replyTo?, h]

theorem repliesTo_advanceObs {rid : Nat} {request : AuthorizeRequest} {advance : Advance}
    (h : P request = false) : repliesTo P (advanceObs rid request advance) = [] := by
  unfold advanceObs
  split
  · rfl
  · exact repliesTo_replied h
  · exact repliesTo_replied h

end Replies

/-- What the end of a stretch stores for a key. -/
def Advance.stored? (k key : String) : Advance → Option PaymentResponse
  | .replied (.ok response) => if key = k then some response else none
  | _ => none

theorem Advance.stored?_of_ne {k key : String} (h : key ≠ k) (advance : Advance) :
    advance.stored? k key = none := by
  unfold Advance.stored?
  split
  · exact if_neg h
  · rfl

/-! ## Names of requests -/

theorem step_seen {p p' : Process} {e : Event} {obs : List Obs}
    (hstep : p.stepScheduled e = some (p', obs)) {rid : Nat} (h : rid ∈ p.seen) :
    rid ∈ p'.seen := by
  rcases stepScheduled_cases hstep with hs | hskip
  · cases step_spec hs with
    | load => exact h
    | refused => exact List.mem_cons_of_mem _ h
    | raised => exact List.mem_cons_of_mem _ h
    | replayed => exact List.mem_cons_of_mem _ h
    | posting => exact List.mem_cons_of_mem _ h
    | stored => exact h
    | failed => exact h
    | fallback => exact h
  · obtain ⟨_, _, _, _, _, _, hsame, _⟩ := hskip
    rw [hsame]
    exact h

theorem step_request_fresh {p p' : Process} {rid : Nat} {request : AuthorizeRequest}
    {t : StartReadings} {obs : List Obs}
    (hstep : p.stepScheduled (.request rid request t) = some (p', obs)) :
    ¬ rid ∈ p.seen ∧ rid ∈ p'.seen := by
  have hs : p.step (.request rid request t) = some (p', obs) := hstep
  cases step_spec hs with
  | refused _ _ _ _ _ _ _ hseen => exact ⟨hseen, List.mem_cons_self⟩
  | raised _ _ _ _ _ hseen => exact ⟨hseen, List.mem_cons_self⟩
  | replayed _ _ _ _ _ _ hseen => exact ⟨hseen, List.mem_cons_self⟩
  | posting _ _ _ _ _ _ hseen => exact ⟨hseen, List.mem_cons_self⟩

theorem not_mem_of_seen {rid : Nat} {request : AuthorizeRequest} {t : StartReadings}
    {es : List Event} :
    ∀ {p p' : Process} {tr : List Obs}, rid ∈ p.seen →
      run Process.stepScheduled p es = some (p', tr) → ¬ .request rid request t ∈ es := by
  induction es with
  | nil => exact fun _ _ => List.not_mem_nil
  | cons e es ih =>
      intro p p' tr hseen hrun hmem
      obtain ⟨p₁, o₁, tr₁, hstep, hrest, -⟩ := run_cons_iff.mp hrun
      rcases List.mem_cons.mp hmem with hhead | htail
      · rw [← hhead] at hstep
        exact (step_request_fresh hstep).1 hseen
      · exact ih (step_seen hstep hseen) hrest htail

/-- A run has one request of each name. -/
theorem request_unique {rid : Nat} {request request' : AuthorizeRequest} {t t' : StartReadings}
    {es : List Event} :
    ∀ {p p' : Process} {tr : List Obs}, run Process.stepScheduled p es = some (p', tr) →
      .request rid request t ∈ es → .request rid request' t' ∈ es → request = request' := by
  induction es with
  | nil => exact fun _ h => absurd h List.not_mem_nil
  | cons e es ih =>
      intro p p' tr hrun hmem hmem'
      obtain ⟨p₁, o₁, tr₁, hstep, hrest, -⟩ := run_cons_iff.mp hrun
      rcases List.mem_cons.mp hmem with hhead | htail
      · rcases List.mem_cons.mp hmem' with hhead' | htail'
        · rw [← hhead, Event.request.injEq] at hhead'
          exact hhead'.2.1.symm
        · rw [← hhead] at hstep
          exact absurd htail' (not_mem_of_seen (step_request_fresh hstep).2 hrest)
      · rcases List.mem_cons.mp hmem' with hhead' | htail'
        · rw [← hhead'] at hstep
          exact absurd htail (not_mem_of_seen (step_request_fresh hstep).2 hrest)
        · exact ih hrest htail htail'

/-! ## The requests in question -/

/-- An API key, the idempotency keys of other callers and the names of the
requests under the API key with none of these. -/
structure Scope where
  apiKey : String
  others : List String
  rids : List Nat

namespace Scope

section Defs

variable (S : Scope)

def includes (request : AuthorizeRequest) : Bool :=
  request.xApiKey = some S.apiKey && request.key ∉ S.others

def visible : Event → Bool
  | .load _ _ => true
  | .request _ request _ => S.includes request
  | .answer rid _ _ _ => rid ∈ S.rids

/-- The scope sorts a request: its name says whether it is included, and it has
a key of others if it is not. -/
structure Sorts (rid : Nat) (request : AuthorizeRequest) : Prop where
  named : rid ∈ S.rids ↔ S.includes request = true
  foreign : S.includes request = false → request.key ∈ S.others

/-- The event is sorted, and its idempotency key is among the given ones. -/
def Admits (keys : List String) (e : Event) : Prop :=
  ∀ rid request t, e = .request rid request t → S.Sorts rid request ∧ request.key ∈ keys

/-- The handlers are sorted, and nothing but the given idempotency keys is
used. -/
structure Confined (keys : List String) (p : Process) : Prop where
  named : p.WellNamed
  sorted : ∀ h ∈ p.waiting, S.Sorts h.rid h.request ∧ h.request.key ∈ keys
  cached : ∀ key ∈ p.connector.idempotencyCache, key ∈ keys

/-- The processes look the same to the included requests. -/
structure Agree (p q : Process) : Prop where
  settings : p.connector.settings = q.connector.settings
  manager : p.connector.credentialManager = q.connector.credentialManager
  waiting : p.waiting.filter (fun h => h.rid ∈ S.rids) =
    q.waiting.filter (fun h => h.rid ∈ S.rids)
  cached : ∀ key, ¬ key ∈ S.others →
    p.connector.idempotencyCache.get? key = q.connector.idempotencyCache.get? key

end Defs

variable {S : Scope} {keys : List String} {p p' q q' : Process} {e : Event} {obs : List Obs}

theorem Agree.refl (p : Process) : S.Agree p p := ⟨rfl, rfl, rfl, fun _ _ => rfl⟩

theorem Agree.symm (h : S.Agree p q) : S.Agree q p :=
  ⟨h.settings.symm, h.manager.symm, h.waiting.symm, fun key hkey => (h.cached key hkey).symm⟩

theorem Agree.trans {r : Process} (h : S.Agree p q) (h' : S.Agree q r) : S.Agree p r :=
  ⟨h.settings.trans h'.settings, h.manager.trans h'.manager, h.waiting.trans h'.waiting,
    fun key hkey => (h.cached key hkey).trans (h'.cached key hkey)⟩

/-! ## One run -/

/-- With so few keys nothing is evicted. -/
theorem Confined.no_eviction (h : S.Confined keys p)
    (hfew : keys.length ≤ idempotencyCacheMaxSize) {key : String} (hkey : key ∈ keys)
    (advance : Advance) :
    (storeAdvance key p.connector.idempotencyCache advance).2 = [] := by
  by_cases hok : ∃ response, advance = .replied (.ok response)
  · obtain ⟨response, rfl⟩ := hok
    have hkeys : ∀ k ∈ p.connector.idempotencyCache.set key response, k ∈ keys := by
      intro k hk
      rcases (OrderedDict.mem_set _ _ _ _).mp hk with hself | hold
      · rw [hself]
        exact hkey
      · exact h.cached k hold
    have hlen := Nat.le_trans (OrderedDict.length_le_of_keys hkeys) hfew
    rw [storeAdvance_ok]
    exact storeIdempotency_evicts_nothing hlen
  · rw [storeAdvance_of_ne_ok (fun response heq => hok ⟨response, heq⟩)]

/-- What a key reads after a stretch that evicts nothing. -/
theorem get?_storeAdvance {k : String} {cache : OrderedDict String PaymentResponse}
    {advance : Advance} (hkept : (storeAdvance k cache advance).2 = []) (key : String) :
    (storeAdvance k cache advance).1.get? key =
      (advance.stored? k key).or (cache.get? key) := by
  by_cases hok : ∃ response, advance = .replied (.ok response)
  · obtain ⟨response, rfl⟩ := hok
    rw [storeAdvance_ok] at hkept ⊢
    have hin : ¬ key ∈ (storeIdempotency k response cache).2 := by
      rw [hkept]
      exact List.not_mem_nil
    by_cases hkey : key = k
    · rw [hkey] at hin ⊢
      rw [get?_storeIdempotency_self hin]
      simp [Advance.stored?]
    · rw [get?_storeIdempotency hkey hin]
      simp [Advance.stored?, hkey]
  · have hne : ∀ response, advance ≠ .replied (.ok response) :=
      fun response heq => hok ⟨response, heq⟩
    rw [storeAdvance_of_ne_ok hne]
    unfold Advance.stored?
    split
    · exact absurd rfl (hne _)
    · rfl

private theorem suspended_sorted {rid : Nat} {request : AuthorizeRequest} {advance : Advance}
    (h : S.Sorts rid request ∧ request.key ∈ keys) :
    ∀ h' ∈ suspended rid request advance, S.Sorts h'.rid h'.request ∧ h'.request.key ∈ keys := by
  intro h' hmem
  cases advance with
  | posting pending =>
      rw [List.mem_singleton.mp hmem]
      exact h
  | replied => cases hmem

theorem start_confined (S : Scope) (keys : List String) (settings : Settings)
    (manager : CredentialManager) : S.Confined keys (.start settings manager) := by
  refine ⟨Process.start_wellNamed settings manager, fun _ hmem => absurd hmem List.not_mem_nil, ?_⟩
  intro key hkey
  exact absurd hkey (OrderedDict.not_mem_empty key)

theorem step_confined (h : S.Confined keys p) (hadmits : S.Admits keys e)
    (hstep : p.stepScheduled e = some (p', obs)) : S.Confined keys p' := by
  rcases stepScheduled_cases hstep with hs | hskip
  · have hnamed := step_wellNamed h.named hs
    cases e with
    | load read t =>
        cases step_spec hs with
        | load => exact ⟨hnamed, h.sorted, h.cached⟩
    | request rid request t =>
        cases step_spec hs with
        | refused => exact ⟨hnamed, h.sorted, h.cached⟩
        | raised => exact ⟨hnamed, h.sorted, h.cached⟩
        | replayed =>
            refine ⟨hnamed, h.sorted, ?_⟩
            intro key hkey
            exact h.cached key ((OrderedDict.mem_moveToEnd _ _ _).mp hkey)
        | posting =>
            refine ⟨hnamed, ?_, h.cached⟩
            intro h' hmem
            rcases List.mem_append.mp hmem with hold | hnew
            · exact h.sorted h' hold
            · rw [List.mem_singleton.mp hnew]
              exact hadmits rid request t rfl
    | answer rid outcome uuid t =>
        obtain ⟨handler, hmem, rfl, client, inFlight, outputs, rfl, rfl⟩ := step_answer_eq hs
        have hhandler := h.sorted handler hmem
        refine ⟨hnamed, ?_, ?_⟩
        · intro h' hmem'
          rcases List.mem_append.mp hmem' with hold | hnew
          · exact h.sorted h' (List.mem_of_mem_filter hold)
          · exact suspended_sorted hhandler h' hnew
        · intro key hkey
          by_cases hok : ∃ response, handler.advance outcome uuid t = .replied (.ok response)
          · obtain ⟨response, hok⟩ := hok
            simp only [hok, storeAdvance_ok] at hkey
            rcases mem_storeIdempotency hkey with hself | hold
            · rw [hself]
              exact hhandler.2
            · exact h.cached key hold
          · simp only [storeAdvance_of_ne_ok (fun response heq => hok ⟨response, heq⟩)] at hkey
            exact h.cached key hkey
  · obtain ⟨_, _, _, _, _, _, hsame, _⟩ := hskip
    rw [hsame]
    exact h

private theorem filter_suspended {rid : Nat} {request : AuthorizeRequest} {advance : Advance}
    (h : ¬ rid ∈ S.rids) :
    (suspended rid request advance).filter (fun h' => h'.rid ∈ S.rids) = [] := by
  cases advance with
  | posting pending => simp [suspended, h]
  | replied => rfl

private theorem filter_filter_rid {waiting : List Handler} {rid : Nat} (h : ¬ rid ∈ S.rids) :
    (waiting.filter (fun h' => h'.rid ≠ rid)).filter (fun h' => h'.rid ∈ S.rids) =
      waiting.filter (fun h' => h'.rid ∈ S.rids) := by
  rw [List.filter_filter]
  apply List.filter_congr
  intro h' _
  by_cases hin : h'.rid ∈ S.rids
  · have hne : h'.rid ≠ rid := fun heq => h (heq ▸ hin)
    simp [hin, hne]
  · simp [hin]

/-- A step that is not visible leaves what the included requests see, and
replies to none of them. -/
theorem step_hidden (h : S.Confined keys p) (hfew : keys.length ≤ idempotencyCacheMaxSize)
    (hadmits : S.Admits keys e) (hvisible : S.visible e = false)
    (hstep : p.stepScheduled e = some (p', obs)) :
    S.Agree p' p ∧ repliesTo S.includes obs = [] := by
  rcases stepScheduled_cases hstep with hs | hskip
  · cases e with
    | load => cases hvisible
    | request rid request t =>
        have hrequest : S.includes request = false := hvisible
        have hrid : ¬ rid ∈ S.rids := by
          intro hin
          rw [(hadmits rid request t rfl).1.named.mp hin] at hrequest
          cases hrequest
        cases step_spec hs with
        | refused =>
            rw [repliesTo_outputs_append, repliesTo_replied hrequest]
            exact ⟨⟨rfl, rfl, rfl, fun _ _ => rfl⟩, rfl⟩
        | raised =>
            rw [repliesTo_outputs_append, repliesTo_replied hrequest]
            exact ⟨⟨rfl, rfl, rfl, fun _ _ => rfl⟩, rfl⟩
        | replayed =>
            rw [repliesTo_outputs_append, repliesTo_replied hrequest]
            exact ⟨⟨rfl, rfl, rfl, fun key _ => OrderedDict.get?_moveToEnd _ _ key⟩, rfl⟩
        | posting =>
            refine ⟨⟨rfl, rfl, ?_, fun _ _ => rfl⟩, rfl⟩
            rw [List.filter_append]
            simp [hrid]
    | answer rid outcome uuid t =>
        have hrid : ¬ rid ∈ S.rids := of_decide_eq_false hvisible
        obtain ⟨handler, hmem, rfl, client, inFlight, outputs, rfl, rfl⟩ := step_answer_eq hs
        obtain ⟨hsorts, hkeys⟩ := h.sorted handler hmem
        have hrequest : S.includes handler.request = false := by
          rw [← Bool.not_eq_true, ← hsorts.named]
          exact hrid
        have hforeign := hsorts.foreign hrequest
        have hkept := h.no_eviction hfew hkeys (handler.advance outcome uuid t)
        refine ⟨⟨rfl, rfl, ?_, ?_⟩, ?_⟩
        · rw [List.filter_append, filter_suspended hrid, List.append_nil, filter_filter_rid hrid]
        · intro key hkey
          have hne : key ≠ handler.request.key := fun heq => hkey (heq ▸ hforeign)
          show (storeAdvance _ _ _).1.get? key = _
          rw [get?_storeAdvance hkept, Advance.stored?_of_ne hne, Option.none_or]
        · rw [repliesTo_answered, repliesTo_advanceObs hrequest]
  · obtain ⟨_, _, _, _, _, _, hsame, hnil⟩ := hskip
    rw [hsame, hnil]
    exact ⟨.refl p, rfl⟩

/-- The handlers of the included requests are suspended in both processes. -/
theorem Agree.mem_waiting (hagree : S.Agree p q) {h : Handler} (hmem : h ∈ p.waiting)
    (hrid : h.rid ∈ S.rids) : h ∈ q.waiting := by
  have hin : h ∈ p.waiting.filter (fun h' => h'.rid ∈ S.rids) :=
    List.mem_filter.mpr ⟨hmem, decide_eq_true hrid⟩
  rw [hagree.waiting] at hin
  exact List.mem_of_mem_filter hin

/-- Both processes take a load. -/
private theorem load_visible {read : VaultRead} {t : LoadReadings} {obs' : List Obs}
    (hagree : S.Agree p q) (hs : p.step (.load read t) = some (p', obs))
    (hs' : q.step (.load read t) = some (q', obs')) :
    S.Agree p' q' ∧ repliesTo S.includes obs = repliesTo S.includes obs' := by
  cases step_spec hs with
  | load read t m m₁ result outputs hm hload =>
  cases step_spec hs' with
  | load read t n n₁ result' outputs' hn hload' =>
      have hsame : m = n := by
        rw [← Option.some.injEq, ← hm, ← hn]
        exact hagree.manager
      rw [hagree.settings, hsame, hload', Prod.mk.injEq, Prod.mk.injEq] at hload
      obtain ⟨-, rfl, -⟩ := hload
      rw [repliesTo_outputs_append, repliesTo_outputs_append]
      exact ⟨⟨hagree.settings, rfl, hagree.waiting, hagree.cached⟩, rfl⟩

/-- Both processes take an included request. -/
private theorem request_visible {rid : Nat} {request : AuthorizeRequest} {t : StartReadings}
    {obs' : List Obs} (hagree : S.Agree p q) (hrequest : S.includes request = true)
    (haccepted : acceptsApiKey p.connector.settings request.xApiKey = true)
    (hready : p.connector.Ready t) (hready' : q.connector.Ready t)
    (hs : p.step (.request rid request t) = some (p', obs))
    (hs' : q.step (.request rid request t) = some (q', obs')) :
    S.Agree p' q' ∧ repliesTo S.includes obs = repliesTo S.includes obs' := by
  have hkey : ¬ request.key ∈ S.others :=
    of_decide_eq_true (Bool.and_eq_true_iff.mp hrequest).2
  have hcached := hagree.cached request.key hkey
  cases step_spec hs with
  | refused _ _ _ _ _ _ _ _ _ _ hrefused => exact absurd hready (hrefused haccepted).2.2
  | raised _ _ _ _ _ _ _ huntimed => exact absurd huntimed hready.timed
  | replayed _ _ _ m cached outputs hseen haccepted hm hvalid hget =>
      rw [hget] at hcached
      cases step_spec hs' with
      | refused _ _ _ _ _ _ _ _ _ _ hrefused =>
          rw [hagree.settings] at haccepted
          exact absurd hready' (hrefused haccepted).2.2
      | raised _ _ _ _ _ _ _ huntimed => exact absurd huntimed hready'.timed
      | replayed _ _ _ n cached' outputs' hseen' haccepted' hn hvalid' hget' =>
          rw [hget', Option.some.injEq] at hcached
          rw [repliesTo_outputs_append, repliesTo_outputs_append, hcached]
          refine ⟨⟨hagree.settings, hagree.manager, hagree.waiting, ?_⟩, rfl⟩
          intro key hother
          have hsame := hagree.cached key hother
          simp only [OrderedDict.get?_moveToEnd]
          exact hsame
      | posting _ _ _ n client primary hseen' haccepted' hn hvalid' hmiss =>
          rw [hmiss] at hcached
          cases hcached
  | posting _ _ _ m client primary hseen haccepted hm hvalid hmiss _ hprimary =>
      rw [hmiss] at hcached
      cases step_spec hs' with
      | refused _ _ _ _ _ _ _ _ _ _ hrefused =>
          rw [hagree.settings] at haccepted
          exact absurd hready' (hrefused haccepted).2.2
      | raised _ _ _ _ _ _ _ huntimed => exact absurd huntimed hready'.timed
      | replayed _ _ _ n cached' outputs' hseen' haccepted' hn hvalid' hget' =>
          rw [hget'] at hcached
          cases hcached
      | posting _ _ _ n client' primary' hseen' haccepted' hn hvalid' hmiss' _ hprimary' =>
          have hsame : m = n := by
            rw [← Option.some.injEq, ← hm, ← hn]
            exact hagree.manager
          rw [← hsame, hprimary, Option.some.injEq] at hprimary'
          refine ⟨⟨hagree.settings, hagree.manager, ?_, hagree.cached⟩, rfl⟩
          show (p.waiting ++ _).filter _ = (q.waiting ++ _).filter _
          rw [List.filter_append, List.filter_append, hagree.waiting, hsame, hprimary']

/-- Both processes take the completion of a POST of an included request. -/
private theorem answer_visible {keys' : List String} {rid : Nat} {outcome : PostOutcome}
    {uuid : String} {t : AnswerReadings} {obs' : List Obs} (h : S.Confined keys p)
    (h' : S.Confined keys' q) (hfew : keys.length ≤ idempotencyCacheMaxSize)
    (hfew' : keys'.length ≤ idempotencyCacheMaxSize) (hagree : S.Agree p q)
    (hrid : rid ∈ S.rids) (hs : p.step (.answer rid outcome uuid t) = some (p', obs))
    (hs' : q.step (.answer rid outcome uuid t) = some (q', obs')) :
    S.Agree p' q' ∧ repliesTo S.includes obs = repliesTo S.includes obs' := by
  obtain ⟨handler, hmem, hname, client, inFlight, outputs, rfl, rfl⟩ := step_answer_eq hs
  obtain ⟨handler', hmem', hname', client', inFlight', outputs', rfl, rfl⟩ := step_answer_eq hs'
  have hsame : handler' = handler := by
    have hin : handler' ∈ p.waiting := hagree.symm.mem_waiting hmem' (by rw [hname']; exact hrid)
    exact h.named.eq_of_rid hin hmem (hname'.trans hname.symm)
  rw [hsame] at hmem' ⊢
  have hkept := h.no_eviction hfew (h.sorted handler hmem).2 (handler.advance outcome uuid t)
  have hkept' := h'.no_eviction hfew' (h'.sorted handler hmem').2 (handler.advance outcome uuid t)
  refine ⟨⟨hagree.settings, hagree.manager, ?_, ?_⟩, ?_⟩
  · show (p.waiting.filter _ ++ _).filter _ = (q.waiting.filter _ ++ _).filter _
    rw [List.filter_append, List.filter_append, List.filter_comm, List.filter_comm _ _ q.waiting,
      hagree.waiting]
  · intro key hkey
    show (storeAdvance _ p.connector.idempotencyCache _).1.get? key =
      (storeAdvance _ q.connector.idempotencyCache _).1.get? key
    rw [get?_storeAdvance hkept, get?_storeAdvance hkept', hagree.cached key hkey]
  · rw [repliesTo_answered, repliesTo_answered]

/-- A visible step of two processes that look the same to the included
requests. -/
theorem step_visible {keys' : List String} {obs' : List Obs} (h : S.Confined keys p)
    (h' : S.Confined keys' q) (hfew : keys.length ≤ idempotencyCacheMaxSize)
    (hfew' : keys'.length ≤ idempotencyCacheMaxSize) (hagree : S.Agree p q)
    (hvisible : S.visible e = true)
    (hready : ∀ rid request t, e = .request rid request t →
      acceptsApiKey p.connector.settings request.xApiKey = true ∧ p.connector.Ready t ∧
        q.connector.Ready t)
    (hstep : p.stepScheduled e = some (p', obs)) (hstep' : q.stepScheduled e = some (q', obs')) :
    S.Agree p' q' ∧ repliesTo S.includes obs = repliesTo S.includes obs' := by
  cases e with
  | load => exact load_visible hagree hstep hstep'
  | request rid request t =>
      obtain ⟨haccepted, hp, hq⟩ := hready rid request t rfl
      exact request_visible hagree hvisible haccepted hp hq hstep hstep'
  | answer rid outcome uuid t =>
      have hrid : rid ∈ S.rids := of_decide_eq_true hvisible
      -- The POST was made in both runs or in neither.
      by_cases hmade : rid ∈ p.waiting.map Handler.rid
      · obtain ⟨handler, hmem, hname⟩ := List.mem_map.mp hmade
        rw [← hname] at hrid
        have hmade' : rid ∈ q.waiting.map Handler.rid :=
          List.mem_map.mpr ⟨handler, hagree.mem_waiting hmem hrid, hname⟩
        rw [hname] at hrid
        simp only [Process.stepScheduled, if_pos hmade] at hstep
        simp only [Process.stepScheduled, if_pos hmade'] at hstep'
        exact answer_visible h h' hfew hfew' hagree hrid hstep hstep'
      · have hmade' : ¬ rid ∈ q.waiting.map Handler.rid := by
          intro hin
          obtain ⟨handler, hmem, hname⟩ := List.mem_map.mp hin
          rw [← hname] at hrid
          exact hmade (List.mem_map.mpr ⟨handler, hagree.symm.mem_waiting hmem hrid, hname⟩)
        simp only [Process.stepScheduled, if_neg hmade, Option.some.injEq, Prod.mk.injEq] at hstep
        simp only [Process.stepScheduled, if_neg hmade', Option.some.injEq, Prod.mk.injEq] at hstep'
        rw [← hstep.1, ← hstep'.1, ← hstep.2, ← hstep'.2]
        exact ⟨hagree, rfl⟩

end Scope

/-! ## Two runs -/

/-- The scope of the requests that share no idempotency key. -/
def unsharedScope (apiKey : String) (es₁ es₂ : List Event) : Scope where
  apiKey := apiKey
  others := keysOfOthers apiKey es₁ ++ keysOfOthers apiKey es₂
  rids := (partUnder apiKey es₁).filterMap (fun e =>
    match e with
    | .request rid request _ => if unshared apiKey es₁ es₂ request then some rid else none
    | _ => none)

theorem mem_partUnder_request {apiKey : String} {es : List Event} {rid : Nat}
    {request : AuthorizeRequest} {t : StartReadings} :
    .request rid request t ∈ partUnder apiKey es ↔
      .request rid request t ∈ es ∧ request.xApiKey = some apiKey := by
  simp [partUnder]

theorem includes_eq (apiKey : String) (es₁ es₂ : List Event) :
    (unsharedScope apiKey es₁ es₂).includes = unshared apiKey es₁ es₂ := rfl

theorem mem_rids_iff {apiKey : String} {es₁ es₂ : List Event} {rid : Nat} :
    rid ∈ (unsharedScope apiKey es₁ es₂).rids ↔
      ∃ request t, .request rid request t ∈ partUnder apiKey es₁ ∧
        unshared apiKey es₁ es₂ request = true := by
  unfold unsharedScope
  dsimp only
  rw [List.mem_filterMap]
  constructor
  · intro h
    obtain ⟨e, he, hrid⟩ := h
    cases e with
    | load => cases hrid
    | answer => cases hrid
    | request rid' request t =>
        by_cases hun : unshared apiKey es₁ es₂ request = true
        · simp only [hun, if_true, Option.some.injEq] at hrid
          rw [hrid] at he
          exact ⟨request, t, he, hun⟩
        · simp only [hun] at hrid
          cases hrid
  · intro h
    obtain ⟨request, t, he, hun⟩ := h
    exact ⟨_, he, by simp [hun]⟩

theorem mem_ridsUnder {apiKey : String} {es : List Event} {rid : Nat}
    {request : AuthorizeRequest} {t : StartReadings} (h : .request rid request t ∈ es)
    (hkey : request.xApiKey = some apiKey) : rid ∈ ridsUnder apiKey es :=
  List.mem_filterMap.mpr ⟨_, h, by simp [hkey]⟩

theorem mem_keysOfOthers {apiKey : String} {es : List Event} {rid : Nat}
    {request : AuthorizeRequest} {t : StartReadings} (h : .request rid request t ∈ es)
    (hkey : request.xApiKey ≠ some apiKey) : request.key ∈ keysOfOthers apiKey es :=
  List.mem_filterMap.mpr ⟨_, h, by simp [hkey]⟩

theorem mem_idempotencyKeys {es : List Event} {rid : Nat} {request : AuthorizeRequest}
    {t : StartReadings} (h : .request rid request t ∈ es) : request.key ∈ idempotencyKeys es :=
  List.mem_filterMap.mpr ⟨_, h, rfl⟩

section Scopes

variable {apiKey : String} {es₁ es₂ es : List Event}

/-- A request that is not included has a key of others. -/
theorem foreign_of_not_unshared {rid : Nat} {request : AuthorizeRequest} {t : StartReadings}
    (hothers : ∀ key ∈ keysOfOthers apiKey es,
      key ∈ keysOfOthers apiKey es₁ ++ keysOfOthers apiKey es₂)
    (h : .request rid request t ∈ es) (hnot : unshared apiKey es₁ es₂ request = false) :
    request.key ∈ keysOfOthers apiKey es₁ ++ keysOfOthers apiKey es₂ := by
  by_cases hkey : request.xApiKey = some apiKey
  · unfold unshared at hnot
    rw [decide_eq_true hkey, Bool.true_and] at hnot
    exact not_not.mp (of_decide_eq_false hnot)
  · exact hothers _ (mem_keysOfOthers h hkey)

/-- The scope admits every event of a run that has its part under the key. -/
theorem admits_of_mem {p p' : Process} {tr : List Obs}
    (hpart : partUnder apiKey es = partUnder apiKey es₁)
    (hothers : ∀ key ∈ keysOfOthers apiKey es,
      key ∈ keysOfOthers apiKey es₁ ++ keysOfOthers apiKey es₂)
    (hrun : run Process.stepScheduled p es = some (p', tr)) :
    ∀ e ∈ es, (unsharedScope apiKey es₁ es₂).Admits (idempotencyKeys es).dedup e := by
  intro e hmem rid request t he
  rw [he] at hmem
  refine ⟨⟨?_, ?_⟩, List.mem_dedup.mpr (mem_idempotencyKeys hmem)⟩
  · rw [mem_rids_iff, includes_eq]
    constructor
    · intro h
      obtain ⟨request', t', hmem', hun⟩ := h
      rw [← hpart] at hmem'
      have hsame := request_unique hrun hmem (mem_partUnder_request.mp hmem').1
      rw [hsame]
      exact hun
    · intro hun
      have hkey : request.xApiKey = some apiKey :=
        of_decide_eq_true (Bool.and_eq_true_iff.mp hun).1
      refine ⟨request, t, ?_, hun⟩
      rw [← hpart]
      exact mem_partUnder_request.mpr ⟨hmem, hkey⟩
  · exact foreign_of_not_unshared hothers hmem

/-- The visible events are those of the part under the key. -/
theorem filter_visible (hpart : partUnder apiKey es = partUnder apiKey es₁) :
    es.filter (unsharedScope apiKey es₁ es₂).visible =
      (partUnder apiKey es₁).filter (unsharedScope apiKey es₁ es₂).visible := by
  rw [← hpart, partUnder, List.filter_filter]
  apply List.filter_congr
  intro e hmem
  cases hv : (unsharedScope apiKey es₁ es₂).visible e with
  | false => rfl
  | true =>
      cases e with
      | load => rfl
      | request rid request t =>
          have hkey := (Bool.and_eq_true_iff.mp hv).1
          exact hkey.symm
      | answer rid outcome uuid t =>
          obtain ⟨request, t', hreq, hun⟩ := mem_rids_iff.mp (of_decide_eq_true hv)
          rw [← hpart] at hreq
          obtain ⟨hin, hkey⟩ := mem_partUnder_request.mp hreq
          exact (decide_eq_true (mem_ridsUnder hin hkey)).symm

end Scopes

/-! ## Whose transactions -/

/-- A response given out for an idempotency key that others do not use was made
under the API key. -/
def OwnReply (apiKey : String) (others : List String) (tr : List Obs) : Obs → Prop
  | .replied _ request reply => ¬ request.key ∈ others →
      ∀ response, reply.body? = some response → MadeUnder apiKey tr response
  | _ => True

/-- Responses for the idempotency keys that others do not use are made under
the API key, cached or given out. -/
structure Owned (apiKey : String) (others : List String) (p : Process) (tr : List Obs) :
    Prop where
  waiting : ∀ h ∈ p.waiting, h.request.xApiKey ≠ some apiKey → h.request.key ∈ others
  cached : ∀ key response, ¬ key ∈ others →
    p.connector.idempotencyCache.get? key = some response → MadeUnder apiKey tr response
  replied : ∀ x ∈ tr, OwnReply apiKey others tr x

section Owners

variable {apiKey : String} {others : List String} {p p' : Process} {tr obs : List Obs}

theorem MadeUnder.append {response : PaymentResponse} (h : MadeUnder apiKey tr response) :
    MadeUnder apiKey (tr ++ obs) response := by
  obtain ⟨rid, request, hmem, hkey⟩ := h
  exact ⟨rid, request, List.mem_append_left obs hmem, hkey⟩

theorem OwnReply.append {x : Obs} (h : OwnReply apiKey others tr x) :
    OwnReply apiKey others (tr ++ obs) x := by
  cases x with
  | replied rid request reply =>
      intro hkey response hbody
      exact (h hkey response hbody).append
  | _ => trivial

/-- What has to be looked at in a step. -/
theorem Owned.step (h : Owned apiKey others p tr)
    (hwaiting : ∀ h' ∈ p'.waiting, h'.request.xApiKey ≠ some apiKey → h'.request.key ∈ others)
    (hcached : ∀ key response, ¬ key ∈ others →
      p'.connector.idempotencyCache.get? key = some response →
        p.connector.idempotencyCache.get? key = some response ∨
          MadeUnder apiKey (tr ++ obs) response)
    (hreplied : ∀ x ∈ obs, OwnReply apiKey others (tr ++ obs) x) :
    Owned apiKey others p' (tr ++ obs) := by
  refine ⟨hwaiting, ?_, ?_⟩
  · intro key response hkey hget
    rcases hcached key response hkey hget with hold | hnew
    · exact (h.cached key response hkey hold).append
    · exact hnew
  · intro x hx
    rcases List.mem_append.mp hx with hold | hnew
    · exact (h.replied x hold).append
    · exact hreplied x hnew

/-- A store is made under the key of the handler that makes it. -/
private theorem Owned.stored (h : Owned apiKey others p tr) {handler : Handler}
    {outcome : PostOutcome} {response : PaymentResponse} {outputs : List Output}
    {evicted : List String} (hmem : handler ∈ p.waiting)
    (hwaiting : ∀ h' ∈ p'.waiting, h' ∈ p.waiting)
    (hget : ∀ key response', p'.connector.idempotencyCache.get? key = some response' →
      (key = handler.request.key ∧ response' = response) ∨
        p.connector.idempotencyCache.get? key = some response') :
    Owned apiKey others p' (tr ++ storedObs handler outcome response outputs evicted) := by
  have hmade : ¬ handler.request.key ∈ others → MadeUnder apiKey
      (tr ++ storedObs handler outcome response outputs evicted) response := by
    intro hkey
    have hown : handler.request.xApiKey = some apiKey :=
      not_not.mp (fun hother => hkey (h.waiting handler hmem hother))
    exact ⟨handler.rid, handler.request, List.mem_append_right _ (by simp [storedObs]), hown⟩
  refine h.step (fun h' hin => h.waiting h' (hwaiting h' hin)) ?_ ?_
  · intro key response' hkey hread
    rcases hget key response' hread with hself | hold
    · rw [hself.1] at hkey
      rw [hself.2]
      exact Or.inr (hmade hkey)
    · exact Or.inl hold
  · generalize tr ++ storedObs handler outcome response outputs evicted = tr' at hmade ⊢
    unfold storedObs
    rw [forall_mem_outputs_append (fun _ => trivial), List.forall_mem_cons,
      List.forall_mem_append]
    refine ⟨trivial, forall_mem_map (fun _ => trivial) evicted, ?_⟩
    rw [List.forall_mem_cons, List.forall_mem_singleton]
    refine ⟨trivial, ?_⟩
    intro hkey response' hbody
    have hsame : response = response' := Option.some.inj hbody
    rw [← hsame]
    exact hmade hkey

theorem step_owned {e : Event} (h : Owned apiKey others p tr)
    (hforeign : ∀ rid request t, e = .request rid request t → request.xApiKey ≠ some apiKey →
      request.key ∈ others)
    (hstep : p.stepScheduled e = some (p', obs)) : Owned apiKey others p' (tr ++ obs) := by
  rcases stepScheduled_cases hstep with hs | hskip
  · have hsilent : ∀ tr o, OwnReply apiKey others tr (.output o) := fun _ _ => trivial
    cases step_spec hs with
    | load =>
        refine h.step h.waiting (fun _ _ _ hget => Or.inl hget) ?_
        rw [forall_mem_outputs_append (hsilent _), List.forall_mem_singleton]
        trivial
    | refused =>
        refine h.step h.waiting (fun _ _ _ hget => Or.inl hget) ?_
        rw [forall_mem_outputs_append (hsilent _), List.forall_mem_singleton]
        intro _ response hbody
        cases hbody
    | raised =>
        refine h.step h.waiting (fun _ _ _ hget => Or.inl hget) ?_
        rw [forall_mem_outputs_append (hsilent _), List.forall_mem_singleton]
        intro _ response hbody
        cases hbody
    | replayed rid request t manager cached outputs hseen haccepted hmanager hvalid hget =>
        refine h.step h.waiting ?_ ?_
        · intro key response _ hget'
          rw [OrderedDict.get?_moveToEnd] at hget'
          exact Or.inl hget'
        · rw [forall_mem_outputs_append (hsilent _), List.forall_mem_singleton]
          intro hkey response hbody
          have hsame : cached = response := Option.some.inj hbody
          rw [← hsame]
          exact (h.cached request.key cached hkey hget).append
    | posting rid request t =>
        refine h.step ?_ (fun _ _ _ hget => Or.inl hget) ?_
        · intro h' hmem
          rcases List.mem_append.mp hmem with hold | hnew
          · exact h.waiting h' hold
          · rw [List.mem_singleton.mp hnew]
            exact hforeign rid request t rfl
        · rw [List.forall_mem_singleton]
          trivial
    | stored handler outcome uuid t client inFlight outputs body response hmem =>
        apply h.stored hmem
        · exact fun h' hin => (mem_filter_rid hin).1
        · intro key response' hget
          exact (get?_storeIdempotency_eq_some hget).imp_right And.right
    | failed handler outcome uuid t client inFlight outputs reply hmem haccepted hreply =>
        have hnobody : reply.body? = none := by
          rcases hreply with hrefused | hescaped
          · obtain ⟨-, detail, rfl⟩ := hrefused
            rfl
          · obtain ⟨-, exc, rfl⟩ := hescaped
            rfl
        refine h.step (fun h' hin => h.waiting h' (mem_filter_rid hin).1)
          (fun _ _ _ hget => Or.inl hget) ?_
        rw [forall_mem_outputs_append (hsilent _), List.forall_mem_cons, List.forall_mem_singleton]
        refine ⟨trivial, ?_⟩
        intro _ response hbody
        rw [hnobody] at hbody
        cases hbody
    | fallback handler outcome uuid t client inFlight outputs credential hmem =>
        refine h.step ?_ (fun _ _ _ hget => Or.inl hget) ?_
        · intro h' hin
          rcases List.mem_append.mp hin with hold | hnew
          · exact h.waiting h' (mem_filter_rid hold).1
          · rw [List.mem_singleton.mp hnew]
            exact h.waiting handler hmem
        · rw [forall_mem_outputs_append (hsilent _), List.forall_mem_cons,
            List.forall_mem_singleton]
          exact ⟨trivial, trivial⟩
  · obtain ⟨_, _, _, _, _, _, hsame, hnil⟩ := hskip
    rw [hsame, hnil, List.append_nil]
    exact h

end Owners

theorem mem_repliesTo {P : AuthorizeRequest → Bool} {tr : List Obs} {rid : Nat} {reply : Reply} :
    (rid, reply) ∈ repliesTo P tr ↔
      ∃ request, .replied rid request reply ∈ tr ∧ P request = true := by
  unfold repliesTo
  rw [List.mem_filterMap]
  constructor
  · intro h
    obtain ⟨x, hx, hreply⟩ := h
    cases x with
    | replied rid' request reply' =>
        by_cases hP : P request = true
        · simp only [replyTo?, hP, if_true, Option.some.injEq, Prod.mk.injEq] at hreply
          rw [hreply.1, hreply.2] at hx
          exact ⟨request, hx, hP⟩
        · simp [replyTo?, hP] at hreply
    | _ => cases hreply
  · intro h
    obtain ⟨request, hx, hP⟩ := h
    exact ⟨_, hx, by simp [replyTo?, hP]⟩

namespace Undisturbed

variable {settings : Settings} {manager : CredentialManager} {es es₁ es₂ : List Event}
  {p p₁ p₂ : Process} {tr tr₁ tr₂ : List Obs}

/-- Where others do not use the idempotency key, responses are made under the
API key. -/
theorem owned (h : Undisturbed settings manager es p tr) (apiKey : String) {others : List String}
    (hothers : ∀ key ∈ keysOfOthers apiKey es, key ∈ others) : Owned apiKey others p tr := by
  have halong : Along Process.stepScheduled
      (fun _ e => ∀ rid request t, e = .request rid request t → request.xApiKey ≠ some apiKey →
        request.key ∈ others) (.start settings manager) es := by
    apply (along_event_iff h.run).mpr
    intro e hmem rid request t he hother
    rw [he] at hmem
    exact hothers _ (mem_keysOfOthers hmem hother)
  refine run_invariant_along (I := Owned apiKey others) ?_ ?_ halong h.run
  · intro s tr e s' o hI hC hs
    exact step_owned hI hC hs
  · refine ⟨fun _ hmem => absurd hmem List.not_mem_nil, ?_,
      fun _ hmem => absurd hmem List.not_mem_nil⟩
    intro key response _ hget
    cases hget

/-- The conditions under which the run is compared hold along it. -/
theorem along (h : Undisturbed settings manager es p tr) (apiKey : String) (es₁ es₂ : List Event)
    (hpart : partUnder apiKey es = partUnder apiKey es₁)
    (hothers : ∀ key ∈ keysOfOthers apiKey es,
      key ∈ keysOfOthers apiKey es₁ ++ keysOfOthers apiKey es₂) :
    Along Process.stepScheduled
      (fun p e => e.AdmittedBy p ∧
        (unsharedScope apiKey es₁ es₂).Admits (idempotencyKeys es).dedup e ∧
          ∀ rid request t, e = .request rid request t →
            acceptsApiKey settings request.xApiKey = true)
      (.start settings manager) es := by
  rw [along_and, along_and]
  refine ⟨h.admitted, (along_event_iff h.run).mpr (admits_of_mem hpart hothers h.run),
    (along_event_iff h.run).mpr ?_⟩
  intro e hmem rid request t he
  have hvalid := h.valid e hmem
  rw [he] at hvalid
  exact hvalid

/-- Two undisturbed runs with the same part under an API key answer its
requests alike where the idempotency key is not shared. -/
theorem replies_eq (h₁ : Undisturbed settings manager es₁ p₁ tr₁)
    (h₂ : Undisturbed settings manager es₂ p₂ tr₂) {apiKey : String}
    (hpart : partUnder apiKey es₁ = partUnder apiKey es₂) :
    repliesTo (unshared apiKey es₁ es₂) tr₁ = repliesTo (unshared apiKey es₁ es₂) tr₂ := by
  have halong₁ := h₁.along apiKey es₁ es₂ rfl (fun _ hin => List.mem_append_left _ hin)
  have halong₂ := h₂.along apiKey es₁ es₂ hpart.symm (fun _ hin => List.mem_append_right _ hin)
  have hvisible : es₁.filter (unsharedScope apiKey es₁ es₂).visible =
      es₂.filter (unsharedScope apiKey es₁ es₂).visible :=
    (filter_visible rfl).trans (filter_visible hpart.symm).symm
  refine run_unwinding (R := fun p q =>
    (Scope.Confined (unsharedScope apiKey es₁ es₂) (idempotencyKeys es₁).dedup p ∧
      Validated settings p) ∧
    Scope.Confined (unsharedScope apiKey es₁ es₂) (idempotencyKeys es₂).dedup q ∧
    Scope.Agree (unsharedScope apiKey es₁ es₂) p q)
    ?_ ?_ ?_ ?_ halong₁ halong₂ h₁.run h₂.run hvisible
  · intro p q e p' o hR hC hv hs
    obtain ⟨⟨hp, hvalid⟩, hq, hagree⟩ := hR
    have hhidden := Scope.step_hidden hp h₁.few hC.2.1 hv hs
    exact ⟨⟨⟨Scope.step_confined hp hC.2.1 hs, stepScheduled_validated hvalid hs⟩, hq,
      hhidden.1.trans hagree⟩, hhidden.2⟩
  · intro p q e q' o hR hC hv hs
    obtain ⟨hp, hq, hagree⟩ := hR
    have hhidden := Scope.step_hidden hq h₂.few hC.2.1 hv hs
    exact ⟨⟨hp, Scope.step_confined hq hC.2.1 hs, hagree.trans hhidden.1.symm⟩, hhidden.2⟩
  · intro p q e p' q' o o' hR hC hD hv hs hs'
    obtain ⟨⟨hp, hvalid⟩, hq, hagree⟩ := hR
    have hready : ∀ rid request t, e = .request rid request t →
        acceptsApiKey p.connector.settings request.xApiKey = true ∧ p.connector.Ready t ∧
          q.connector.Ready t := by
      intro rid request t he
      rw [hvalid.settings_eq]
      refine ⟨hC.2.2 rid request t he, ?_, ?_⟩
      · have hadmitted := hC.1
        rw [he] at hadmitted
        exact hadmitted
      · have hadmitted := hD.1
        rw [he] at hadmitted
        exact hadmitted
    have hstep := Scope.step_visible hp hq h₁.few h₂.few hagree hv hready hs hs'
    exact ⟨⟨⟨Scope.step_confined hp hC.2.1 hs, stepScheduled_validated hvalid hs⟩,
      Scope.step_confined hq hD.2.1 hs', hstep.1⟩, hstep.2⟩
  · exact ⟨⟨Scope.start_confined _ _ _ _, start_validated settings manager⟩,
      Scope.start_confined _ _ _ _, .refl _⟩

end Undisturbed

/-- Two undisturbed runs with the same part under an API key answer its
requests alike where no request under another API key has the idempotency key,
and only with responses made for requests under it. -/
theorem isolation (apiKey : String) (settings : Settings) (manager : CredentialManager)
    (es₁ es₂ : List Event) (p₁ p₂ : Process) (tr₁ tr₂ : List Obs)
    (h₁ : Undisturbed settings manager es₁ p₁ tr₁) (h₂ : Undisturbed settings manager es₂ p₂ tr₂)
    (hpart : partUnder apiKey es₁ = partUnder apiKey es₂) :
    repliesTo (unshared apiKey es₁ es₂) tr₁ = repliesTo (unshared apiKey es₁ es₂) tr₂ ∧
      ∀ rid reply response, (rid, reply) ∈ repliesTo (unshared apiKey es₁ es₂) tr₁ →
        reply.body? = some response →
          MadeUnder apiKey tr₁ response ∧ MadeUnder apiKey tr₂ response := by
  have hsame := h₁.replies_eq h₂ hpart
  refine ⟨hsame, ?_⟩
  intro rid reply response hreply hbody
  have hreply₂ := hreply
  rw [hsame] at hreply₂
  obtain ⟨request, hmem, hun⟩ := mem_repliesTo.mp hreply
  obtain ⟨request₂, hmem₂, hun₂⟩ := mem_repliesTo.mp hreply₂
  have hkey := of_decide_eq_true (Bool.and_eq_true_iff.mp hun).2
  have hkey₂ := of_decide_eq_true (Bool.and_eq_true_iff.mp hun₂).2
  have howned₁ := h₁.owned apiKey
    (fun key hin => List.mem_append_left (keysOfOthers apiKey es₂) hin)
  have howned₂ := h₂.owned apiKey
    (fun key hin => List.mem_append_right (keysOfOthers apiKey es₁) hin)
  exact ⟨howned₁.replied _ hmem hkey response hbody, howned₂.replied _ hmem₂ hkey₂ response hbody⟩

/-! ## Two callers -/

def twoCallers : Settings := { apiKeys := ["key-a", "key-b"] }

def requestUnder (apiKey idempotencyKey : String)
    (h : 1 ≤ idempotencyKey.length ∧ idempotencyKey.length ≤ 128) : AuthorizeRequest where
  payment :=
    { samplePayment with
      idempotencyKey := idempotencyKey
      idempotencyKey_length := h }
  requestId := "req-1"
  xApiKey := some apiKey

/-- One request under the API key `key-a`, and the answer to its POST. -/
def ownRun : List Event :=
  [.request 1 (requestUnder "key-a" "idem-001" sampleKey_length) (.at 10),
    .answer 1 (answerWith 200 "txn-a") "uuid-a" (.at 11)]

/-- A request under `key-b` for an order of its own, answered before. -/
def otherOrderRun : List Event :=
  [.request 2 (requestUnder "key-b" "idem-002" (by decide)) (.at 1),
    .answer 2 (answerWith 200 "txn-b") "uuid-b" (.at 2)] ++ ownRun

/-- A request under `key-b` with the same idempotency key, answered before. -/
def sameKeyRun : List Event :=
  [.request 2 (requestUnder "key-b" "idem-001" sampleKey_length) (.at 1),
    .answer 2 (answerWith 200 "txn-b") "uuid-b" (.at 2)] ++ ownRun

/-- The transactions in the answers under an API key. -/
def transactionsUnder (apiKey : String) (tr : List Obs) : List (Option String) :=
  (repliesTo (fun request => request.xApiKey = some apiKey) tr).map
    (fun r => r.2.body?.map PaymentResponse.transactionId)

private theorem ownRun_undisturbed : ∃ p tr, Undisturbed twoCallers sampleManager ownRun p tr ∧
    transactionsUnder "key-a" tr = [some "txn-a"] := by
  have hrun : ∃ p tr, run Process.stepScheduled (.start twoCallers sampleManager) ownRun =
      some (p, tr) ∧ transactionsUnder "key-a" tr = [some "txn-a"] :=
    exists_run (by decide +kernel)
  obtain ⟨p, tr, hrun, htransactions⟩ := hrun
  exact ⟨p, tr, ⟨hrun, by decide +kernel, by decide +kernel, by decide +kernel⟩, htransactions⟩

theorem isolation_otherOrder :
    ∃ p₁ tr₁ p₂ tr₂, Undisturbed twoCallers sampleManager ownRun p₁ tr₁ ∧
      Undisturbed twoCallers sampleManager otherOrderRun p₂ tr₂ ∧
      repliesTo (unshared "key-a" ownRun otherOrderRun) tr₁ =
        repliesTo (unshared "key-a" ownRun otherOrderRun) tr₂ ∧
      ∀ rid reply response, (rid, reply) ∈ repliesTo (unshared "key-a" ownRun otherOrderRun) tr₁ →
        reply.body? = some response →
          MadeUnder "key-a" tr₁ response ∧ MadeUnder "key-a" tr₂ response := by
  have hrun : ∃ p tr, run Process.stepScheduled (.start twoCallers sampleManager) otherOrderRun =
      some (p, tr) ∧ True :=
    exists_run (by decide +kernel)
  obtain ⟨p₁, tr₁, h₁, -⟩ := ownRun_undisturbed
  obtain ⟨p₂, tr₂, hrun, -⟩ := hrun
  have h₂ : Undisturbed twoCallers sampleManager otherOrderRun p₂ tr₂ :=
    ⟨hrun, by decide +kernel, by decide +kernel, by decide +kernel⟩
  exact ⟨p₁, tr₁, p₂, tr₂, h₁, h₂,
    isolation "key-a" twoCallers sampleManager ownRun otherOrderRun p₁ p₂ tr₁ tr₂ h₁ h₂ rfl⟩

/-- Another caller's request with the same idempotency key changes what is
answered under `key-a`: the transaction of the other caller. -/
theorem not_isolated_sameKey :
    ∃ p₁ tr₁ p₂ tr₂, Undisturbed twoCallers sampleManager ownRun p₁ tr₁ ∧
      Undisturbed twoCallers sampleManager sameKeyRun p₂ tr₂ ∧
        partUnder "key-a" ownRun = partUnder "key-a" sameKeyRun ∧
          ¬ repliesTo (fun request => request.xApiKey = some "key-a") tr₁ =
              repliesTo (fun request => request.xApiKey = some "key-a") tr₂ ∧
            transactionsUnder "key-a" tr₁ = [some "txn-a"] ∧
              transactionsUnder "key-a" tr₂ = [some "txn-b"] := by
  have hrun : ∃ p tr, run Process.stepScheduled (.start twoCallers sampleManager) sameKeyRun =
      some (p, tr) ∧ transactionsUnder "key-a" tr = [some "txn-b"] :=
    exists_run (by decide +kernel)
  obtain ⟨p₁, tr₁, h₁, htransactions₁⟩ := ownRun_undisturbed
  obtain ⟨p₂, tr₂, hrun, htransactions₂⟩ := hrun
  have hne : transactionsUnder "key-a" tr₁ ≠ transactionsUnder "key-a" tr₂ := by
    rw [htransactions₁, htransactions₂]
    decide
  refine ⟨p₁, tr₁, p₂, tr₂, h₁, ⟨hrun, by decide +kernel, by decide +kernel, by decide +kernel⟩,
    rfl, ?_, htransactions₁, htransactions₂⟩
  intro hsame
  apply hne
  unfold transactionsUnder
  rw [hsame]

end PaymentConnector
