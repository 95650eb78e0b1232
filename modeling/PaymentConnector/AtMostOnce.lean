import PaymentConnector.Process

/-!
# At most one charge per idempotency key, in one process

The cache lookup of a request and the cache store of its response are
separated by the suspension at the gateway, so two handlers of one key can
both miss the cache.  The exact condition for at most one fresh 200 per key is
one on the schedule and the gateway: no two handlers of the key that are
suspended together both get an accepted answer.  It holds in particular when
handlers of the same key never overlap; handlers that do not overlap need no
condition, since the second one finds the first one's response in the cache.
-/

namespace PaymentConnector

open Library Library.Machine

/-! ## What a trace says about one key -/

/-- The body of a 200 answer to a request for `key`. -/
def okBody? (key : String) : Obs → Option PaymentResponse
  | .replied _ request reply => if request.key = key then reply.body? else none
  | _ => none

/-- The fresh response to a request for `key` whose POST was answered. -/
def freshOk? (key : String) : Obs → Option PaymentResponse
  | .replied _ request (.ok response) => if request.key = key then some response else none
  | _ => none

/-- All 200 bodies given out for `key`, fresh or replayed. -/
def okBodies (key : String) (tr : List Obs) : List PaymentResponse := tr.filterMap (okBody? key)

/-- The 200 bodies for `key` that a gateway POST of their own request led to. -/
def freshOks (key : String) (tr : List Obs) : List PaymentResponse := tr.filterMap (freshOk? key)

/-- At most one POST for `key` became a 200, and every 200 for `key` names the
same transaction. -/
def AtMostOnce (key : String) (tr : List Obs) : Prop :=
  (freshOks key tr).length ≤ 1 ∧
    ∀ a ∈ okBodies key tr, ∀ b ∈ okBodies key tr, a.transactionId = b.transactionId

/-- An accepted answer arrives for `key` while the cache already holds a
response for `key`: the store is about to overwrite it. -/
def Overwrites (key : String) (p : Process) : Event → Prop
  | .answer rid outcome _ _ =>
      outcome.accepted = true ∧ key ∈ p.connector.idempotencyCache ∧
        ∃ h ∈ p.waiting, h.rid = rid ∧ h.request.key = key
  | _ => False

/-! ## What one step contributes -/

section Contributions

variable (key : String)

@[simp] private theorem okBodies_nil : okBodies key [] = [] := rfl

@[simp] private theorem freshOks_nil : freshOks key [] = [] := rfl

@[simp] private theorem okBodies_cons (x : Obs) (tr : List Obs) :
    okBodies key (x :: tr) = (okBody? key x).toList ++ okBodies key tr := by
  cases h : okBody? key x <;> simp [okBodies, h]

@[simp] private theorem freshOks_cons (x : Obs) (tr : List Obs) :
    freshOks key (x :: tr) = (freshOk? key x).toList ++ freshOks key tr := by
  cases h : freshOk? key x <;> simp [freshOks, h]

@[simp] private theorem okBodies_append (tr tr' : List Obs) :
    okBodies key (tr ++ tr') = okBodies key tr ++ okBodies key tr' :=
  List.filterMap_append

@[simp] private theorem freshOks_append (tr tr' : List Obs) :
    freshOks key (tr ++ tr') = freshOks key tr ++ freshOks key tr' :=
  List.filterMap_append

@[simp] private theorem okBodies_outputs (outputs : List Output) :
    okBodies key (outputs.map Obs.output) = [] :=
  filterMap_map_eq_nil (fun _ => rfl) outputs

@[simp] private theorem freshOks_outputs (outputs : List Output) :
    freshOks key (outputs.map Obs.output) = [] :=
  filterMap_map_eq_nil (fun _ => rfl) outputs

@[simp] private theorem okBodies_evictions (keys : List String) :
    okBodies key (keys.map Obs.evicted) = [] :=
  filterMap_map_eq_nil (fun _ => rfl) keys

@[simp] private theorem freshOks_evictions (keys : List String) :
    freshOks key (keys.map Obs.evicted) = [] :=
  filterMap_map_eq_nil (fun _ => rfl) keys

end Contributions

/-! ## The ledger of a key -/

/-- What the cache tells about the 200s given out for `key` so far: without an
entry there were none; with one there was at most one fresh 200, and every 200
named the transaction of the entry. -/
structure Ledger (key : String) (p : Process) (tr : List Obs) : Prop where
  absent : p.connector.idempotencyCache.get? key = none →
    okBodies key tr = [] ∧ freshOks key tr = []
  present : ∀ cached, p.connector.idempotencyCache.get? key = some cached →
    (freshOks key tr).length ≤ 1 ∧
      ∀ a ∈ okBodies key tr, a.transactionId = cached.transactionId

private theorem Ledger.of_same {key : String} {p p' : Process} {tr obs : List Obs}
    (h : Ledger key p tr)
    (hcache : p'.connector.idempotencyCache.get? key = p.connector.idempotencyCache.get? key)
    (hok : okBodies key obs = []) (hfresh : freshOks key obs = []) :
    Ledger key p' (tr ++ obs) := by
  refine ⟨?_, ?_⟩
  · intro hnone
    rw [hcache] at hnone
    simpa [hok, hfresh] using h.absent hnone
  · intro cached hsome
    rw [hcache] at hsome
    simpa [hok, hfresh] using h.present cached hsome

/-- A step that overwrites no entry of `key` keeps the ledger, or evicts it. -/
private theorem step_ledger {key : String} {p p' : Process} {tr obs : List Obs} {e : Event}
    (h : .evicted key ∈ tr ∨ Ledger key p tr) (hC : ¬ Overwrites key p e)
    (hstep : p.step e = some (p', obs)) :
    .evicted key ∈ tr ++ obs ∨ Ledger key p' (tr ++ obs) := by
  rcases h with hev | hL
  · exact Or.inl (List.mem_append_left obs hev)
  cases step_spec hstep with
  | load read t manager manager' result outputs hmanager hload =>
      exact Or.inr (hL.of_same rfl (by simp [okBody?]) (by simp [freshOk?]))
  | refused rid request t client code detail outputs hseen hclient hcode haccepted =>
      exact Or.inr (hL.of_same rfl (by simp [okBody?, Reply.body?]) (by simp [freshOk?]))
  | raised rid request t exc =>
      exact Or.inr (hL.of_same rfl (by simp [okBody?, Reply.body?]) (by simp [freshOk?]))
  | replayed rid request t manager cached outputs hseen haccepted hmanager hvalid hcached =>
      right
      by_cases hkey : request.key = key
      · subst hkey
        have hpresent := hL.present cached hcached
        refine ⟨?_, ?_⟩
        · intro hnone
          rw [OrderedDict.get?_moveToEnd, hcached] at hnone
          cases hnone
        · intro cached' hsome
          rw [OrderedDict.get?_moveToEnd, hcached, Option.some.injEq] at hsome
          subst hsome
          refine ⟨by simpa [freshOk?] using hpresent.1, ?_⟩
          intro a ha
          simp only [okBodies_append, okBodies_outputs, okBodies_cons, okBody?, if_true,
            Reply.body?, Option.toList_some, okBodies_nil, List.append_nil, List.nil_append,
            List.mem_append, List.mem_singleton] at ha
          rcases ha with ha | rfl
          · exact hpresent.2 a ha
          · rfl
      · exact hL.of_same (by rw [OrderedDict.get?_moveToEnd])
          (by simp [okBody?, hkey]) (by simp [freshOk?])
  | posting rid request t manager client primary hseen haccepted hmanager hvalid hmiss hready
      hprimary =>
      exact Or.inr (hL.of_same rfl (by simp [okBody?]) (by simp [freshOk?]))
  | stored handler outcome uuid t client inFlight outputs body response hmem haccepted hbody
      hbuild =>
      by_cases hkept : key ∈
          (storeIdempotency handler.request.key response p.connector.idempotencyCache).2
      · exact Or.inl (by simp [storedObs, hkept])
      right
      by_cases hkey : handler.request.key = key
      · subst hkey
        have hmiss : p.connector.idempotencyCache.get? handler.request.key = none := by
          rw [OrderedDict.get?_eq_none_iff]
          exact fun hin => hC ⟨haccepted, hin, handler, hmem, rfl, rfl⟩
        obtain ⟨hok, hfresh⟩ := hL.absent hmiss
        have hself := get?_storeIdempotency_self hkept
        refine ⟨?_, ?_⟩
        · intro hnone
          rw [hself] at hnone
          cases hnone
        · intro cached hsome
          rw [hself, Option.some.injEq] at hsome
          subst hsome
          simp [storedObs, okBody?, freshOk?, Reply.body?, hok, hfresh]
      · have hne : key ≠ handler.request.key := fun h => hkey h.symm
        exact hL.of_same (get?_storeIdempotency hne hkept)
          (by simp [storedObs, okBody?, hkey]) (by simp [storedObs, freshOk?, hkey])
  | failed handler outcome uuid t client inFlight outputs reply hmem haccepted hreply =>
      rcases hreply with ⟨-, detail, rfl⟩ | ⟨-, exc, rfl⟩ <;>
        exact Or.inr (hL.of_same rfl (by simp [okBody?, Reply.body?]) (by simp [freshOk?]))
  | fallback handler outcome uuid t client inFlight outputs credential hmem hrejected hstage
      hoid =>
      exact Or.inr (hL.of_same rfl (by simp [okBody?]) (by simp [freshOk?]))

/-- A cached key has had a fresh 200. -/
private theorem step_cached {key : String} {p p' : Process} {tr obs : List Obs} {e : Event}
    (h : key ∈ p.connector.idempotencyCache → freshOks key tr ≠ [])
    (hstep : p.step e = some (p', obs)) :
    key ∈ p'.connector.idempotencyCache → freshOks key (tr ++ obs) ≠ [] := by
  have hgrow : freshOks key tr ≠ [] → freshOks key (tr ++ obs) ≠ [] := by
    intro hne hnil
    rw [freshOks_append] at hnil
    exact hne (List.append_eq_nil_iff.mp hnil).1
  cases step_spec hstep with
  | load => exact fun hin => hgrow (h hin)
  | refused => exact fun hin => hgrow (h hin)
  | raised => exact fun hin => hgrow (h hin)
  | replayed rid request =>
      intro hin
      rw [OrderedDict.mem_moveToEnd] at hin
      exact hgrow (h hin)
  | posting => exact fun hin => hgrow (h hin)
  | stored handler outcome uuid t client inFlight outputs body response =>
      intro hin
      rcases mem_storeIdempotency hin with rfl | hold
      · simp [storedObs, freshOk?]
      · exact hgrow (h hold)
  | failed => exact fun hin => hgrow (h hin)
  | fallback => exact fun hin => hgrow (h hin)

private theorem mem_cache_of_overwrites {key : String} {p : Process} {e : Event}
    (hC : Overwrites key p e) : key ∈ p.connector.idempotencyCache := by
  cases e with
  | load read t => exact hC.elim
  | request rid request t => exact hC.elim
  | answer rid outcome uuid t => exact hC.2.1

/-- An overwriting step gives out a fresh 200 for its key. -/
private theorem freshOks_of_overwrites {key : String} {p p' : Process} {obs : List Obs}
    {e : Event} (hp : p.WellNamed) (hC : Overwrites key p e) (hstep : p.step e = some (p', obs)) :
    freshOks key obs ≠ [] := by
  cases step_spec hstep with
  | load => exact hC.elim
  | refused => exact hC.elim
  | raised => exact hC.elim
  | replayed => exact hC.elim
  | posting => exact hC.elim
  | stored handler outcome uuid t client inFlight outputs body response hmem =>
      obtain ⟨-, -, handler', hmem', hrid, hkey⟩ := hC
      have heq : handler' = handler := hp.eq_of_rid hmem' hmem hrid
      subst heq
      simp [storedObs, freshOk?, hkey]
  | failed handler outcome uuid t client inFlight outputs reply hmem haccepted =>
      have := hC.1
      rw [haccepted] at this
      cases this
  | fallback handler outcome uuid t client inFlight outputs credential hmem hrejected =>
      have := hC.1
      simp [PostOutcome.accepted, hrejected] at this

/-! ## At most once -/

private theorem along_of_atMostOnce {settings : Settings} {manager : CredentialManager}
    {key : String} {es : List Event} {p : Process} {tr : List Obs}
    (hrun : run Process.step (Process.start settings manager) es = some (p, tr))
    (honce : AtMostOnce key tr) :
    Along Process.step (fun p e => ¬ Overwrites key p e) (Process.start settings manager) es := by
  rw [along_iff_forall_split]
  intro es₁ e es₂ p₁ tr₁ hes hrun₁ hC
  subst hes
  obtain ⟨p₁', tr₁', tr₂, hrun₁', hrun₂, rfl⟩ := run_append_iff.mp hrun
  obtain ⟨rfl, rfl⟩ : p₁ = p₁' ∧ tr₁ = tr₁' := by simpa using hrun₁.symm.trans hrun₁'
  obtain ⟨p₂, obs, tr₃, hstep, -, rfl⟩ := run_cons_iff.mp hrun₂
  have hnamed : p₁.WellNamed :=
    run_state_invariant (fun _ _ _ _ h hs => step_wellNamed h hs)
      (Process.start_wellNamed settings manager) hrun₁
  have hcached : key ∈ p₁.connector.idempotencyCache → freshOks key tr₁ ≠ [] :=
    run_invariant
      (I := fun p tr => key ∈ p.connector.idempotencyCache → freshOks key tr ≠ [])
      (fun _ _ _ _ _ h hs => step_cached h hs)
      (fun h => absurd h (OrderedDict.not_mem_empty key)) hrun₁
  have hfirst : 0 < (freshOks key tr₁).length :=
    List.length_pos_iff.mpr (hcached (mem_cache_of_overwrites hC))
  have hsecond : 0 < (freshOks key obs).length :=
    List.length_pos_iff.mpr (freshOks_of_overwrites hnamed hC hstep)
  have hatmost := honce.1
  rw [freshOks_append, freshOks_append, List.length_append, List.length_append] at hatmost
  omega

private theorem atMostOnce_of_along {settings : Settings} {manager : CredentialManager}
    {key : String} {es : List Event} {p : Process} {tr : List Obs}
    (hrun : run Process.step (Process.start settings manager) es = some (p, tr))
    (hkept : ¬ .evicted key ∈ tr)
    (halong : Along Process.step (fun p e => ¬ Overwrites key p e)
      (Process.start settings manager) es) : AtMostOnce key tr := by
  have hinit : .evicted key ∈ ([] : List Obs) ∨
      Ledger key (Process.start settings manager) [] :=
    Or.inr ⟨fun _ => ⟨rfl, rfl⟩, fun cached h => by cases h⟩
  have hend := run_invariant_along
    (I := fun p tr => .evicted key ∈ tr ∨ Ledger key p tr)
    (fun _ _ _ _ _ hI hC hs => step_ledger hI hC hs) hinit halong hrun
  have hledger : Ledger key p tr := hend.resolve_left hkept
  cases hget : p.connector.idempotencyCache.get? key with
  | none =>
      have habsent := hledger.absent hget
      simp [AtMostOnce, habsent.1, habsent.2]
  | some cached =>
      have hpresent := hledger.present cached hget
      refine ⟨hpresent.1, ?_⟩
      intro a ha b hb
      rw [hpresent.2 a ha, hpresent.2 b hb]

/-- In every run that evicts no entry of `key`, at most one POST for `key`
becomes a 200 and all its 200s agree, exactly when no accepted answer arrives
for `key` while `key` is cached. -/
private theorem atMostOnce_iff_along {settings : Settings} {manager : CredentialManager}
    {key : String} {es : List Event} {p : Process} {tr : List Obs}
    (hrun : run Process.step (Process.start settings manager) es = some (p, tr))
    (hkept : ¬ .evicted key ∈ tr) :
    AtMostOnce key tr ↔
      Along Process.step (fun p e => ¬ Overwrites key p e) (Process.start settings manager) es :=
  ⟨along_of_atMostOnce hrun, atMostOnce_of_along hrun hkept⟩

/-! ## Handlers that race -/

/-- The POST of `rid` gets an answer that the endpoint accepts. -/
def Event.Accepts (rid : Nat) : Event → Prop
  | .answer rid' outcome _ _ => rid' = rid ∧ outcome.accepted = true
  | _ => False

/-- An accepted answer arrives for a handler of `key` while another one is
suspended at its POST that gets an accepted answer later. -/
def Races (key : String) (p : Process) (e : Event) (rest : List Event) : Prop :=
  ∃ h ∈ p.waiting, ∃ h' ∈ p.waiting, h.request.key = key ∧ h'.request.key = key ∧
    h.rid ≠ h'.rid ∧ e.Accepts h.rid ∧ ∃ e' ∈ rest, e'.Accepts h'.rid

/-- The handlers that carry the name `rid` are for `key`, now and later. -/
private structure For (key : String) (rid : Nat) (p : Process) : Prop where
  seen : rid ∈ p.seen
  waiting : ∀ h ∈ p.waiting, h.rid = rid → h.request.key = key

private theorem step_for {key : String} {rid : Nat} {p p' : Process} {obs : List Obs} {e : Event}
    (h : For key rid p) (hstep : p.step e = some (p', obs)) : For key rid p' := by
  cases step_spec hstep with
  | load => exact ⟨h.seen, h.waiting⟩
  | refused => exact ⟨List.mem_cons_of_mem _ h.seen, h.waiting⟩
  | raised => exact ⟨List.mem_cons_of_mem _ h.seen, h.waiting⟩
  | replayed => exact ⟨List.mem_cons_of_mem _ h.seen, h.waiting⟩
  | posting rid' request t manager client primary hseen =>
      refine ⟨List.mem_cons_of_mem _ h.seen, ?_⟩
      intro handler hin hrid
      rcases List.mem_append.mp hin with hold | hnew
      · exact h.waiting handler hold hrid
      · rw [List.mem_singleton.mp hnew] at hrid
        have hfresh : rid' = rid := hrid
        exact absurd (hfresh ▸ h.seen) hseen
  | stored handler =>
      exact ⟨h.seen, fun h' hin hrid => h.waiting h' (mem_filter_rid hin).1 hrid⟩
  | failed handler =>
      exact ⟨h.seen, fun h' hin hrid => h.waiting h' (mem_filter_rid hin).1 hrid⟩
  | fallback handler outcome uuid t client inFlight outputs credential hmem =>
      refine ⟨h.seen, ?_⟩
      intro h' hin hrid
      rcases List.mem_append.mp hin with hold | hnew
      · exact h.waiting h' (mem_filter_rid hold).1 hrid
      · rw [List.mem_singleton.mp hnew] at hrid ⊢
        exact h.waiting handler hmem hrid

/-- An accepted answer for `key` gives out a fresh 200. -/
private theorem freshOks_of_accepts {key : String} {rid : Nat} {p p' : Process} {obs : List Obs}
    {e : Event} (h : For key rid p) (he : e.Accepts rid) (hstep : p.step e = some (p', obs)) :
    freshOks key obs ≠ [] := by
  cases step_spec hstep with
  | load => exact he.elim
  | refused => exact he.elim
  | raised => exact he.elim
  | replayed => exact he.elim
  | posting => exact he.elim
  | stored handler outcome uuid t client inFlight outputs body response hmem =>
      have hkey := h.waiting handler hmem he.1
      simp [storedObs, freshOk?, hkey]
  | failed handler outcome uuid t client inFlight outputs reply hmem haccepted =>
      have := he.2
      rw [haccepted] at this
      cases this
  | fallback handler outcome uuid t client inFlight outputs credential hmem hrejected =>
      have := he.2
      simp [PostOutcome.accepted, hrejected] at this

private theorem freshOks_of_run {key : String} {rid : Nat} {p p' : Process} {tr : List Obs}
    {es : List Event} (h : For key rid p) (haccepts : ∃ e ∈ es, e.Accepts rid)
    (hrun : run Process.step p es = some (p', tr)) : freshOks key tr ≠ [] := by
  obtain ⟨e, he, haccept⟩ := haccepts
  obtain ⟨es₁, es₂, rfl⟩ := List.append_of_mem he
  obtain ⟨p₁, tr₁, tr₂, hrun₁, hrun₂, rfl⟩ := run_append_iff.mp hrun
  obtain ⟨p₂, obs, tr₃, hstep, -, rfl⟩ := run_cons_iff.mp hrun₂
  have hfor : For key rid p₁ := run_state_invariant (fun _ _ _ _ h hs => step_for h hs) h hrun₁
  have hfresh := freshOks_of_accepts hfor haccept hstep
  intro hnil
  rw [freshOks_append, freshOks_append] at hnil
  exact hfresh (List.append_eq_nil_iff.mp (List.append_eq_nil_iff.mp hnil).2).1

private theorem for_of_mem {key : String} {p : Process} (hp : p.WellNamed) {h : Handler}
    (hmem : h ∈ p.waiting) (hkey : h.request.key = key) : For key h.rid p where
  seen := hp.named h hmem
  waiting := by
    intro h' hmem' hrid
    rw [hp.eq_of_rid hmem' hmem hrid]
    exact hkey

/-- Two handlers that race give out two fresh 200s. -/
private theorem no_race_of_atMostOnce {settings : Settings} {manager : CredentialManager}
    {key : String} {es : List Event} {p : Process} {tr : List Obs}
    (hrun : run Process.step (Process.start settings manager) es = some (p, tr))
    (honce : AtMostOnce key tr) :
    EveryEvent Process.step (fun _ p e rest => ¬ Races key p e rest)
      (Process.start settings manager) es := by
  intro past e rest p₁ tr₁ hes hrun₁ hraces
  subst hes
  obtain ⟨h, hmem, h', hmem', hkey, hkey', hne, haccept, hlater⟩ := hraces
  obtain ⟨p₁', tr₁', tr₂, hrun₁', hrun₂, rfl⟩ := run_append_iff.mp hrun
  obtain ⟨rfl, rfl⟩ : p₁ = p₁' ∧ tr₁ = tr₁' := by simpa using hrun₁.symm.trans hrun₁'
  obtain ⟨p₂, obs, tr₃, hstep, hrest, rfl⟩ := run_cons_iff.mp hrun₂
  have hnamed : p₁.WellNamed :=
    run_state_invariant (fun _ _ _ _ h hs => step_wellNamed h hs)
      (Process.start_wellNamed settings manager) hrun₁
  have hfirst := freshOks_of_accepts (for_of_mem hnamed hmem hkey) haccept hstep
  have hsecond := freshOks_of_run (step_for (for_of_mem hnamed hmem' hkey') hstep) hlater hrest
  have hatmost := honce.1
  have hpos := List.length_pos_iff.mpr hfirst
  have hpos' := List.length_pos_iff.mpr hsecond
  rw [freshOks_append, freshOks_append, List.length_append, List.length_append] at hatmost
  omega

/-- Once `key` is cached, no handler of it that is suspended gets an accepted answer. -/
private def Settled (key : String) (p : Process) (es : List Event) : Prop :=
  key ∈ p.connector.idempotencyCache → ∀ h ∈ p.waiting, h.request.key = key →
    ∀ e ∈ es, ¬ e.Accepts h.rid

private theorem Settled.of_subset {key : String} {p p' : Process} {e : Event} {es : List Event}
    (h : Settled key p (e :: es)) (hwaiting : ∀ h ∈ p'.waiting, h ∈ p.waiting)
    (hcache : key ∈ p'.connector.idempotencyCache → key ∈ p.connector.idempotencyCache) :
    Settled key p' es :=
  fun hin h' hmem hkey e' he' =>
    h (hcache hin) h' (hwaiting h' hmem) hkey e' (List.mem_cons_of_mem e he')

/-- A lookup that misses is settled by the miss; a store settles its key because the other
handlers of the key do not race with it. -/
private theorem step_settled {key : String} {p p' : Process} {obs : List Obs} {e : Event}
    {es : List Event} (h : Settled key p (e :: es)) (hrace : ¬ Races key p e es)
    (hstep : p.step e = some (p', obs)) : Settled key p' es := by
  cases step_spec hstep with
  | load => exact h.of_subset (fun _ hmem => hmem) id
  | refused => exact h.of_subset (fun _ hmem => hmem) id
  | raised => exact h.of_subset (fun _ hmem => hmem) id
  | replayed rid request =>
      refine h.of_subset (fun _ hmem => hmem) ?_
      intro hin
      rwa [OrderedDict.mem_moveToEnd] at hin
  | posting rid request t manager client primary hseen haccepted hmanager hvalid hmiss =>
      intro hin h' hmem hkey e' he'
      rcases List.mem_append.mp hmem with hold | hnew
      · exact h hin h' hold hkey e' (List.mem_cons_of_mem _ he')
      · rw [List.mem_singleton.mp hnew] at hkey
        have hmissed : ¬ request.key ∈ p.connector.idempotencyCache := by
          rw [← OrderedDict.get?_eq_none_iff]
          exact hmiss
        have hown : request.key = key := hkey
        exact absurd hin (hown ▸ hmissed)
  | stored handler outcome uuid t client inFlight outputs body response hmem haccepted =>
      intro hin h' hmem' hkey e' he' haccept
      obtain ⟨hold, hne⟩ := mem_filter_rid hmem'
      rcases mem_storeIdempotency hin with hown | hcached
      · exact hrace ⟨handler, hmem, h', hold, hown.symm, hkey, fun hrid => hne hrid.symm,
          ⟨rfl, haccepted⟩, e', he', haccept⟩
      · exact h hcached h' hold hkey e' (List.mem_cons_of_mem _ he') haccept
  | failed handler => exact h.of_subset (fun _ hmem => (mem_filter_rid hmem).1) id
  | fallback handler outcome uuid t client inFlight outputs credential hmem =>
      intro hin h' hmem' hkey e' he'
      rcases List.mem_append.mp hmem' with hold | hnew
      · exact h hin h' (mem_filter_rid hold).1 hkey e' (List.mem_cons_of_mem _ he')
      · rw [List.mem_singleton.mp hnew] at hkey ⊢
        exact h hin handler hmem hkey e' (List.mem_cons_of_mem _ he')

private theorem not_overwrites_of_settled {key : String} {p : Process} {e : Event}
    {es : List Event} (h : Settled key p (e :: es)) : ¬ Overwrites key p e := by
  intro hover
  cases e with
  | load read t => exact hover
  | request rid request t => exact hover
  | answer rid outcome uuid t =>
      obtain ⟨haccepted, hin, handler, hmem, hrid, hkey⟩ := hover
      exact h hin handler hmem hkey _ List.mem_cons_self ⟨hrid.symm, haccepted⟩

/-- Where no two handlers of `key` race, no entry of `key` is overwritten. -/
private theorem along_of_no_race {key : String} {es : List Event} :
    ∀ {p : Process}, Settled key p es →
      EveryEvent Process.step (fun _ p e rest => ¬ Races key p e rest) p es →
      Along Process.step (fun p e => ¬ Overwrites key p e) p es := by
  induction es with
  | nil => exact fun _ _ => trivial
  | cons e es ih =>
      intro p hsettled hraces
      obtain ⟨hrace, hrest⟩ := everyEvent_cons_iff.mp hraces
      refine ⟨not_overwrites_of_settled hsettled, ?_⟩
      intro p₁ obs hstep
      exact ih (step_settled hsettled hrace hstep) (hrest p₁ obs hstep)

/-- In every run that evicts no entry of `key`, at most one POST for `key`
becomes a 200 and all its 200s agree, exactly when no two handlers of `key` that
are suspended together both get an accepted answer. -/
theorem atMostOnce_iff (settings : Settings) (manager : CredentialManager) (key : String)
    (es : List Event) (p : Process) (tr : List Obs)
    (hrun : run Process.step (Process.start settings manager) es = some (p, tr))
    (hkept : ¬ .evicted key ∈ tr) :
    AtMostOnce key tr ↔
      EveryEvent Process.step (fun _ p e rest => ¬ Races key p e rest)
        (Process.start settings manager) es := by
  constructor
  · exact no_race_of_atMostOnce hrun
  · intro hraces
    rw [atMostOnce_iff_along hrun hkept]
    exact along_of_no_race (fun hin => absurd hin (OrderedDict.not_mem_empty key)) hraces

instance (key : String) (tr : List Obs) : Decidable (AtMostOnce key tr) :=
  inferInstanceAs (Decidable (_ ∧ _))

/-- A request and its retry after the answer do not race and are charged once. -/
theorem atMostOnce_iff_sequential :
    ∃ p tr, run Process.step sampleProcess sequentialRun = some (p, tr) ∧
      AtMostOnce "idem-001" tr ∧
        EveryEvent Process.step (fun _ p e rest => ¬ Races "idem-001" p e rest) sampleProcess
          sequentialRun := by
  have hrun : ∃ p tr, run Process.step sampleProcess sequentialRun = some (p, tr) ∧
      (¬ .evicted "idem-001" ∈ tr ∧ AtMostOnce "idem-001" tr) := exists_run (by decide +kernel)
  obtain ⟨p, tr, hrun, hkept, honce⟩ := hrun
  exact ⟨p, tr, hrun, honce,
    (atMostOnce_iff sampleSettings sampleManager "idem-001" sequentialRun p tr hrun hkept).mp
      honce⟩

/-- Two requests for one key, both suspended at the gateway before the first
answer arrives. -/
def concurrentRun : List Event :=
  [.request 1 sampleRequest (.at 1), .request 2 sampleRequest (.at 2),
    .answer 1 (answerWith 200 "txn-1") "uuid-1" (.at 3),
    .answer 2 (answerWith 200 "txn-2") "uuid-2" (.at 4)]

/-- The two concurrent requests are charged twice. -/
theorem not_atMostOnce_concurrent :
    ∃ p tr, run Process.step sampleProcess concurrentRun = some (p, tr) ∧
      ¬ .evicted "idem-001" ∈ tr ∧ ¬ AtMostOnce "idem-001" tr := by
  have hrun : ∃ p tr, run Process.step sampleProcess concurrentRun = some (p, tr) ∧
      (¬ .evicted "idem-001" ∈ tr ∧ ¬ AtMostOnce "idem-001" tr) :=
    exists_run (by decide +kernel)
  exact hrun

/-! ## Handlers that do not overlap -/

/-- A request for `key` arrives while a handler for `key` is suspended. -/
def Overlaps (key : String) (p : Process) : Event → Prop
  | .request _ request _ => request.key = key ∧ ∃ h ∈ p.waiting, h.request.key = key
  | _ => False

/-- There is at most one suspended handler for `key`. -/
def Exclusive (key : String) (p : Process) : Prop :=
  ∀ h ∈ p.waiting, ∀ h' ∈ p.waiting, h.request.key = key → h'.request.key = key → h = h'

private theorem Exclusive.of_subset {key : String} {p p' : Process} (hp : Exclusive key p)
    (hwaiting : ∀ h ∈ p'.waiting, h ∈ p.waiting) : Exclusive key p' :=
  fun h hmem h' hmem' => hp h (hwaiting h hmem) h' (hwaiting h' hmem')

/-- A handler that suspends is the only one of its key, if those that stay are of others. -/
private theorem Exclusive.suspend {key : String} {p p' : Process} {rest : List Handler}
    {h₀ : Handler} (hp : Exclusive key p) (hwaiting : p'.waiting = rest ++ [h₀])
    (hrest : ∀ h ∈ rest, h ∈ p.waiting)
    (hnew : h₀.request.key = key → ∀ h ∈ rest, h.request.key ≠ key) : Exclusive key p' := by
  intro h hmem h' hmem' hkey hkey'
  rw [hwaiting] at hmem hmem'
  rcases List.mem_append.mp hmem with hold | hlast
  · rcases List.mem_append.mp hmem' with hold' | hlast'
    · exact hp h (hrest h hold) h' (hrest h' hold') hkey hkey'
    · rw [List.mem_singleton.mp hlast'] at hkey'
      exact absurd hkey (hnew hkey' h hold)
  · rcases List.mem_append.mp hmem' with hold' | hlast'
    · rw [List.mem_singleton.mp hlast] at hkey
      exact absurd hkey' (hnew hkey h' hold')
    · rw [List.mem_singleton.mp hlast, List.mem_singleton.mp hlast']

/-- Without overlap a suspended handler stays the only one of its key. -/
private theorem step_exclusive {key : String} {p p' : Process} {obs : List Obs} {e : Event}
    (hp : Exclusive key p) (hC : ¬ Overlaps key p e) (hstep : p.step e = some (p', obs)) :
    Exclusive key p' := by
  cases step_spec hstep with
  | load => exact hp.of_subset (fun _ hmem => hmem)
  | refused => exact hp.of_subset (fun _ hmem => hmem)
  | raised => exact hp.of_subset (fun _ hmem => hmem)
  | replayed => exact hp.of_subset (fun _ hmem => hmem)
  | posting rid request =>
      exact hp.suspend rfl (fun _ hmem => hmem)
        (fun hreq h hmem hkey => hC ⟨hreq, h, hmem, hkey⟩)
  | stored handler => exact hp.of_subset (fun _ hmem => (mem_filter_rid hmem).1)
  | failed handler => exact hp.of_subset (fun _ hmem => (mem_filter_rid hmem).1)
  | fallback handler outcome uuid t client inFlight outputs credential hmem =>
      refine hp.suspend rfl (fun _ hin => (mem_filter_rid hin).1) ?_
      intro hreq h hin hkey
      obtain ⟨hold, hne⟩ := mem_filter_rid hin
      exact hne (by rw [hp h hold handler hmem hkey hreq])

/-- If no request for `key` arrives while a handler for `key` is suspended,
`key` is charged at most once, whatever the gateway answers. -/
theorem atMostOnce_of_no_overlap (settings : Settings) (manager : CredentialManager)
    (key : String) (es : List Event) (p : Process) (tr : List Obs)
    (hrun : run Process.step (Process.start settings manager) es = some (p, tr))
    (hkept : ¬ .evicted key ∈ tr)
    (halong : Along Process.step (fun p e => ¬ Overlaps key p e)
      (Process.start settings manager) es) : AtMostOnce key tr := by
  rw [atMostOnce_iff_along hrun hkept]
  refine along_of_no_race (fun hin => absurd hin (OrderedDict.not_mem_empty key)) ?_
  have hinit : Exclusive key (Process.start settings manager) := fun h hmem => by cases hmem
  intro past e rest p₁ tr₁ hes hrun₁ hraces
  subst hes
  have hexclusive : Exclusive key p₁ :=
    run_invariant_along (I := fun p _ => Exclusive key p)
      (fun _ _ _ _ _ hI hC hs => step_exclusive hI hC hs) hinit (along_of_append halong) hrun₁
  obtain ⟨h, hmem, h', hmem', hkey, hkey', hne, -⟩ := hraces
  exact hne (by rw [hexclusive h hmem h' hmem' hkey hkey'])

end PaymentConnector
