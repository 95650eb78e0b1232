import PaymentConnector.Responses

/-!
# What the service keeps

The connector runs for months behind any traffic, so what it keeps must not grow with it.  The
idempotency cache, the buckets of the rate limiter and the credential cache are cut off at
their limits by the operation that extends them, and everything else belongs to a request that
is on its way.

## Main results

* `Service.step_bounded` — every step keeps the limits.
* `Service.boundedMemory` — they hold after every run, and the rest is counted by the requests
  received and not yet answered.
-/

namespace PaymentConnector

open Library Library.Machine

/-! ## The operations -/

theorem length_storeIdempotency_le (key : String) (response : PaymentResponse)
    (cache : OrderedDict String PaymentResponse) :
    (storeIdempotency key response cache).1.length ≤ idempotencyCacheMaxSize := by
  show (OrderedDict.evictOver idempotencyCacheMaxSize (cache.set key response)).length ≤ _
  rw [OrderedDict.length_evictOver]
  omega

theorem CredentialManager.length_cache_le {path : String} {m m' : CredentialManager}
    {read : VaultRead} {t : LoadReadings} {result : Bool} {outputs : List Output}
    (hm : m.cache.length ≤ maxCacheSize)
    (hload : m.loadCredentials path read t = (result, m', outputs)) :
    m'.cache.length ≤ maxCacheSize := by
  have hspec := loadCredentials_spec path m read t
  have hkept : (m.loadCredentials path read t).2.1.cache.length ≤ maxCacheSize := by
    generalize m.loadCredentials path read t = r at hspec
    cases hspec with
    | failed => exact hm
    | unchanged secret t =>
        show (m.updateAgeMetric t.age).cache.length ≤ maxCacheSize
        rw [updateAgeMetric_cache]
        exact hm
    | installed secret t credential =>
        rw [loadInstalled_cache, OrderedDict.length_evictOver]
        omega
  rw [hload] at hkept
  exact hkept

theorem RateLimitMiddleware.length_buckets_le {m : RateLimitMiddleware}
    (hm : m.buckets.length ≤ maxRateLimitEntries) (client : Option String) (created now : Rat) :
    (m.dispatch client created now).1.buckets.length ≤ maxRateLimitEntries := by
  have hkeys := getBucket_keys hm (client.getD "unknown") created
  have hmem := mem_getBucket hm (client.getD "unknown") created
  have hlength : (m.getBucket (client.getD "unknown") created).2.1.buckets.length ≤
      maxRateLimitEntries := by
    have huse := Lru.length_use_le maxRateLimitEntries m.buckets.keys (client.getD "unknown")
    rw [← hkeys, OrderedDict.keys, List.length_map] at huse
    exact huse
  rw [dispatch_eq rfl, OrderedDict.length_set, if_pos hmem]
  exact hlength

/-! ## The process -/

namespace Process

/-- The two caches within their limits. -/
structure Bounded (p : Process) : Prop where
  idempotency : p.connector.idempotencyCache.length ≤ idempotencyCacheMaxSize
  credentials : ∀ manager, p.connector.credentialManager = some manager →
    manager.cache.length ≤ maxCacheSize

theorem start_bounded (settings : Settings) : (start settings .init).Bounded where
  idempotency := Nat.zero_le _
  credentials := by
    intro manager heq
    cases heq
    exact Nat.zero_le _

theorem step_bounded {p p' : Process} {e : Event} {obs : List Obs} (h : p.Bounded)
    (hstep : p.step e = some (p', obs)) : p'.Bounded := by
  cases step_spec hstep with
  | load read t manager manager' result outputs hmanager hload =>
      refine ⟨h.idempotency, fun manager'' heq => ?_⟩
      cases heq
      exact CredentialManager.length_cache_le (h.credentials manager hmanager) hload
  | replayed rid request t manager cached =>
      refine ⟨?_, h.credentials⟩
      rw [OrderedDict.length_moveToEnd]
      exact h.idempotency
  | stored handler outcome uuid t client inFlight outputs body response =>
      exact ⟨length_storeIdempotency_le handler.request.key response _, h.credentials⟩
  | refused => exact ⟨h.idempotency, h.credentials⟩
  | raised => exact ⟨h.idempotency, h.credentials⟩
  | posting => exact ⟨h.idempotency, h.credentials⟩
  | failed => exact ⟨h.idempotency, h.credentials⟩
  | fallback => exact ⟨h.idempotency, h.credentials⟩

end Process

/-! ## The service -/

namespace Service

/-- All caches within their limits. -/
structure Bounded (s : Service) : Prop where
  process : s.process.Bounded
  buckets : s.rateLimit.buckets.length ≤ maxRateLimitEntries

variable {s s' : Service} {e : ServiceEvent} {es : List ServiceEvent} {tr obs : List ServiceObs}

theorem step_bounded (h : s.Bounded) (hstep : s.step e = some (s', obs)) : s'.Bounded := by
  cases step_cases hstep with
  | loaded env t read process obs hread hload =>
      exact ⟨Process.step_bounded h.process hload, h.buckets⟩
  | admitted rid created now call =>
      exact ⟨h.process, RateLimitMiddleware.length_buckets_le h.buckets _ created now⟩
  | limited rid created now call =>
      exact ⟨h.process, RateLimitMiddleware.length_buckets_le h.buckets _ created now⟩
  | authorizing rid vault t call payment process obs hcall hstage hroute hrequest =>
      exact ⟨Process.step_bounded h.process hrequest, h.buckets⟩
  | resumed rid outcome uuid t process obs hanswer =>
      exact ⟨Process.step_bounded h.process hanswer, h.buckets⟩
  | received => exact ⟨h.process, h.buckets⟩
  | answeredAtOnce => exact ⟨h.process, h.buckets⟩
  | probing => exact ⟨h.process, h.buckets⟩
  | probed => exact ⟨h.process, h.buckets⟩
  | responded => exact ⟨h.process, h.buckets⟩

/-! ### Requests on their way -/

/-- A suspended handler belongs to a request on its way, each to another one. -/
theorem waiting_le_calls (hconsistent : s.Consistent) (hnamed : s.process.WellNamed) :
    s.process.waiting.length ≤ s.calls.length := by
  have hsubset : s.process.waiting.map Handler.rid ⊆ s.calls.map HttpCall.rid := by
    intro rid hin
    obtain ⟨handler, hmem, rfl⟩ := List.mem_map.mp hin
    obtain ⟨call, hcall, -⟩ := hconsistent.handling handler hmem
    exact List.mem_map.mpr ⟨call, call?_mem hcall, s.call?_rid hcall⟩
  have hle := (hnamed.distinct.subperm hsubset).length_le
  rw [List.length_map, List.length_map] at hle
  exact hle

/-- The requests on their way are those received and not answered. -/
def OpenRequests (es : List ServiceEvent) (s : Service) (tr : List ServiceObs) : Prop :=
  s.calls.length + (tr.filterMap ServiceObs.respondedRid?).length =
    (es.filterMap ServiceEvent.receivedRid?).length

private theorem length_setStage (s : Service) (rid : Nat) (stage : CallStage) :
    (s.setStage rid stage).calls.length = s.calls.length := List.length_map _

/-- A step that neither receives nor answers. -/
private theorem OpenRequests.of_silent (h : OpenRequests es s tr)
    (hlength : s'.calls.length = s.calls.length) (hevent : e.receivedRid? = none)
    (hsilent : obs.filterMap ServiceObs.respondedRid? = []) :
    OpenRequests (es ++ [e]) s' (tr ++ obs) := by
  have hes : (es ++ [e]).filterMap ServiceEvent.receivedRid? =
      es.filterMap ServiceEvent.receivedRid? := by
    rw [List.filterMap_append, List.filterMap_cons_none hevent]
    exact List.append_nil _
  rw [OpenRequests, hes, List.filterMap_append, hsilent, List.append_nil, hlength]
  exact h

theorem OpenRequests.step (h : OpenRequests es s tr) (hserved : Served es s tr)
    (hstep : s.step e = some (s', obs)) : OpenRequests (es ++ [e]) s' (tr ++ obs) := by
  cases step_cases hstep with
  | loaded env t read process obs hread hload =>
      refine h.of_silent rfl rfl ?_
      simp only [List.filterMap_append, respondedRid?_outputs, respondedRid?_process,
        respondedRid?_refreshSleep, List.append_nil]
  | received rid request uuid now =>
      rw [OpenRequests] at h
      rw [OpenRequests, List.append_nil, List.filterMap_append, List.length_append,
        List.length_append, ← h]
      show s.calls.length + 1 + _ = _ + 1
      omega
  | admitted rid created now call =>
      exact h.of_silent (length_setStage _ _ _) rfl (respondedRid?_outputs _)
  | limited rid created now call =>
      exact h.of_silent (length_setStage _ _ _) rfl (respondedRid?_outputs _)
  | authorizing rid vault t call payment process obs =>
      exact h.of_silent (length_setStage _ _ _) rfl (respondedRid?_process _)
  | answeredAtOnce rid vault t call answer =>
      exact h.of_silent (length_setStage _ _ _) rfl rfl
  | probing rid vault t call =>
      exact h.of_silent (length_setStage _ _ _) rfl (respondedRid?_outputs _)
  | resumed rid outcome uuid t process obs =>
      exact h.of_silent (length_setStage _ _ _) rfl (respondedRid?_process _)
  | probed rid statusCode now call vaultConnected credStatus =>
      exact h.of_silent (length_setStage _ _ _) rfl (respondedRid?_outputs _)
  | responded rid now call answer hcall =>
      have hmem : rid ∈ s.calls.map HttpCall.rid :=
        List.mem_map.mpr ⟨call, call?_mem hcall, s.call?_rid hcall⟩
      have herase : (s.calls.filter fun call => call.rid ≠ rid).map HttpCall.rid =
          (s.calls.map HttpCall.rid).erase rid := by
        rw [hserved.distinct.erase_eq_filter, List.filter_map]
        refine congrArg (List.map HttpCall.rid) (List.filter_congr fun call' _ => ?_)
        exact Bool.eq_iff_iff.mpr (by simp)
      have hlength := congrArg List.length herase
      rw [List.length_map, List.length_erase_of_mem hmem, List.length_map] at hlength
      have hpos : 0 < s.calls.length := List.length_pos_of_mem (call?_mem hcall)
      rw [OpenRequests] at h
      rw [OpenRequests, List.filterMap_append, List.length_append, respondedRid?_respond,
        List.filterMap_append, List.length_append, ← h, hlength]
      show s.calls.length - 1 + (_ + 1) = _ + 0
      omega

/-- For every schedule of any traffic and any loads: the idempotency cache holds at most 10,000
responses, the rate limiter at most 10,000 buckets and the manager at most five credentials;
there are at most as many suspended handlers as requests on their way, and these are as many as
were received and not yet answered. -/
theorem boundedMemory (settings : Settings) (now : Rat) (es : List ServiceEvent) (s : Service)
    (tr : List ServiceObs) (hrun : run step (start settings now) es = some (s, tr)) :
    s.process.connector.idempotencyCache.length ≤ 10000 ∧
      s.rateLimit.buckets.length ≤ 10000 ∧
      (∀ manager, s.process.connector.credentialManager = some manager →
        manager.cache.length ≤ 5) ∧
      s.process.waiting.length ≤ s.calls.length ∧
      s.calls.length + (tr.filterMap ServiceObs.respondedRid?).length =
        (es.filterMap ServiceEvent.receivedRid?).length := by
  have hbounded : s.Bounded :=
    run_state_invariant (I := Bounded) (fun _ _ _ _ h hs => step_bounded h hs)
      ⟨Process.start_bounded settings, Nat.zero_le _⟩ hrun
  have hcounted : Served es s tr ∧ OpenRequests es s tr :=
    run_history_invariant (I := fun es s tr => Served es s tr ∧ OpenRequests es s tr)
      (fun _ _ _ _ _ _ _ h hs => ⟨h.1.step hs, h.2.step h.1 hs⟩)
      ⟨start_served settings now, rfl⟩ hrun
  obtain ⟨es', hprocess⟩ := run_process hrun
  have hnamed : s.process.WellNamed :=
    run_state_invariant (I := Process.WellNamed) (fun _ _ _ _ h hs => step_wellNamed h hs)
      (Process.start_wellNamed settings .init) hprocess
  exact ⟨hbounded.process.idempotency, hbounded.buckets, hbounded.process.credentials,
    waiting_le_calls hcounted.1.consistent hnamed, hcounted.2⟩

theorem boundedMemory_payment :
    ∃ s tr, run step (start sampleSettings 1) (paymentRun "key-a") = some (s, tr) ∧
      s.process.connector.idempotencyCache.length = 1 ∧
      s.process.connector.idempotencyCache.length ≤ 10000 ∧
      s.rateLimit.buckets.length ≤ 10000 ∧
      (∀ manager, s.process.connector.credentialManager = some manager →
        manager.cache.length ≤ 5) ∧
      s.process.waiting.length ≤ s.calls.length ∧
      s.calls.length + (tr.filterMap ServiceObs.respondedRid?).length =
        ((paymentRun "key-a").filterMap ServiceEvent.receivedRid?).length := by
  obtain ⟨s, tr, hrun, hkeys⟩ : ∃ s tr,
      run step (start sampleSettings 1) (paymentRun "key-a") = some (s, tr) ∧
        s.process.connector.idempotencyCache.length = 1 := exists_run (by decide +kernel)
  exact ⟨s, tr, hrun, hkeys, boundedMemory sampleSettings 1 (paymentRun "key-a") s tr hrun⟩

end Service

end PaymentConnector
