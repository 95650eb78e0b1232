import PaymentConnector.RateLimit

/-!
# A bucket of one's own

As long as the requests come from 10,000 addresses at most no bucket is ever
evicted, and then the shared map behaves as if every client had a bucket that
nobody else touches: what a client is answered is a function of the times of
its own requests.  The reading at which a bucket is created does not matter, since a new
bucket is full.

## Main results

* `TokenBucket.alone` — the limiter for one client, stated without the map.
* `run_alone` — below the cap the middleware refines it, client by client.
* `limited_alike` — two runs with the same requests of a client answer them alike.
-/

namespace PaymentConnector

open Library Library.Machine

/-! ## One client alone -/

namespace TokenBucket

/-- How `dispatch` goes on, from what `consume` returned. -/
def answer (consumed : Bool) : Dispatch :=
  if consumed then .callNext else .response 429 "Rate limit exceeded"

/-- The bucket that a client left, or a new one, as it is drawn on at `now`. -/
def draw (bucket : Option TokenBucket) (now : Rat) : Bool × TokenBucket :=
  (bucket.getD (.new rateLimitRequestsPerSecond rateLimitRequestsPerSecond now)).consume 1 now

/-- One client alone with one bucket: the bucket after requests at the given
times, and the answers to them. -/
def alone (times : List Rat) : Option TokenBucket × List (Rat × Dispatch) :=
  times.foldl (fun q now => (some (draw q.1 now).2, q.2 ++ [(now, answer (draw q.1 now).1)]))
    (none, [])

theorem alone_concat (times : List Rat) (now : Rat) :
    alone (times ++ [now]) =
      (some (draw (alone times).1 now).2,
        (alone times).2 ++ [(now, answer (draw (alone times).1 now).1)]) := by
  rw [alone, List.foldl_append]
  rfl

/-- A new bucket is full whenever it was created. -/
theorem consume_new_eq {rate capacity created now : Rat} (hrate : 0 ≤ rate)
    (hlater : created ≤ now) :
    (new rate capacity created).consume 1 now = (new rate capacity now).consume 1 now := by
  have hfull : ∀ created', created' ≤ now →
      (new rate capacity created').refilled now = capacity := by
    intro created' hle
    have hrefill : 0 ≤ (now - created') * rate := mul_nonneg (sub_nonneg.mpr hle) hrate
    apply min_eq_left
    show capacity ≤ capacity + (now - created') * rate
    linarith
  unfold consume
  rw [hfull created hlater, hfull now (le_refl now)]
  rfl

end TokenBucket

/-! ## What a client sends and is answered -/

/-- The answer to a request of the client, with its time. -/
def LimiterObs.answer? (clientIp : String) : LimiterObs → Option (Rat × Dispatch)
  | .dispatched ip now dispatch => if ip = clientIp then some (now, dispatch) else none
  | _ => none

/-- The answers to the requests of the client. -/
def answersTo (clientIp : String) (tr : List LimiterObs) : List (Rat × Dispatch) :=
  tr.filterMap (LimiterObs.answer? clientIp)

/-- The times of the requests of the client. -/
def timesOf (clientIp : String) (as : List Arrival) : List Rat :=
  (as.filter (fun a => a.clientIp = clientIp)).map Arrival.now

theorem timesOf_concat (clientIp : String) (as : List Arrival) (a : Arrival) :
    timesOf clientIp (as ++ [a]) =
      timesOf clientIp as ++ if a.clientIp = clientIp then [a.now] else [] := by
  unfold timesOf
  rw [List.filter_append, List.map_append]
  by_cases h : a.clientIp = clientIp
  · simp [h]
  · simp [h]

namespace Limiter

variable {clientIp : String} {l l' : Limiter} {tr obs : List LimiterObs}

/-- A step shows the answer to its own request only. -/
theorem answersTo_step {a : Arrival} (hstep : l.step a = some (l', obs)) :
    answersTo clientIp obs =
      if a.clientIp = clientIp then
        [(a.now, TokenBucket.answer
          ((l.middleware.bucketFor a.clientIp a.created).consume 1 a.now).1)]
      else [] := by
  obtain ⟨-, -, rfl⟩ := step_eq hstep
  have houtputs : ∀ outputs : List Output, answersTo clientIp (outputs.map .output) = [] := by
    intro outputs
    rw [answersTo, List.filterMap_map, List.filterMap_eq_nil_iff]
    exact fun _ _ => rfl
  have hevicted : ∀ keys : List String,
      answersTo clientIp (keys.map (fun key => .evicted key a.now)) = [] := by
    intro keys
    rw [answersTo, List.filterMap_map, List.filterMap_eq_nil_iff]
    exact fun _ _ => rfl
  unfold answersTo at houtputs hevicted ⊢
  rw [List.filterMap_append, houtputs, List.filterMap_append, hevicted]
  by_cases hown : a.clientIp = clientIp
  · simp [hown, LimiterObs.answer?, TokenBucket.answer]
  · simp [hown, LimiterObs.answer?]

/-- What the client's bucket and answers are, as long as nothing is evicted. -/
def Alone (clientIp : String) (as : List Arrival) (l : Limiter) (tr : List LimiterObs) : Prop :=
  (l.bucket? clientIp, answersTo clientIp tr) = TokenBucket.alone (timesOf clientIp as)

theorem start_alone (clock : Rat) (clientIp : String) : Alone clientIp [] (start clock) [] := rfl

private theorem step_alone {as : List Arrival} {a : Arrival} (hkeeps : l.Keeps as)
    (hfew : ((as ++ [a]).map Arrival.clientIp).toFinset.card ≤ maxRateLimitEntries)
    (h : Alone clientIp as l tr) (hstep : l.step a = some (l', obs)) :
    Alone clientIp (as ++ [a]) l' (tr ++ obs) := by
  have hanswers : answersTo clientIp (tr ++ obs) =
      answersTo clientIp tr ++ answersTo clientIp obs :=
    List.filterMap_append
  unfold Alone at h ⊢
  rw [hanswers, answersTo_step hstep, timesOf_concat]
  by_cases hown : a.clientIp = clientIp
  · subst hown
    obtain ⟨hclock, -, -⟩ := step_eq hstep
    have hdraw : (l.middleware.bucketFor a.clientIp a.created).consume 1 a.now =
        TokenBucket.draw (l.bucket? a.clientIp) a.now := by
      unfold RateLimitMiddleware.bucketFor TokenBucket.draw bucket?
      cases l.middleware.buckets.get? a.clientIp with
      | some b => rfl
      | none => exact TokenBucket.consume_new_eq (by decide +kernel) hclock.2
    rw [(step_own hkeeps.bounded hstep 0 0).1, hdraw, if_pos rfl, if_pos rfl,
      TokenBucket.alone_concat, ← h]
  · have hkept : l'.bucket? clientIp = l.bucket? clientIp := by
      have hne : clientIp ≠ a.clientIp := fun heq => hown heq.symm
      rw [step_other_bucket hstep hne, if_neg]
      intro hin
      have hevicted : .evicted clientIp a.now ∈ obs := by
        rw [(step_eq hstep).2.2]
        exact List.mem_append_right _ (List.mem_append_left _ (List.mem_map.mpr ⟨_, hin, rfl⟩))
      exact hkeeps.not_evicted hstep hfew hevicted
    rw [if_neg hown, if_neg hown, List.append_nil, List.append_nil, hkept]
    exact h

/-- Below the cap every client is answered as if it were alone. -/
theorem run_alone {clock : Rat} {as : List Arrival}
    (hrun : run step (start clock) as = some (l, tr))
    (hfew : (as.map Arrival.clientIp).toFinset.card ≤ maxRateLimitEntries) (clientIp : String) :
    Alone clientIp as l tr := by
  have hinv : l.Keeps as ∧
      ((as.map Arrival.clientIp).toFinset.card ≤ maxRateLimitEntries →
        Alone clientIp as l tr) := by
    refine run_history_invariant (I := fun as l tr => l.Keeps as ∧
      ((as.map Arrival.clientIp).toFinset.card ≤ maxRateLimitEntries →
        Alone clientIp as l tr)) ?_ ⟨start_keeps clock, fun _ => start_alone clock clientIp⟩ hrun
    intro as l tr a l' obs _ h hs
    refine ⟨step_keeps h.1 hs, ?_⟩
    intro hfew
    have hfewer : (as.map Arrival.clientIp).toFinset.card ≤ maxRateLimitEntries := by
      refine le_trans (Finset.card_le_card ?_) hfew
      rw [List.map_append, List.toFinset_append]
      exact Finset.subset_union_left
    exact step_alone h.1 hfew (h.2 hfewer) hs
  exact hinv.2 hfew

/-- Two runs at non-decreasing times, with 10,000 client addresses at most
each, in which a client sends its requests at the same times: whatever the
other clients send, the same requests of the client are admitted in both. -/
theorem limited_alike (clock₁ clock₂ : Rat) (as bs : List Arrival) (l₁ l₂ : Limiter)
    (tr₁ tr₂ : List LimiterObs)
    (hrun₁ : run step (start clock₁) as = some (l₁, tr₁))
    (hrun₂ : run step (start clock₂) bs = some (l₂, tr₂))
    (hfew₁ : (as.map Arrival.clientIp).toFinset.card ≤ 10000)
    (hfew₂ : (bs.map Arrival.clientIp).toFinset.card ≤ 10000)
    (clientIp : String) (hsame : timesOf clientIp as = timesOf clientIp bs) :
    answersTo clientIp tr₁ = answersTo clientIp tr₂ := by
  have halone₁ := run_alone hrun₁ hfew₁ clientIp
  have halone₂ := run_alone hrun₂ hfew₂ clientIp
  unfold Alone at halone₁ halone₂
  rw [← hsame, ← halone₁, Prod.mk.injEq] at halone₂
  exact halone₂.2.symm

/-- A client that sends 101 requests at once. -/
def burst : List Arrival := (List.replicate 101 "10.0.0.1").map arrivalAtZero

/-- The same requests, with those of two neighbours among them. -/
def sharedBurst : List Arrival :=
  (["10.0.0.2", "10.0.0.1"] ++ List.replicate 100 "10.0.0.1" ++ ["10.0.0.3"]).map arrivalAtZero

theorem limited_alike_burst :
    ∃ l₁ tr₁ l₂ tr₂, run step (start 0) burst = some (l₁, tr₁) ∧
      run step (start 0) sharedBurst = some (l₂, tr₂) ∧
        answersTo "10.0.0.1" tr₁ = answersTo "10.0.0.1" tr₂ := by
  have hrun₁ : ∃ l tr, run step (start 0) burst = some (l, tr) ∧ True :=
    exists_run (by decide +kernel)
  have hrun₂ : ∃ l tr, run step (start 0) sharedBurst = some (l, tr) ∧ True :=
    exists_run (by decide +kernel)
  obtain ⟨l₁, tr₁, hrun₁, -⟩ := hrun₁
  obtain ⟨l₂, tr₂, hrun₂, -⟩ := hrun₂
  exact ⟨l₁, tr₁, l₂, tr₂, hrun₁, hrun₂,
    limited_alike 0 0 burst sharedBurst l₁ l₂ tr₁ tr₂ hrun₁ hrun₂ (by decide +kernel)
      (by decide +kernel) "10.0.0.1" (by decide +kernel)⟩

end Limiter

end PaymentConnector
