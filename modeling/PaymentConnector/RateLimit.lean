import Mathlib.Tactic.Linarith
import PaymentConnector.Audit
import PaymentConnector.Library.Lru
import PaymentConnector.Library.Machine

/-!
# The rate limiter

`RateLimitMiddleware` gives every client address a token bucket of 100 tokens,
refilled at 100 tokens per second, and keeps the buckets of the 10,000
addresses that sent a request last.  Clock readings are exact rationals and
part of the events.

Within a window the limiter admits of one client what a full bucket and the
refill allow, and one more bucket for every time the client's bucket was
evicted in the window: a client that comes back is given a full one.

## Main results

* `TokenBucket.Sound.consume` — one `consume` moves tokens and clock together.
* `Limiter.step_view` — what one request means for one client's bucket.
* `Limiter.rateLimited` — the bound over every window of every run.
-/

namespace PaymentConnector

open Library Library.Machine

/-! ## Token buckets -/

structure TokenBucket where
  rate : Rat
  capacity : Rat
  tokens : Rat
  lastRefill : Rat

namespace TokenBucket

/-- `__init__` at clock reading `now`. -/
def new (rate capacity now : Rat) : TokenBucket where
  rate := rate
  capacity := capacity
  tokens := capacity
  lastRefill := now

/-- The tokens after the refill of a `consume` at clock reading `now`. -/
def refilled (b : TokenBucket) (now : Rat) : Rat :=
  min b.capacity (b.tokens + (now - b.lastRefill) * b.rate)

/-- `consume` at clock reading `now`. -/
def consume (b : TokenBucket) (tokens now : Rat) : Bool × TokenBucket :=
  if tokens ≤ b.refilled now then
    (true, { b with tokens := b.refilled now - tokens, lastRefill := now })
  else
    (false, { b with tokens := b.refilled now, lastRefill := now })

end TokenBucket

/-! ## The middleware -/

def maxRateLimitEntries : Nat := 10000

def rateLimitRequestsPerSecond : Rat := 100

/-- The state of the middleware. -/
structure RateLimitMiddleware where
  buckets : OrderedDict String TokenBucket

/-- How `dispatch` goes on: to the rest of the application, or with an answer of
its own. -/
inductive Dispatch
  | callNext
  | response (statusCode : Nat) (detail : String)
  deriving DecidableEq

namespace RateLimitMiddleware

/-- `__init__`. -/
def init : RateLimitMiddleware where
  buckets := .empty

/-- `_get_bucket` at clock reading `now`, with the keys it evicts. -/
def getBucket (m : RateLimitMiddleware) (key : String) (now : Rat) :
    TokenBucket × RateLimitMiddleware × List String :=
  match m.buckets.get? key with
  | some bucket => (bucket, { buckets := m.buckets.moveToEnd key }, [])
  | none =>
      let bucket := TokenBucket.new rateLimitRequestsPerSecond rateLimitRequestsPerSecond now
      let buckets := m.buckets.set key bucket
      (bucket, { buckets := OrderedDict.evictOver maxRateLimitEntries buckets },
        OrderedDict.overflow maxRateLimitEntries buckets)

/-- `dispatch` up to its answer or to `call_next`, with the keys evicted.
`created` is the reading of a new bucket's clock, `now` that of `consume`. -/
def dispatch (m : RateLimitMiddleware) (client : Option String) (created now : Rat) :
    RateLimitMiddleware × Dispatch × List Output × List String :=
  let clientIp := client.getD "unknown"
  let (bucket, m, evicted) := m.getBucket clientIp created
  let (consumed, bucket) := bucket.consume 1 now
  -- The bucket is an object: what `consume` changes is seen through the map.
  let m := { m with buckets := m.buckets.set clientIp bucket }
  if !consumed then
    (m, .response 429 "Rate limit exceeded", [.log (.rateLimitExceeded clientIp)], evicted)
  else
    (m, .callNext, [], evicted)

end RateLimitMiddleware

/-! ## Runs -/

/-- A request, with the two clock readings that `dispatch` may take. -/
structure Arrival where
  client : Option String
  created : Rat
  now : Rat

/-- `request.client.host if request.client else "unknown"`. -/
def Arrival.clientIp (a : Arrival) : String := a.client.getD "unknown"

/-- The middleware and the last clock reading. -/
structure Limiter where
  middleware : RateLimitMiddleware
  clock : Rat

/-- What a request makes visible. -/
inductive LimiterObs
  | output (output : Output)
  | evicted (clientIp : String) (now : Rat)
  | dispatched (clientIp : String) (now : Rat) (dispatch : Dispatch)

namespace Limiter

/-- Before the first request. -/
def start (clock : Rat) : Limiter := ⟨.init, clock⟩

/-- One request, at clock readings that do not go back. -/
def step (l : Limiter) (a : Arrival) : Option (Limiter × List LimiterObs) :=
  if l.clock ≤ a.created ∧ a.created ≤ a.now then
    let (m, dispatch, outputs, evicted) := l.middleware.dispatch a.client a.created a.now
    some (⟨m, a.now⟩,
      outputs.map .output ++ (evicted.map (fun key => .evicted key a.now) ++
        [.dispatched a.clientIp a.now dispatch]))
  else none

end Limiter

/-- A request of `clientIp` admitted between `s` and `u`. -/
def LimiterObs.admits (clientIp : String) (s u : Rat) : LimiterObs → Bool
  | .dispatched ip now .callNext => ip = clientIp && s ≤ now && now ≤ u
  | _ => false

/-- An eviction of the bucket of `clientIp` between `s` and `u`. -/
def LimiterObs.evicts (clientIp : String) (s u : Rat) : LimiterObs → Bool
  | .evicted ip now => ip = clientIp && s ≤ now && now ≤ u
  | _ => false

/-- How many requests of `clientIp` were admitted between `s` and `u`. -/
def admittedIn (clientIp : String) (s u : Rat) (tr : List LimiterObs) : Nat :=
  tr.countP (LimiterObs.admits clientIp s u)

/-- How often the bucket of `clientIp` was evicted between `s` and `u`. -/
def evictionsIn (clientIp : String) (s u : Rat) (tr : List LimiterObs) : Nat :=
  tr.countP (LimiterObs.evicts clientIp s u)

/-! ## One bucket -/

namespace TokenBucket

/-- A bucket of the given rate and capacity, at or after its last refill. -/
structure Sound (b : TokenBucket) (rate capacity now : Rat) : Prop where
  rate_eq : b.rate = rate
  capacity_eq : b.capacity = capacity
  nonneg : 0 ≤ b.tokens
  le_capacity : b.tokens ≤ capacity
  refilled_before : b.lastRefill ≤ now

variable {b : TokenBucket} {rate capacity now later : Rat}

theorem new_sound (hcapacity : 0 ≤ capacity) : (new rate capacity now).Sound rate capacity now where
  rate_eq := rfl
  capacity_eq := rfl
  nonneg := hcapacity
  le_capacity := le_refl capacity
  refilled_before := le_refl now

theorem Sound.mono (h : b.Sound rate capacity now) (hlater : now ≤ later) :
    b.Sound rate capacity later where
  rate_eq := h.rate_eq
  capacity_eq := h.capacity_eq
  nonneg := h.nonneg
  le_capacity := h.le_capacity
  refilled_before := le_trans h.refilled_before hlater

@[simp] theorem consume_lastRefill (b : TokenBucket) (tokens now : Rat) :
    (b.consume tokens now).2.lastRefill = now := by
  unfold consume
  split <;> rfl

/-- What a call consumes is what the refill leaves less. -/
theorem consume_tokens (b : TokenBucket) (now : Rat) :
    (b.consume 1 now).2.tokens + (if (b.consume 1 now).1 then 1 else 0) = b.refilled now := by
  unfold consume
  split
  · simp
  · simp

theorem Sound.refilled_nonneg (h : b.Sound rate capacity now) (hrate : 0 ≤ rate) :
    0 ≤ b.refilled now := by
  have hrefill : 0 ≤ (now - b.lastRefill) * b.rate := by
    rw [h.rate_eq]
    exact mul_nonneg (sub_nonneg.mpr h.refilled_before) hrate
  have hcapacity : 0 ≤ b.capacity := by
    rw [h.capacity_eq]
    exact le_trans h.nonneg h.le_capacity
  have htokens := h.nonneg
  exact le_min hcapacity (by linarith)

/-- A call leaves the bucket sound. -/
theorem Sound.consume (h : b.Sound rate capacity now) (hrate : 0 ≤ rate) :
    (b.consume 1 now).2.Sound rate capacity now := by
  have hnonneg := h.refilled_nonneg hrate
  have hle : b.refilled now ≤ capacity := by
    rw [← h.capacity_eq]
    exact min_le_left _ _
  unfold TokenBucket.consume
  split
  · rename_i henough
    exact ⟨h.rate_eq, h.capacity_eq, by simpa using henough,
      by show b.refilled now - 1 ≤ capacity; linarith, le_refl now⟩
  · exact ⟨h.rate_eq, h.capacity_eq, hnonneg, hle, le_refl now⟩

/-- A call on a new bucket of at least one token is admitted. -/
theorem consume_new (hrate : 0 ≤ rate) (hcapacity : 1 ≤ capacity) (hlater : now ≤ later) :
    ((new rate capacity now).consume 1 later).1 = true ∧
      (new rate capacity now).refilled later = capacity := by
  have hrefill : 0 ≤ (later - now) * rate := mul_nonneg (sub_nonneg.mpr hlater) hrate
  have hfull : (new rate capacity now).refilled later = capacity := by
    apply min_eq_left
    show capacity ≤ capacity + (later - now) * rate
    linarith
  refine ⟨?_, hfull⟩
  unfold consume
  rw [hfull, if_pos hcapacity]

end TokenBucket

/-! ## One request -/

namespace RateLimitMiddleware

variable {m : RateLimitMiddleware}

/-- The bucket that a request of `key` draws on. -/
def bucketFor (m : RateLimitMiddleware) (key : String) (now : Rat) : TokenBucket :=
  (m.buckets.get? key).getD (.new rateLimitRequestsPerSecond rateLimitRequestsPerSecond now)

theorem maxRateLimitEntries_pos : 0 < maxRateLimitEntries := by
  rw [maxRateLimitEntries]
  omega

theorem getBucket_fst (m : RateLimitMiddleware) (key : String) (now : Rat) :
    (m.getBucket key now).1 = m.bucketFor key now := by
  unfold getBucket bucketFor
  cases m.buckets.get? key <;> rfl

theorem getBucket_keys (hbounded : m.buckets.length ≤ maxRateLimitEntries) (key : String)
    (now : Rat) :
    (m.getBucket key now).2.1.buckets.keys = Lru.use maxRateLimitEntries m.buckets.keys key := by
  unfold getBucket
  cases hget : m.buckets.get? key with
  | some bucket => exact Lru.keys_moveToEnd (OrderedDict.mem_of_get?_eq_some hget) hbounded
  | none => exact Lru.keys_evictOver_set _ ((OrderedDict.get?_eq_none_iff _ _).mp hget)

theorem mem_getBucket (hbounded : m.buckets.length ≤ maxRateLimitEntries) (key : String)
    (now : Rat) :
    key ∈ (m.getBucket key now).2.1.buckets := by
  rw [OrderedDict.mem_def, getBucket_keys hbounded key now]
  exact Lru.mem_use_self maxRateLimitEntries_pos _ _

/-- The other buckets stay, unless they are evicted. -/
theorem getBucket_get?_ne {key key' : String} (hne : key' ≠ key) (now : Rat) :
    (m.getBucket key now).2.1.buckets.get? key' =
      if key' ∈ (m.getBucket key now).2.2 then none else m.buckets.get? key' := by
  unfold getBucket
  cases m.buckets.get? key with
  | some bucket => simp
  | none =>
      show (OrderedDict.evictOver _ _).get? key' = _
      rw [OrderedDict.get?_evictOver, OrderedDict.get?_set_ne _ hne]

/-- What is evicted are buckets from before, each once, and never the one drawn
on. -/
theorem getBucket_evicted (hbounded : m.buckets.length ≤ maxRateLimitEntries) (key : String)
    (now : Rat) :
    (m.getBucket key now).2.2.Nodup ∧ ¬ key ∈ (m.getBucket key now).2.2 ∧
      ∀ key' ∈ (m.getBucket key now).2.2, key' ∈ m.buckets := by
  unfold getBucket
  cases m.buckets.get? key with
  | some bucket => exact ⟨List.nodup_nil, List.not_mem_nil, fun _ hin => by cases hin⟩
  | none =>
      dsimp only
      have hown := OrderedDict.not_mem_overflow_set_self maxRateLimitEntries_pos hbounded key
        (.new rateLimitRequestsPerSecond rateLimitRequestsPerSecond now)
      refine ⟨(OrderedDict.nodup _).sublist (List.take_sublist _ _), hown, ?_⟩
      intro key' hin
      rcases (OrderedDict.mem_set _ _ _ _).mp (List.mem_of_mem_take hin) with hnew | hold
      · rw [hnew] at hin
        exact absurd hin hown
      · exact hold

/-- The whole of `dispatch`, in terms of `getBucket` and `consume`. -/
theorem dispatch_eq {client : Option String} {key : String}
    (hkey : client.getD "unknown" = key) (m : RateLimitMiddleware) (created now : Rat) :
    m.dispatch client created now =
      ({ buckets := (m.getBucket key created).2.1.buckets.set key
          ((m.bucketFor key created).consume 1 now).2 },
        if ((m.bucketFor key created).consume 1 now).1 then .callNext
        else .response 429 "Rate limit exceeded",
        if ((m.bucketFor key created).consume 1 now).1 then []
        else [.log (.rateLimitExceeded key)],
        (m.getBucket key created).2.2) := by
  rw [← hkey, ← getBucket_fst]
  unfold dispatch
  dsimp only
  cases ((m.getBucket (client.getD "unknown") created).1.consume 1 now).1 <;> rfl

end RateLimitMiddleware

namespace Limiter

/-- The bucket of a client, if it has one. -/
def bucket? (l : Limiter) (clientIp : String) : Option TokenBucket :=
  l.middleware.buckets.get? clientIp

/-- The buckets are those of the clients that sent a request last. -/
def Keeps (as : List Arrival) (l : Limiter) : Prop :=
  l.middleware.buckets.keys = Lru.order maxRateLimitEntries [] (as.map Arrival.clientIp)

theorem Keeps.bounded {as : List Arrival} {l : Limiter} (h : l.Keeps as) :
    l.middleware.buckets.length ≤ maxRateLimitEntries := by
  rw [← OrderedDict.length_keys, h]
  exact Lru.length_order_le (Nat.zero_le _)

theorem start_keeps (clock : Rat) : (start clock).Keeps [] := rfl

theorem dispatch_eq (l : Limiter) (a : Arrival) :
    l.middleware.dispatch a.client a.created a.now =
      ({ buckets := (l.middleware.getBucket a.clientIp a.created).2.1.buckets.set a.clientIp
          ((l.middleware.bucketFor a.clientIp a.created).consume 1 a.now).2 },
        if ((l.middleware.bucketFor a.clientIp a.created).consume 1 a.now).1 then .callNext
        else .response 429 "Rate limit exceeded",
        if ((l.middleware.bucketFor a.clientIp a.created).consume 1 a.now).1 then []
        else [.log (.rateLimitExceeded a.clientIp)],
        (l.middleware.getBucket a.clientIp a.created).2.2) :=
  RateLimitMiddleware.dispatch_eq rfl l.middleware a.created a.now

/-- A step, field by field. -/
theorem step_eq {l l' : Limiter} {a : Arrival} {obs : List LimiterObs}
    (h : l.step a = some (l', obs)) :
    (l.clock ≤ a.created ∧ a.created ≤ a.now) ∧
      l' = ⟨(l.middleware.dispatch a.client a.created a.now).1, a.now⟩ ∧
      obs = (l.middleware.dispatch a.client a.created a.now).2.2.1.map .output ++
        ((l.middleware.getBucket a.clientIp a.created).2.2.map (fun key => .evicted key a.now) ++
          [.dispatched a.clientIp a.now
            (if ((l.middleware.bucketFor a.clientIp a.created).consume 1 a.now).1 then .callNext
              else .response 429 "Rate limit exceeded")]) := by
  unfold step at h
  split at h
  · rename_i hclock
    rw [Option.some.injEq, Prod.mk.injEq] at h
    refine ⟨hclock, h.1.symm, ?_⟩
    rw [← h.2, dispatch_eq l a]
  · cases h

theorem step_keeps {as : List Arrival} {l l' : Limiter} {a : Arrival} {obs : List LimiterObs}
    (hkeeps : l.Keeps as) (h : l.step a = some (l', obs)) : l'.Keeps (as ++ [a]) := by
  obtain ⟨-, rfl, -⟩ := step_eq h
  have hmem := RateLimitMiddleware.mem_getBucket hkeeps.bounded a.clientIp a.created
  rw [Keeps, dispatch_eq, OrderedDict.keys_set, if_pos hmem,
    RateLimitMiddleware.getBucket_keys hkeeps.bounded, hkeeps, List.map_append,
    List.map_singleton, Lru.order_concat]

section Counts

variable (clientIp : String) (s u : Rat)

@[simp] theorem admittedIn_append (tr obs : List LimiterObs) :
    admittedIn clientIp s u (tr ++ obs) =
      admittedIn clientIp s u tr + admittedIn clientIp s u obs :=
  List.countP_append

@[simp] theorem evictionsIn_append (tr obs : List LimiterObs) :
    evictionsIn clientIp s u (tr ++ obs) =
      evictionsIn clientIp s u tr + evictionsIn clientIp s u obs :=
  List.countP_append

@[simp] theorem admittedIn_outputs (outputs : List Output) :
    admittedIn clientIp s u (outputs.map .output) = 0 := by
  simp [admittedIn, List.countP_eq_zero, LimiterObs.admits]

@[simp] theorem evictionsIn_outputs (outputs : List Output) :
    evictionsIn clientIp s u (outputs.map .output) = 0 := by
  simp [evictionsIn, List.countP_eq_zero, LimiterObs.evicts]

@[simp] theorem admittedIn_evicted (keys : List String) (now : Rat) :
    admittedIn clientIp s u (keys.map (fun key => .evicted key now)) = 0 := by
  simp [admittedIn, List.countP_eq_zero, LimiterObs.admits]

theorem admittedIn_dispatched (ip : String) (now : Rat) (dispatch : Dispatch) :
    admittedIn clientIp s u [.dispatched ip now dispatch] =
      if dispatch = .callNext ∧ ip = clientIp ∧ s ≤ now ∧ now ≤ u then 1 else 0 := by
  cases dispatch with
  | callNext => simp [admittedIn, LimiterObs.admits, and_assoc]
  | response statusCode detail => simp [admittedIn, LimiterObs.admits]

@[simp] theorem evictionsIn_dispatched (ip : String) (now : Rat) (dispatch : Dispatch) :
    evictionsIn clientIp s u [.dispatched ip now dispatch] = 0 := by
  simp [evictionsIn, LimiterObs.evicts]

theorem evictionsIn_evicted {keys : List String} (hnodup : keys.Nodup) (now : Rat) :
    evictionsIn clientIp s u (keys.map (fun key => .evicted key now)) =
      if clientIp ∈ keys ∧ s ≤ now ∧ now ≤ u then 1 else 0 := by
  rw [evictionsIn, List.countP_map]
  by_cases hwindow : s ≤ now ∧ now ≤ u
  · have hcount : keys.countP (LimiterObs.evicts clientIp s u ∘ fun key => .evicted key now) =
        keys.count clientIp := by
      apply List.countP_congr
      intro key _
      simp [LimiterObs.evicts, hwindow.1, hwindow.2]
    rw [hcount]
    by_cases hin : clientIp ∈ keys
    · rw [List.count_eq_one_of_mem hnodup hin, if_pos ⟨hin, hwindow⟩]
    · rw [List.count_eq_zero_of_not_mem hin, if_neg (fun h => hin h.1)]
  · rw [if_neg (fun h => hwindow h.2), List.countP_eq_zero]
    intro key _ hevicts
    simp only [Function.comp_apply, LimiterObs.evicts, Bool.and_eq_true, decide_eq_true_eq]
      at hevicts
    exact hwindow ⟨hevicts.1.2, hevicts.2⟩

end Counts

/-- A request of the client itself draws on its bucket, or on a new one. -/
theorem step_own {l l' : Limiter} {a : Arrival} {obs : List LimiterObs}
    (hbounded : l.middleware.buckets.length ≤ maxRateLimitEntries)
    (h : l.step a = some (l', obs)) (s u : Rat) :
    l'.bucket? a.clientIp =
        some ((l.middleware.bucketFor a.clientIp a.created).consume 1 a.now).2 ∧
      evictionsIn a.clientIp s u obs = 0 ∧
        admittedIn a.clientIp s u obs =
          if ((l.middleware.bucketFor a.clientIp a.created).consume 1 a.now).1 = true ∧
            s ≤ a.now ∧ a.now ≤ u then 1 else 0 := by
  obtain ⟨-, rfl, rfl⟩ := step_eq h
  obtain ⟨hnodup, hown, -⟩ :=
    RateLimitMiddleware.getBucket_evicted hbounded a.clientIp a.created
  refine ⟨?_, ?_, ?_⟩
  · rw [bucket?, dispatch_eq, OrderedDict.get?_set_self]
  · rw [evictionsIn_append, evictionsIn_outputs, evictionsIn_append,
      evictionsIn_evicted _ _ _ hnodup, if_neg (fun hin => hown hin.1), evictionsIn_dispatched]
  · rw [admittedIn_append, admittedIn_outputs, admittedIn_append, admittedIn_evicted,
      admittedIn_dispatched]
    cases ((l.middleware.bucketFor a.clientIp a.created).consume 1 a.now).1 <;> simp

/-- A request of another client leaves the bucket alone or evicts it. -/
theorem step_other_bucket {l l' : Limiter} {a : Arrival} {obs : List LimiterObs}
    {clientIp : String} (h : l.step a = some (l', obs)) (hne : clientIp ≠ a.clientIp) :
    l'.bucket? clientIp =
      if clientIp ∈ (l.middleware.getBucket a.clientIp a.created).2.2 then none
      else l.bucket? clientIp := by
  obtain ⟨-, rfl, -⟩ := step_eq h
  rw [bucket?, dispatch_eq, OrderedDict.get?_set_ne _ hne,
    RateLimitMiddleware.getBucket_get?_ne hne]
  rfl

theorem step_other {l l' : Limiter} {a : Arrival} {obs : List LimiterObs} {clientIp : String}
    (hbounded : l.middleware.buckets.length ≤ maxRateLimitEntries)
    (h : l.step a = some (l', obs)) (hne : clientIp ≠ a.clientIp) (s u : Rat) :
    admittedIn clientIp s u obs = 0 ∧
      ((l'.bucket? clientIp = l.bucket? clientIp ∧ evictionsIn clientIp s u obs = 0) ∨
        (l'.bucket? clientIp = none ∧
          evictionsIn clientIp s u obs = if s ≤ a.now ∧ a.now ≤ u then 1 else 0)) := by
  have hbucket := step_other_bucket h hne
  obtain ⟨-, -, rfl⟩ := step_eq h
  obtain ⟨hnodup, -⟩ := RateLimitMiddleware.getBucket_evicted hbounded a.clientIp a.created
  refine ⟨?_, ?_⟩
  · rw [admittedIn_append, admittedIn_outputs, admittedIn_append, admittedIn_evicted,
      admittedIn_dispatched, if_neg (fun hin => hne hin.2.1.symm)]
  · rw [evictionsIn_append, evictionsIn_outputs, evictionsIn_append,
      evictionsIn_evicted _ _ _ hnodup, evictionsIn_dispatched, Nat.zero_add, Nat.add_zero]
    by_cases hin : clientIp ∈ (l.middleware.getBucket a.clientIp a.created).2.2
    · rw [if_pos hin] at hbucket
      exact Or.inr ⟨hbucket, by simp only [hin, true_and]⟩
    · rw [if_neg hin] at hbucket
      exact Or.inl ⟨hbucket, by simp only [hin, false_and, if_false]⟩

/-! ## The bound -/

/-- What one client has been admitted between `s` and `u` is paid for: by the
buckets it was given and by the refill since `s`.  What it could still be
admitted, its tokens after a refill, is covered as well. -/
structure Charged (clientIp : String) (s u : Rat) (l : Limiter) (tr : List LimiterObs) :
    Prop where
  sound : ∀ b, l.bucket? clientIp = some b → b.Sound 100 100 l.clock
  early : l.clock < s → admittedIn clientIp s u tr = 0
  affordable : ∀ created now, l.clock ≤ created → created ≤ now → s ≤ now → now ≤ u →
    (l.middleware.bucketFor clientIp created).refilled now + admittedIn clientIp s u tr ≤
      100 * (1 + evictionsIn clientIp s u tr) + 100 * (now - s)
  bound : (admittedIn clientIp s u tr : Rat) ≤
    100 * (1 + evictionsIn clientIp s u tr) + 100 * (u - s)

variable {clientIp : String} {s u : Rat} {l l' : Limiter} {tr obs : List LimiterObs}

/-- Without a bucket a request draws on a full one. -/
theorem refilled_bucketFor_of_none {created now : Rat} (h : l.bucket? clientIp = none)
    (hlater : created ≤ now) : (l.middleware.bucketFor clientIp created).refilled now = 100 := by
  have hget : l.middleware.buckets.get? clientIp = none := h
  rw [RateLimitMiddleware.bucketFor, hget]
  exact (TokenBucket.consume_new (by decide +kernel) (by decide +kernel) hlater).2

theorem bucketFor_of_some {created : Rat} {b : TokenBucket} (h : l.bucket? clientIp = some b) :
    l.middleware.bucketFor clientIp created = b := by
  have hget : l.middleware.buckets.get? clientIp = some b := h
  rw [RateLimitMiddleware.bucketFor, hget]
  rfl

theorem start_charged (clock : Rat) (hwindow : s ≤ u) : (start clock).Charged clientIp s u [] where
  sound := fun _ h => by cases h
  early := fun _ => rfl
  affordable := by
    intro created now _ hlater hs _
    rw [refilled_bucketFor_of_none rfl hlater]
    have hzero : ((admittedIn clientIp s u [] : Nat) : Rat) = 0 := rfl
    have hnone : ((evictionsIn clientIp s u [] : Nat) : Rat) = 0 := rfl
    rw [hzero, hnone]
    linarith
  bound := by
    have hzero : ((admittedIn clientIp s u [] : Nat) : Rat) = 0 := rfl
    have hnone : ((evictionsIn clientIp s u [] : Nat) : Rat) = 0 := rfl
    rw [hzero, hnone]
    linarith

/-- The bucket that a request draws on is sound. -/
theorem Charged.bucketFor_sound (h : l.Charged clientIp s u tr) {created : Rat}
    (hclock : l.clock ≤ created) :
    (l.middleware.bucketFor clientIp created).Sound 100 100 created := by
  cases hbucket : l.bucket? clientIp with
  | none =>
      have hget : l.middleware.buckets.get? clientIp = none := hbucket
      rw [RateLimitMiddleware.bucketFor, hget]
      exact TokenBucket.new_sound (by decide +kernel)
  | some b =>
      rw [bucketFor_of_some hbucket]
      exact (h.sound b hbucket).mono hclock

/-- A refill adds what the rate allows and stays within the capacity. -/
theorem refilled_le {b : TokenBucket} {now later : Rat} (h : b.Sound 100 100 now) :
    b.refilled later ≤ b.tokens + (later - b.lastRefill) * 100 ∧ b.refilled later ≤ 100 := by
  unfold TokenBucket.refilled
  rw [h.rate_eq, h.capacity_eq]
  exact ⟨min_le_right _ _, min_le_left _ _⟩

/-- A request of the client itself: what it is admitted it pays for with tokens. -/
theorem Charged.own {a : Arrival} (h : l.Charged a.clientIp s u tr)
    (hbounded : l.middleware.buckets.length ≤ maxRateLimitEntries)
    (hstep : l.step a = some (l', obs)) : l'.Charged a.clientIp s u (tr ++ obs) := by
  obtain ⟨hclock, hl, -⟩ := step_eq hstep
  obtain ⟨hbucket, hevictions, hadmitted⟩ := step_own hbounded hstep s u
  have hnow : l'.clock = a.now := by rw [hl]
  have hsoon : l.clock ≤ a.now := le_trans hclock.1 hclock.2
  have hsound := ((h.bucketFor_sound hclock.1).mono hclock.2).consume (by decide +kernel)
  have htokens := (l.middleware.bucketFor a.clientIp a.created).consume_tokens a.now
  have hlast := (l.middleware.bucketFor a.clientIp a.created).consume_lastRefill 1 a.now
  have hpaid := h.affordable a.created a.now hclock.1 hclock.2
  generalize (l.middleware.bucketFor a.clientIp a.created).consume 1 a.now = r at *
  obtain ⟨ok, b'⟩ := r
  dsimp only at hbucket hadmitted hsound htokens hlast
  have hnonneg := hsound.nonneg
  -- Inside the window the tokens left and the requests admitted add up.
  have hinside : s ≤ a.now → a.now ≤ u →
      b'.tokens + (admittedIn a.clientIp s u (tr ++ obs) : Rat) ≤
        100 * (1 + evictionsIn a.clientIp s u tr) + 100 * (a.now - s) := by
    intro hs hu
    have hone : (admittedIn a.clientIp s u obs : Rat) = if ok = true then 1 else 0 := by
      rw [hadmitted]
      cases ok <;> simp [hs, hu]
    have hsum := hpaid hs hu
    rw [admittedIn_append, Nat.cast_add, hone]
    linarith
  have houtside : ¬ (s ≤ a.now ∧ a.now ≤ u) →
      admittedIn a.clientIp s u (tr ++ obs) = admittedIn a.clientIp s u tr := by
    intro hout
    rw [admittedIn_append, hadmitted, if_neg (fun hin => hout hin.2), Nat.add_zero]
  have hsame : evictionsIn a.clientIp s u (tr ++ obs) = evictionsIn a.clientIp s u tr := by
    rw [evictionsIn_append, hevictions, Nat.add_zero]
  have hcount : (0 : Rat) ≤ evictionsIn a.clientIp s u tr := Nat.cast_nonneg _
  refine ⟨?_, ?_, ?_, ?_⟩
  · intro b hb
    rw [hbucket, Option.some.injEq] at hb
    rw [← hb, hnow]
    exact hsound
  · intro hbefore
    rw [hnow] at hbefore
    rw [houtside (fun hin => absurd hin.1 (not_le.mpr hbefore))]
    exact h.early (lt_of_le_of_lt hsoon hbefore)
  · intro created now hcreated hlater hs hu
    rw [hnow] at hcreated
    have hfill : b'.refilled now ≤ b'.tokens + (now - b'.lastRefill) * 100 ∧
        b'.refilled now ≤ 100 := refilled_le hsound
    rw [bucketFor_of_some hbucket, hsame]
    by_cases hin : s ≤ a.now
    · have hsum := hinside hin (by linarith)
      rw [hlast] at hfill
      linarith [hfill.1]
    · have hzero : (admittedIn a.clientIp s u tr : Rat) = 0 := by
        rw [h.early (lt_of_le_of_lt hsoon (not_le.mp hin))]
        rfl
      rw [houtside (fun hboth => hin hboth.1), hzero]
      linarith [hfill.2]
  · rw [hsame]
    by_cases hin : s ≤ a.now ∧ a.now ≤ u
    · have hsum := hinside hin.1 hin.2
      linarith [hin.2]
    · rw [houtside hin]
      exact h.bound

/-- A request of another client: at most an eviction, and that is charged. -/
theorem Charged.other {a : Arrival} (h : l.Charged clientIp s u tr)
    (hbounded : l.middleware.buckets.length ≤ maxRateLimitEntries)
    (hstep : l.step a = some (l', obs)) (hne : clientIp ≠ a.clientIp) :
    l'.Charged clientIp s u (tr ++ obs) := by
  obtain ⟨hclock, hl, -⟩ := step_eq hstep
  obtain ⟨hadmitted, hbucket⟩ := step_other hbounded hstep hne s u
  have hnow : l'.clock = a.now := by rw [hl]
  have hsoon : l.clock ≤ a.now := le_trans hclock.1 hclock.2
  have hsame : admittedIn clientIp s u (tr ++ obs) = admittedIn clientIp s u tr := by
    rw [admittedIn_append, hadmitted, Nat.add_zero]
  have hmore : (evictionsIn clientIp s u tr : Rat) ≤ evictionsIn clientIp s u (tr ++ obs) := by
    rw [evictionsIn_append, Nat.cast_add]
    have hnonneg : (0 : Rat) ≤ evictionsIn clientIp s u obs := Nat.cast_nonneg _
    linarith
  refine ⟨?_, ?_, ?_, ?_⟩
  · intro b hb
    rw [hnow]
    rcases hbucket with ⟨hkept, -⟩ | ⟨hgone, -⟩
    · rw [hkept] at hb
      exact (h.sound b hb).mono hsoon
    · rw [hgone] at hb
      cases hb
  · intro hbefore
    rw [hnow] at hbefore
    rw [hsame]
    exact h.early (lt_of_le_of_lt hsoon hbefore)
  · intro created now hcreated hlater hs hu
    rw [hnow] at hcreated
    rw [hsame]
    rcases hbucket with ⟨hkept, -⟩ | ⟨hgone, hevicted⟩
    · have hdraw : l'.middleware.bucketFor clientIp created =
          l.middleware.bucketFor clientIp created := by
        have hget : l'.middleware.buckets.get? clientIp = l.middleware.buckets.get? clientIp :=
          hkept
        rw [RateLimitMiddleware.bucketFor, RateLimitMiddleware.bucketFor, hget]
      have hsum := h.affordable created now (le_trans hsoon hcreated) hlater hs hu
      rw [hdraw]
      linarith
    · rw [refilled_bucketFor_of_none hgone hlater]
      by_cases hin : s ≤ a.now
      · have hsum := h.affordable a.now a.now hsoon (le_refl _) hin (by linarith)
        have hnonneg := (h.bucketFor_sound hsoon).refilled_nonneg (by decide +kernel)
        have hone : (evictionsIn clientIp s u (tr ++ obs) : Rat) =
            evictionsIn clientIp s u tr + 1 := by
          rw [evictionsIn_append, hevicted, if_pos ⟨hin, by linarith⟩, Nat.cast_add, Nat.cast_one]
        rw [hone]
        linarith
      · have hzero : (admittedIn clientIp s u tr : Rat) = 0 := by
          rw [h.early (lt_of_le_of_lt hsoon (not_le.mp hin))]
          rfl
        have hcount : (0 : Rat) ≤ evictionsIn clientIp s u (tr ++ obs) := Nat.cast_nonneg _
        rw [hzero]
        linarith
  · rw [hsame]
    linarith [h.bound]

/-! ## Whole runs -/

/-- An evicted bucket is one of another client than the sender, who sent a
request before, and is gone. -/
theorem Keeps.of_evicted {as : List Arrival} {a : Arrival} {now : Rat} (h : l.Keeps as)
    (hstep : l.step a = some (l', obs)) (hevicted : .evicted clientIp now ∈ obs) :
    clientIp ∈ as.map Arrival.clientIp ∧ ¬ clientIp ∈ l'.middleware.buckets := by
  obtain ⟨-, -, hobs⟩ := step_eq hstep
  obtain ⟨-, hown, hheld⟩ :=
    RateLimitMiddleware.getBucket_evicted h.bounded a.clientIp a.created
  have hin : clientIp ∈ (l.middleware.getBucket a.clientIp a.created).2.2 := by
    rw [hobs] at hevicted
    have hboth : clientIp ∈ (l.middleware.getBucket a.clientIp a.created).2.2 ∧ a.now = now := by
      simpa using hevicted
    exact hboth.1
  have hne : clientIp ≠ a.clientIp := by
    intro heq
    rw [heq] at hin
    exact hown hin
  have hgone : l'.bucket? clientIp = none := by
    rw [step_other_bucket hstep hne, if_pos hin]
  have hsent : clientIp ∈ as.map Arrival.clientIp := by
    have hbefore := hheld clientIp hin
    rw [OrderedDict.mem_def, h] at hbefore
    exact (Lru.mem_of_mem_order hbefore).resolve_left List.not_mem_nil
  exact ⟨hsent, (OrderedDict.get?_eq_none_iff _ _).mp hgone⟩

/-- The bucket of a client is evicted only after 10,000 distinct other clients
sent a request since the client did. -/
theorem Keeps.since_of_evicted {as : List Arrival} {a : Arrival} {now : Rat} (h : l.Keeps as)
    (hstep : l.step a = some (l', obs)) (hevicted : .evicted clientIp now ∈ obs) :
    maxRateLimitEntries ≤
      (Lru.since clientIp ((as ++ [a]).map Arrival.clientIp)).toFinset.card := by
  have hkeeps := step_keeps h hstep
  obtain ⟨hsent, hgone⟩ := h.of_evicted hstep hevicted
  have hused : clientIp ∈ (as ++ [a]).map Arrival.clientIp := by
    rw [List.map_append]
    exact List.mem_append_left _ hsent
  rw [OrderedDict.mem_def, hkeeps, Lru.mem_order_iff List.nodup_nil hused] at hgone
  exact not_lt.mp hgone

/-- Up to 10,000 client addresses no bucket is evicted. -/
theorem Keeps.not_evicted {as : List Arrival} {a : Arrival} {now : Rat} (h : l.Keeps as)
    (hstep : l.step a = some (l', obs))
    (hfew : ((as ++ [a]).map Arrival.clientIp).toFinset.card ≤ maxRateLimitEntries) :
    ¬ .evicted clientIp now ∈ obs := by
  intro hevicted
  have hmany := h.since_of_evicted hstep hevicted
  have hsent := (h.of_evicted hstep hevicted).1
  generalize hips : (as ++ [a]).map Arrival.clientIp = ips at hfew hmany
  -- The others since the client's last request are not all the addresses: the client is one.
  have hproper : (Lru.since clientIp ips).toFinset ⊂ ips.toFinset := by
    refine Finset.ssubset_iff_subset_ne.mpr ⟨?_, ?_⟩
    · intro ip hip
      exact List.mem_toFinset.mpr
        ((List.rtakeWhile_suffix _ ips).subset (List.mem_toFinset.mp hip))
    · intro heq
      have hin : clientIp ∈ ips.toFinset := by
        rw [← hips, List.map_append]
        exact List.mem_toFinset.mpr (List.mem_append_left _ hsent)
      rw [← heq] at hin
      exact Lru.not_mem_since clientIp ips (List.mem_toFinset.mp hin)
  have hless := Finset.card_lt_card hproper
  exact absurd (hmany.trans_lt hless) (not_lt.mpr hfew)

theorem run_keeps {clock : Rat} {as : List Arrival}
    (hrun : run step (start clock) as = some (l, tr)) : l.Keeps as :=
  run_history_invariant (I := fun as l _ => l.Keeps as)
    (fun _ _ _ _ _ _ _ h hs => step_keeps h hs) (start_keeps clock) hrun

/-- In every run at non-decreasing times, for every client and every window of
length `T`: the limiter admits at most 100 + 100 T requests of the client, and
100 more for every time the client's bucket is evicted within the window; and a
bucket is evicted only when 10,000 distinct other clients have sent a request
since its client did. -/
theorem rateLimited (clock : Rat) (as : List Arrival) (l : Limiter) (tr : List LimiterObs)
    (hrun : run step (start clock) as = some (l, tr)) (clientIp : String) :
    (∀ s T : Rat, 0 ≤ T →
      (admittedIn clientIp s (s + T) tr : Rat) ≤
        100 + 100 * T + 100 * evictionsIn clientIp s (s + T) tr) ∧
      ∀ a l' obs now, l.step a = some (l', obs) → .evicted clientIp now ∈ obs →
        10000 ≤ (Lru.since clientIp ((as ++ [a]).map Arrival.clientIp)).toFinset.card := by
  have hkeeps := run_keeps hrun
  refine ⟨?_, ?_⟩
  · intro s T hT
    have hcharged : l.Keeps as ∧ l.Charged clientIp s (s + T) tr := by
      refine run_history_invariant
        (I := fun as l tr => l.Keeps as ∧ l.Charged clientIp s (s + T) tr) ?_
        ⟨start_keeps clock, start_charged clock (by linarith)⟩ hrun
      intro as l tr a l' obs _ h hs
      refine ⟨step_keeps h.1 hs, ?_⟩
      by_cases hown : clientIp = a.clientIp
      · subst hown
        exact h.2.own h.1.bounded hs
      · exact h.2.other h.1.bounded hs hown
    linarith [hcharged.2.bound]
  · intro a l' obs now hstep hevicted
    exact hkeeps.since_of_evicted hstep hevicted

/-- A request at time zero. -/
def arrivalAtZero (clientIp : String) : Arrival := ⟨some clientIp, 0, 0⟩

/-- Requests at time zero go through. -/
private theorem exists_run_atZero (ips : List String) :
    ∀ {l : Limiter}, l.clock = 0 →
      ∃ l' tr, run step l (ips.map arrivalAtZero) = some (l', tr) ∧ l'.clock = 0 := by
  induction ips with
  | nil => exact fun {l} hclock => ⟨l, [], rfl, hclock⟩
  | cons ip ips ih =>
      intro l hclock
      have hnow : l.clock ≤ (arrivalAtZero ip).created ∧
          (arrivalAtZero ip).created ≤ (arrivalAtZero ip).now := by
        rw [hclock]
        exact ⟨le_refl _, le_refl _⟩
      obtain ⟨⟨l₁, obs⟩, hstep⟩ :
          ∃ r, l.step (arrivalAtZero ip) = some r := by
        rw [step, if_pos hnow]
        exact ⟨_, rfl⟩
      have hclock₁ : l₁.clock = 0 := by
        rw [(step_eq hstep).2.1]
        rfl
      obtain ⟨l', tr, hrun, hclock'⟩ := ih hclock₁
      exact ⟨l', obs ++ tr, run_cons_iff.mpr ⟨l₁, obs, tr, hstep, hrun, rfl⟩, hclock'⟩

/-- The addresses of other clients. -/
def otherIp (i : Nat) : String := "fd00::1:" ++ Nat.repr i

private theorem otherIp_injective : Function.Injective otherIp := by
  intro i j h
  have hlist := congrArg String.toList h
  simp only [otherIp, String.toList_append, List.append_cancel_left_eq, Nat.toList_repr] at hlist
  have hvalue := congrArg (fun cs => Nat.ofDigitChars 10 cs 0) hlist
  simpa using hvalue

private theorem otherIp_ne (i : Nat) : otherIp i ≠ "10.0.0.1" := by
  intro h
  have hhead := congrArg (fun ip => ip.toList.head?) h
  simp [otherIp, String.toList_append] at hhead

/-- A hundred requests of one client, and one each of 10,000 others. -/
def floodedIps : List String :=
  List.replicate 100 "10.0.0.1" ++ (List.range 10000).map otherIp

private theorem card_since_flooded :
    (Lru.since "10.0.0.1" floodedIps).toFinset.card = 10000 := by
  have hothers : ¬ "10.0.0.1" ∈ (List.range 10000).map otherIp := by
    intro hin
    obtain ⟨i, -, hi⟩ := List.mem_map.mp hin
    exact otherIp_ne i hi
  have hsplit : floodedIps =
      List.replicate 99 "10.0.0.1" ++ "10.0.0.1" :: (List.range 10000).map otherIp := by
    rw [floodedIps, List.replicate_succ', List.append_assoc, List.singleton_append]
  have hnodup : ((List.range 10000).map otherIp).Nodup :=
    List.nodup_range.map otherIp_injective
  rw [hsplit, Lru.since_append _ hothers, List.toFinset_card_of_nodup hnodup, List.length_map,
    List.length_range]

/-- The 101st request of the same instant is admitted. -/
theorem not_rateLimited_flooded :
    ∃ l tr, run step (start 0) ((floodedIps ++ ["10.0.0.1"]).map arrivalAtZero) = some (l, tr) ∧
      ¬ (admittedIn "10.0.0.1" 0 (0 + 0) tr : Rat) ≤ 100 + 100 * 0 := by
  -- The first hundred requests empty the bucket.
  obtain ⟨l₁, tr₁, hrun₁, hclock₁, hadmitted₁⟩ :
      ∃ l tr, run step (start 0) ((List.replicate 100 "10.0.0.1").map arrivalAtZero) =
        some (l, tr) ∧ l.clock = 0 ∧ admittedIn "10.0.0.1" 0 (0 + 0) tr = 100 :=
    exists_run (by decide +kernel)
  -- The others evict it.
  obtain ⟨l₂, tr₂, hrun₂, hclock₂⟩ := exists_run_atZero ((List.range 10000).map otherIp) hclock₁
  have hflooded : run step (start 0) (floodedIps.map arrivalAtZero) = some (l₂, tr₁ ++ tr₂) := by
    rw [floodedIps, List.map_append]
    exact run_append_iff.mpr ⟨l₁, tr₁, tr₂, hrun₁, hrun₂, rfl⟩
  have hkeeps := run_keeps hflooded
  have hips : (floodedIps.map arrivalAtZero).map Arrival.clientIp = floodedIps := by
    rw [List.map_map]
    exact List.map_id _
  have hgone : l₂.bucket? "10.0.0.1" = none := by
    have hsent : "10.0.0.1" ∈ floodedIps :=
      List.mem_append_left _ (List.mem_replicate.mpr ⟨by omega, rfl⟩)
    rw [bucket?, OrderedDict.get?_eq_none_iff, OrderedDict.mem_def, hkeeps, hips,
      Lru.mem_order_iff List.nodup_nil hsent, card_since_flooded]
    exact lt_irrefl _
  -- So the client is given a new one.
  obtain ⟨l₃, tr₃, hrun₃, -⟩ := exists_run_atZero ["10.0.0.1"] hclock₂
  obtain ⟨l₄, obs, tr₄, hstep, hnil, rfl⟩ := run_cons_iff.mp hrun₃
  obtain ⟨rfl, rfl⟩ := run_nil_iff.mp hnil
  have hadmitted₃ : admittedIn "10.0.0.1" 0 (0 + 0) obs = 1 := by
    obtain ⟨-, -, hadmitted⟩ := step_own hkeeps.bounded hstep 0 (0 + 0)
    have hget : l₂.middleware.buckets.get? "10.0.0.1" = none := hgone
    have hfull : ((l₂.middleware.bucketFor "10.0.0.1" 0).consume 1 0).1 = true := by
      rw [RateLimitMiddleware.bucketFor, hget]
      exact (TokenBucket.consume_new (by decide +kernel) (by decide +kernel) (le_refl _)).1
    show admittedIn (arrivalAtZero "10.0.0.1").clientIp 0 (0 + 0) obs = 1
    rw [hadmitted]
    exact if_pos ⟨hfull, le_refl _, by decide +kernel⟩
  refine ⟨l₃, (tr₁ ++ tr₂) ++ (obs ++ []), ?_, ?_⟩
  · rw [List.map_append]
    exact run_append_iff.mpr ⟨l₂, tr₁ ++ tr₂, obs ++ [], hflooded, hrun₃, rfl⟩
  · intro hle
    rw [List.append_nil, admittedIn_append, admittedIn_append, hadmitted₁, hadmitted₃] at hle
    have hnonneg : (0 : Rat) ≤ admittedIn "10.0.0.1" 0 (0 + 0) tr₂ := Nat.cast_nonneg _
    push_cast at hle
    linarith

/-- The hundred requests of one client alone. -/
theorem rateLimited_burst :
    ∃ l tr, run step (start 0) ((List.replicate 100 "10.0.0.1").map arrivalAtZero) =
        some (l, tr) ∧
      (admittedIn "10.0.0.1" 0 (0 + 1) tr : Rat) ≤
        100 + 100 * 1 + 100 * evictionsIn "10.0.0.1" 0 (0 + 1) tr := by
  obtain ⟨l, tr, hrun, -⟩ := exists_run_atZero (List.replicate 100 "10.0.0.1") (l := start 0) rfl
  exact ⟨l, tr, hrun, (rateLimited 0 _ l tr hrun "10.0.0.1").1 0 1 (by decide +kernel)⟩

end Limiter

end PaymentConnector
