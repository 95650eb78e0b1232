import PaymentConnector.GatewayClient

/-!
# The circuit breaker as a function of what was recorded

The breaker keeps a state, a counter and a timestamp, and reading it may write
the state.  What it answers is nevertheless a function of the successes and
failures recorded so far and of the instant of the reading: the stored state
only remembers the outcome of a comparison that stays true from then on.

## Main results

* `Sound` — the invariant that ties state, counter and timestamp together,
  kept by every operation at non-decreasing instants.
* `Sound.readState_eq` — what a sound breaker answers, from its counter and
  its timestamp.
* `breaker_refines` — the refinement of the stateless specification.
-/

namespace PaymentConnector

/-! ## The specification -/

/-- What is recorded with a breaker. -/
inductive Recorded
  | success
  | failure (now : Rat)
  deriving DecidableEq

namespace Recorded

def isFailure : Recorded → Bool
  | success => false
  | failure _ => true

def failedAt? : Recorded → Option Rat
  | success => none
  | failure now => some now

/-- The failures since the last success, or since the start. -/
def failures (rs : List Recorded) : Nat := (rs.rtakeWhile isFailure).length

/-- The instant of the last failure. -/
def lastFailure? (rs : List Recorded) : Option Rat := (rs.filterMap failedAt?).getLast?

/-- The state at `now` of a breaker with which `rs` was recorded. -/
def stateOf (failureThreshold : Nat) (timeoutSeconds : Rat) (rs : List Recorded) (now : Rat) :
    CircuitState :=
  if failures rs < failureThreshold then .closed
  else
    match lastFailure? rs with
    | none => .openState
    | some f => if timeoutSeconds ≤ now - f then .halfOpen else .openState

@[simp] theorem failures_nil : failures [] = 0 := rfl

@[simp] theorem failures_success (rs : List Recorded) : failures (rs ++ [success]) = 0 := by
  rw [failures, List.rtakeWhile_concat_neg isFailure rs success (by simp [isFailure])]
  rfl

@[simp] theorem failures_failure (rs : List Recorded) (now : Rat) :
    failures (rs ++ [failure now]) = failures rs + 1 := by
  rw [failures, List.rtakeWhile_concat_pos isFailure rs (failure now) rfl, List.length_append]
  rfl

@[simp] theorem lastFailure?_nil : lastFailure? [] = none := rfl

@[simp] theorem lastFailure?_success (rs : List Recorded) :
    lastFailure? (rs ++ [success]) = lastFailure? rs := by
  simp [lastFailure?, failedAt?]

@[simp] theorem lastFailure?_failure (rs : List Recorded) (now : Rat) :
    lastFailure? (rs ++ [failure now]) = some now := by
  simp [lastFailure?, failedAt?]

end Recorded

/-! ## The invariant -/

namespace CircuitBreaker

/-- `__init__`. -/
def new (failureThreshold : Nat) (timeoutSeconds : Rat) : CircuitBreaker where
  failureThreshold := failureThreshold
  timeoutSeconds := timeoutSeconds
  state := .closed
  failureCount := 0
  lastFailureTime := none

/-- The breaker is closed below its threshold and stamped from it on, and it
is half-open only once its timeout has elapsed. -/
structure Sound (b : CircuitBreaker) (now : Rat) : Prop where
  threshold_pos : 1 ≤ b.failureThreshold
  closed_iff : b.state = .closed ↔ b.failureCount < b.failureThreshold
  stamped : b.failureThreshold ≤ b.failureCount → b.lastFailureTime ≠ none
  elapsed : b.state = .halfOpen → b.timedOut now = true

theorem timedOut_iff (b : CircuitBreaker) (now : Rat) :
    b.timedOut now = true ↔ ∃ f, b.lastFailureTime = some f ∧ b.timeoutSeconds ≤ now - f := by
  unfold timedOut
  cases b.lastFailureTime with
  | none => simp
  | some f => simp

/-- A timeout that has elapsed stays elapsed. -/
theorem timedOut_mono {b : CircuitBreaker} {now now' : Rat} (h : b.timedOut now = true)
    (hle : now ≤ now') : b.timedOut now' = true := by
  rw [timedOut_iff] at h ⊢
  obtain ⟨f, hf, helapsed⟩ := h
  exact ⟨f, hf, helapsed.trans (sub_le_sub_right hle f)⟩

theorem Sound.mono {b : CircuitBreaker} {now now' : Rat} (h : b.Sound now) (hle : now ≤ now') :
    b.Sound now' where
  threshold_pos := h.threshold_pos
  closed_iff := h.closed_iff
  stamped := h.stamped
  elapsed := fun hstate => timedOut_mono (h.elapsed hstate) hle

theorem new_sound {failureThreshold : Nat} (hpos : 1 ≤ failureThreshold)
    (timeoutSeconds now : Rat) :
    (new failureThreshold timeoutSeconds).Sound now where
  threshold_pos := hpos
  closed_iff := ⟨fun _ => hpos, fun _ => rfl⟩
  stamped := fun hle => absurd hle (by show ¬ failureThreshold ≤ 0; omega)
  elapsed := fun hstate => by cases hstate

/-- A reading changes the state alone, and only from open to half-open. -/
theorem readState_spec (b : CircuitBreaker) (now : Rat) :
    (b.readState now).2 = { b with state := (b.readState now).1 } ∧
      ((b.readState now).1 = b.state ∨
        b.state = .openState ∧ (b.readState now).1 = .halfOpen ∧ b.timedOut now = true) := by
  unfold readState
  split
  · rename_i hopen
    exact ⟨rfl, Or.inr ⟨hopen.1, rfl, hopen.2⟩⟩
  · exact ⟨rfl, Or.inl rfl⟩

theorem allowsRequest_eq (b : CircuitBreaker) (now : Rat) :
    b.allowsRequest now =
      (decide ((b.readState now).1 ≠ .openState), (b.readState now).2) := by
  unfold allowsRequest
  rcases b.readState now with ⟨current, b'⟩
  cases current <;> rfl

section Reads

variable (b : CircuitBreaker) (now : Rat)

@[simp] theorem readState_failureThreshold :
    (b.readState now).2.failureThreshold = b.failureThreshold := by
  rw [(b.readState_spec now).1]

@[simp] theorem readState_timeoutSeconds :
    (b.readState now).2.timeoutSeconds = b.timeoutSeconds := by
  rw [(b.readState_spec now).1]

@[simp] theorem readState_failureCount :
    (b.readState now).2.failureCount = b.failureCount := by
  rw [(b.readState_spec now).1]

@[simp] theorem readState_lastFailureTime :
    (b.readState now).2.lastFailureTime = b.lastFailureTime := by
  rw [(b.readState_spec now).1]

@[simp] theorem readState_state : (b.readState now).2.state = (b.readState now).1 := by
  rw [(b.readState_spec now).1]

@[simp] theorem readState_timedOut (now' : Rat) :
    (b.readState now).2.timedOut now' = b.timedOut now' := by
  simp only [timedOut, readState_lastFailureTime, readState_timeoutSeconds]

end Reads

/-! ## What a sound breaker answers -/

/-- The answer is that of the counter and the timestamp. -/
theorem Sound.readState_eq {b : CircuitBreaker} {now : Rat} (h : b.Sound now) :
    (b.readState now).1 =
      if b.failureCount < b.failureThreshold then .closed
      else if b.timedOut now then .halfOpen
      else .openState := by
  unfold readState
  cases hstate : b.state with
  | closed =>
      rw [if_pos (h.closed_iff.mp hstate)]
      simp
  | openState =>
      have hover : ¬ b.failureCount < b.failureThreshold := by
        rw [← h.closed_iff, hstate]
        simp
      rw [if_neg hover]
      cases b.timedOut now <;> simp
  | halfOpen =>
      have hover : ¬ b.failureCount < b.failureThreshold := by
        rw [← h.closed_iff, hstate]
        simp
      rw [if_neg hover, if_pos (h.elapsed hstate)]
      simp

theorem Sound.readState {b : CircuitBreaker} {now : Rat} (h : b.Sound now) :
    (b.readState now).2.Sound now := by
  have hanswer := h.readState_eq
  refine ⟨?_, ?_, ?_, ?_⟩
  · rw [readState_failureThreshold]
    exact h.threshold_pos
  · rw [readState_state, readState_failureCount, readState_failureThreshold, hanswer]
    split
    · rename_i hlt
      exact ⟨fun _ => hlt, fun _ => rfl⟩
    · rename_i hover
      refine ⟨fun hclosed => ?_, fun hlt => absurd hlt hover⟩
      split at hclosed <;> cases hclosed
  · rw [readState_failureThreshold, readState_failureCount, readState_lastFailureTime]
    exact h.stamped
  · rw [readState_state, readState_timedOut, hanswer]
    split
    · exact fun hclosed => by cases hclosed
    · split
      · rename_i htimedOut
        exact fun _ => htimedOut
      · exact fun hopen => by cases hopen

theorem Sound.recordSuccess {b : CircuitBreaker} {now : Rat} (h : b.Sound now) :
    b.recordSuccess.Sound now where
  threshold_pos := h.threshold_pos
  closed_iff := ⟨fun _ => h.threshold_pos, fun _ => rfl⟩
  stamped := by
    intro hle
    have hzero : b.failureThreshold ≤ 0 := hle
    have hpos := h.threshold_pos
    omega
  elapsed := fun hstate => by cases hstate

/-- A failure is counted and stamped, and opens the breaker unless it stays
below the threshold. -/
theorem Sound.recordFailure_eq {b : CircuitBreaker} {now : Rat} (h : b.Sound now) :
    (b.recordFailure now).1 =
      { b with
        failureCount := b.failureCount + 1
        lastFailureTime := some now
        state := if b.failureCount + 1 < b.failureThreshold then .closed else .openState } := by
  unfold recordFailure
  dsimp only
  by_cases hbelow : b.failureCount + 1 < b.failureThreshold
  · have hclosed : b.state = .closed := h.closed_iff.mpr (by omega)
    have hle : ¬ b.failureThreshold ≤ b.failureCount + 1 := by omega
    simp [hclosed, hle, hbelow]
  · have hle : b.failureThreshold ≤ b.failureCount + 1 := by omega
    rw [if_neg hbelow, if_pos hle]
    split <;> rfl

theorem Sound.recordFailure {b : CircuitBreaker} {now : Rat} (h : b.Sound now) :
    (b.recordFailure now).1.Sound now := by
  rw [h.recordFailure_eq]
  refine ⟨h.threshold_pos, ?_, fun _ => Option.some_ne_none now, ?_⟩
  · show (if b.failureCount + 1 < b.failureThreshold then CircuitState.closed else .openState) =
      .closed ↔ b.failureCount + 1 < b.failureThreshold
    split
    · rename_i hlt
      exact ⟨fun _ => hlt, fun _ => rfl⟩
    · rename_i hover
      constructor
      · intro hopen
        cases hopen
      · exact fun hlt => absurd hlt hover
  · intro hstate
    dsimp only at hstate
    split at hstate <;> cases hstate

/-- `record_success` or `record_failure`. -/
def record (b : CircuitBreaker) : Recorded → CircuitBreaker
  | .success => b.recordSuccess
  | .failure now => (b.recordFailure now).1

/-! ## The refinement -/

end CircuitBreaker

/-- An operation on a breaker; the readings carry their instant. -/
inductive BreakerOp
  | recordSuccess
  | recordFailure (now : Rat)
  | state (now : Rat)
  | allowsRequest (now : Rat)

namespace BreakerOp

/-- What the operation records. -/
def recorded? : BreakerOp → Option Recorded
  | recordSuccess => some .success
  | recordFailure now => some (.failure now)
  | state _ | allowsRequest _ => none

/-- The instant at which the operation reads the clock. -/
def instant? : BreakerOp → Option Rat
  | recordSuccess => none
  | recordFailure now | state now | allowsRequest now => some now

end BreakerOp

namespace CircuitBreaker

def perform (b : CircuitBreaker) : BreakerOp → CircuitBreaker
  | .recordSuccess => b.recordSuccess
  | .recordFailure now => (b.recordFailure now).1
  | .state now => (b.readState now).2
  | .allowsRequest now => (b.allowsRequest now).2

/-- The breaker after a list of operations. -/
def performAll (b : CircuitBreaker) (ops : List BreakerOp) : CircuitBreaker :=
  ops.foldl perform b

/-- A sound breaker that counts and stamps what was recorded. -/
structure Tracks (b : CircuitBreaker) (failureThreshold : Nat) (timeoutSeconds : Rat)
    (rs : List Recorded) (now : Rat) : Prop where
  sound : b.Sound now
  threshold_eq : b.failureThreshold = failureThreshold
  timeout_eq : b.timeoutSeconds = timeoutSeconds
  count_eq : b.failureCount = Recorded.failures rs
  stamp_eq : b.lastFailureTime = Recorded.lastFailure? rs

theorem new_tracks {failureThreshold : Nat} (hpos : 1 ≤ failureThreshold)
    (timeoutSeconds now : Rat) :
    (new failureThreshold timeoutSeconds).Tracks failureThreshold timeoutSeconds [] now where
  sound := new_sound hpos timeoutSeconds now
  threshold_eq := rfl
  timeout_eq := rfl
  count_eq := rfl
  stamp_eq := rfl

section Tracks

variable {b : CircuitBreaker} {failureThreshold : Nat} {timeoutSeconds now : Rat}
  {rs : List Recorded}

theorem Tracks.mono {now' : Rat} (h : b.Tracks failureThreshold timeoutSeconds rs now)
    (hle : now ≤ now') : b.Tracks failureThreshold timeoutSeconds rs now' :=
  { h with sound := h.sound.mono hle }

/-- A breaker that tracks its records answers like the specification. -/
theorem Tracks.readState_eq (h : b.Tracks failureThreshold timeoutSeconds rs now) :
    (b.readState now).1 = Recorded.stateOf failureThreshold timeoutSeconds rs now := by
  rw [h.sound.readState_eq, Recorded.stateOf, h.count_eq, h.threshold_eq, timedOut, h.stamp_eq,
    h.timeout_eq]
  split
  · rfl
  · cases Recorded.lastFailure? rs with
    | none => rfl
    | some f => simp

theorem Tracks.readState (h : b.Tracks failureThreshold timeoutSeconds rs now) :
    (b.readState now).2.Tracks failureThreshold timeoutSeconds rs now where
  sound := h.sound.readState
  threshold_eq := by rw [readState_failureThreshold, h.threshold_eq]
  timeout_eq := by rw [readState_timeoutSeconds, h.timeout_eq]
  count_eq := by rw [readState_failureCount, h.count_eq]
  stamp_eq := by rw [readState_lastFailureTime, h.stamp_eq]

/-- Every operation keeps track of what it records. -/
theorem Tracks.perform (h : b.Tracks failureThreshold timeoutSeconds rs now) (op : BreakerOp)
    (hnow : ∀ t, op.instant? = some t → t = now) :
    (b.perform op).Tracks failureThreshold timeoutSeconds (rs ++ op.recorded?.toList) now := by
  cases op with
  | recordSuccess =>
      exact ⟨h.sound.recordSuccess, h.threshold_eq, h.timeout_eq,
        (Recorded.failures_success rs).symm,
        h.stamp_eq.trans (Recorded.lastFailure?_success rs).symm⟩
  | recordFailure t =>
      have ht : t = now := hnow t rfl
      subst ht
      have hsound := h.sound.recordFailure
      show (b.recordFailure t).1.Tracks _ _ (rs ++ [.failure t]) t
      rw [h.sound.recordFailure_eq] at hsound ⊢
      refine ⟨hsound, h.threshold_eq, h.timeout_eq, ?_, ?_⟩
      · rw [Recorded.failures_failure, ← h.count_eq]
      · rw [Recorded.lastFailure?_failure]
  | state t =>
      have ht : t = now := hnow t rfl
      subst ht
      show (b.readState t).2.Tracks _ _ (rs ++ []) t
      rw [List.append_nil]
      exact h.readState
  | allowsRequest t =>
      have ht : t = now := hnow t rfl
      subst ht
      show (b.allowsRequest t).2.Tracks _ _ (rs ++ []) t
      rw [List.append_nil, allowsRequest_eq]
      exact h.readState

/-- Operations at non-decreasing instants keep track of all they record. -/
theorem Tracks.performAll {ops : List BreakerOp} {now' : Rat} :
    ∀ {b : CircuitBreaker} {rs : List Recorded} {now : Rat},
      b.Tracks failureThreshold timeoutSeconds rs now →
      (now :: ops.filterMap BreakerOp.instant? ++ [now']).Pairwise (· ≤ ·) →
      (b.performAll ops).Tracks failureThreshold timeoutSeconds
        (rs ++ ops.filterMap BreakerOp.recorded?) now' := by
  induction ops with
  | nil =>
      intro b rs now h hmono
      have hle : now ≤ now' := by simpa using hmono
      simpa [CircuitBreaker.performAll] using h.mono hle
  | cons op ops ih =>
      intro b rs now h hmono
      cases hinstant : op.instant? with
      | none =>
          have hhere := h.perform op (fun t ht => by rw [hinstant] at ht; cases ht)
          rw [List.filterMap_cons_none hinstant] at hmono
          have hrest := ih hhere hmono
          rw [List.append_assoc] at hrest
          cases hrecorded : op.recorded? <;>
            simpa [CircuitBreaker.performAll, hrecorded] using hrest
      | some t =>
          rw [List.filterMap_cons_some hinstant] at hmono
          have hle : now ≤ t := (List.pairwise_cons.mp hmono).1 t (by simp)
          have hhere := (h.mono hle).perform op
            (fun t' ht' => by rw [hinstant, Option.some.injEq] at ht'; exact ht'.symm)
          have hrest := ih hhere (List.pairwise_cons.mp hmono).2
          rw [List.append_assoc] at hrest
          cases hrecorded : op.recorded? <;>
            simpa [CircuitBreaker.performAll, hrecorded] using hrest

/-- A fresh breaker tracks what is recorded with it. -/
theorem new_performAll_tracks (hpos : 1 ≤ failureThreshold) (timeoutSeconds : Rat)
    {ops : List BreakerOp} {now : Rat}
    (hmono : (ops.filterMap BreakerOp.instant? ++ [now]).Pairwise (· ≤ ·)) :
    ((new failureThreshold timeoutSeconds).performAll ops).Tracks failureThreshold timeoutSeconds
      (ops.filterMap BreakerOp.recorded?) now := by
  obtain ⟨start, hstart⟩ :
      ∃ start, ∀ t ∈ ops.filterMap BreakerOp.instant? ++ [now], start ≤ t := by
    cases hinstants : ops.filterMap BreakerOp.instant? with
    | nil => exact ⟨now, by simp⟩
    | cons first rest =>
        rw [hinstants, List.cons_append] at hmono
        refine ⟨first, ?_⟩
        rw [List.cons_append, List.forall_mem_cons]
        exact ⟨le_refl first, (List.pairwise_cons.mp hmono).1⟩
  have htracks := new_tracks hpos timeoutSeconds start
  exact htracks.performAll (List.pairwise_cons.mpr ⟨hstart, hmono⟩)

end Tracks

/-- After any operations at non-decreasing instants, a breaker answers what the
specification says of the records alone; two sequences of operations with the
same records are answered alike, however often the state was read. -/
theorem breaker_refines (failureThreshold : Nat) (timeoutSeconds : Rat) (ops : List BreakerOp)
    (now : Rat) (hpos : 1 ≤ failureThreshold)
    (hmono : (ops.filterMap BreakerOp.instant? ++ [now]).Pairwise (· ≤ ·)) :
    (((new failureThreshold timeoutSeconds).performAll ops).readState now).1 =
        Recorded.stateOf failureThreshold timeoutSeconds (ops.filterMap BreakerOp.recorded?) now ∧
      ((((new failureThreshold timeoutSeconds).performAll ops).allowsRequest now).1 = true ↔
        Recorded.stateOf failureThreshold timeoutSeconds (ops.filterMap BreakerOp.recorded?) now ≠
          .openState) ∧
      ∀ ops' : List BreakerOp, (ops'.filterMap BreakerOp.instant? ++ [now]).Pairwise (· ≤ ·) →
        ops'.filterMap BreakerOp.recorded? = ops.filterMap BreakerOp.recorded? →
        (((new failureThreshold timeoutSeconds).performAll ops').readState now).1 =
          (((new failureThreshold timeoutSeconds).performAll ops).readState now).1 := by
  have htracks := new_performAll_tracks hpos timeoutSeconds hmono
  have hanswer := htracks.readState_eq
  refine ⟨hanswer, ?_, ?_⟩
  · rw [allowsRequest_eq, hanswer]
    simp
  · intro ops' hmono' hsame
    have htracks' := new_performAll_tracks hpos timeoutSeconds hmono'
    rw [htracks'.readState_eq, hsame, hanswer]

/-- Five failures, a reading after the timeout, and a failure while half-open. -/
theorem breaker_refines_reopened :
    (((new 5 30).performAll
        [.recordFailure 1, .recordFailure 2, .recordFailure 3, .recordFailure 4,
          .recordFailure 5, .state 40, .recordFailure 41]).readState 50).1 =
      Recorded.stateOf 5 30 [.failure 1, .failure 2, .failure 3, .failure 4, .failure 5,
        .failure 41] 50 :=
  (breaker_refines 5 30 _ 50 (by decide) (by decide +kernel)).1

end CircuitBreaker

end PaymentConnector
