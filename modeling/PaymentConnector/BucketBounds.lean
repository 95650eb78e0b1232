import Mathlib.Data.List.Chain
import Mathlib.Tactic.NormNum
import Mathlib.Tactic.Ring
import PaymentConnector.RateLimit

/-!
# One token bucket

Runs of `consume()` on one bucket, for every rate and capacity.  While the clock does not
go back, a window admits no more than a full bucket and its refill, and whoever keeps to
the rate is never rejected.  `consume` reads the wall clock, though, and takes the elapsed
time as it comes: a clock that is set back takes tokens away.

## Main results

* `TokenBucket.window_bound` — what a window of a run accepts.
* `TokenBucket.bucket_bounds` — the bound and the promise, together.
* `TokenBucket.withinBounds_iff` — how far a clock may be set back.
-/

namespace PaymentConnector

open Library Library.Machine

/-- What a call of `consume()` makes visible. -/
structure Consumed where
  now : Rat
  accepted : Bool
  deriving DecidableEq

/-- How many calls were accepted between `s` and `u`. -/
def acceptedIn (s u : Rat) (tr : List Consumed) : Nat :=
  tr.countP (fun call => call.accepted && s ≤ call.now && call.now ≤ u)

namespace TokenBucket

/-- One `consume()`, at whatever the clock reads. -/
def step (b : TokenBucket) (now : Rat) : Option (TokenBucket × List Consumed) :=
  some ((b.consume 1 now).2, [⟨now, (b.consume 1 now).1⟩])

/-- One `consume()`, at a clock reading that does not go back. -/
def stepForward (b : TokenBucket) (now : Rat) : Option (TokenBucket × List Consumed) :=
  if b.lastRefill ≤ now then b.step now else none

variable {b b' : TokenBucket} {rate capacity now s u : Rat} {tr obs : List Consumed}

/-! ## One call -/

theorem stepForward_eq (h : b.stepForward now = some (b', obs)) :
    b.lastRefill ≤ now ∧ b' = (b.consume 1 now).2 ∧ obs = [⟨now, (b.consume 1 now).1⟩] := by
  unfold stepForward step at h
  split at h
  · rename_i hforward
    rw [Option.some.injEq, Prod.mk.injEq] at h
    exact ⟨hforward, h.1.symm, h.2.symm⟩
  · cases h

/-- A call is accepted when the refill leaves a token. -/
theorem consume_accepted_iff (b : TokenBucket) (now : Rat) :
    (b.consume 1 now).1 = true ↔ 1 ≤ b.refilled now := by
  unfold consume
  split
  · rename_i henough
    exact iff_of_true rfl henough
  · rename_i hshort
    exact iff_of_false (by simp) hshort

theorem acceptedIn_append (s u : Rat) (tr obs : List Consumed) :
    acceptedIn s u (tr ++ obs) = acceptedIn s u tr + acceptedIn s u obs :=
  List.countP_append

theorem acceptedIn_inside (hs : s ≤ now) (hu : now ≤ u) (accepted : Bool) :
    (acceptedIn s u [⟨now, accepted⟩] : Rat) = if accepted = true then 1 else 0 := by
  cases accepted <;> simp [acceptedIn, hs, hu]

theorem acceptedIn_outside (h : ¬ (s ≤ now ∧ now ≤ u)) (accepted : Bool) :
    acceptedIn s u [⟨now, accepted⟩] = 0 := by
  have hout : ¬ (accepted = true ∧ s ≤ now ∧ now ≤ u) := fun hin => h hin.2
  simpa [acceptedIn, and_assoc] using hout

/-! ## The bound over a window -/

/-- What was accepted between `s` and `u` is paid for by a full bucket and the refill
since `s`, and inside the window so are the tokens that are left. -/
structure Paid (rate capacity s u : Rat) (b : TokenBucket) (tr : List Consumed) : Prop where
  sound : b.Sound rate capacity b.lastRefill
  early : b.lastRefill < s → acceptedIn s u tr = 0
  inside : s ≤ b.lastRefill → b.lastRefill ≤ u →
    (acceptedIn s u tr : Rat) + b.tokens ≤ capacity + rate * (b.lastRefill - s)
  bound : (acceptedIn s u tr : Rat) ≤ capacity + rate * (u - s)

theorem new_paid (hrate : 0 ≤ rate) (hcapacity : 0 ≤ capacity) (hwindow : s ≤ u) (created : Rat) :
    (new rate capacity created).Paid rate capacity s u [] where
  sound := new_sound hcapacity
  early := fun _ => rfl
  inside := by
    intro hs _
    have hrefill : 0 ≤ rate * (created - s) := mul_nonneg hrate (sub_nonneg.mpr hs)
    show ((0 : Nat) : Rat) + capacity ≤ capacity + rate * (created - s)
    rw [Nat.cast_zero]
    linarith
  bound := by
    have hrefill : 0 ≤ rate * (u - s) := mul_nonneg hrate (sub_nonneg.mpr hwindow)
    show ((0 : Nat) : Rat) ≤ capacity + rate * (u - s)
    rw [Nat.cast_zero]
    linarith

/-- A refill adds what the rate allows and stays within the capacity. -/
theorem Sound.refilled_le (h : b.Sound rate capacity b.lastRefill) (now : Rat) :
    b.refilled now ≤ b.tokens + rate * (now - b.lastRefill) ∧ b.refilled now ≤ capacity := by
  unfold refilled
  rw [h.rate_eq, h.capacity_eq, mul_comm]
  exact ⟨min_le_right _ _, min_le_left _ _⟩

/-- An accepted call pays with a token. -/
theorem Paid.step (hrate : 0 ≤ rate) (h : b.Paid rate capacity s u tr)
    (hstep : b.stepForward now = some (b', obs)) : b'.Paid rate capacity s u (tr ++ obs) := by
  obtain ⟨hforward, rfl, rfl⟩ := stepForward_eq hstep
  have hsound := (h.sound.mono hforward).consume hrate
  have hlast := b.consume_lastRefill 1 now
  have htokens := b.consume_tokens now
  have hfill := h.sound.refilled_le now
  generalize b.consume 1 now = r at hsound hlast htokens ⊢
  obtain ⟨accepted, b'⟩ := r
  dsimp only at hsound hlast htokens ⊢
  -- Before the window there was nothing, so a full bucket is enough.
  have hinside : s ≤ now → now ≤ u →
      (acceptedIn s u (tr ++ [⟨now, accepted⟩]) : Rat) + b'.tokens ≤
        capacity + rate * (now - s) := by
    intro hs hu
    have hsplit : rate * (now - s) =
        rate * (b.lastRefill - s) + rate * (now - b.lastRefill) := by ring
    rw [acceptedIn_append, Nat.cast_add, acceptedIn_inside hs hu]
    by_cases hbefore : b.lastRefill < s
    · have hrefill : 0 ≤ rate * (now - s) := mul_nonneg hrate (sub_nonneg.mpr hs)
      rw [h.early hbefore, Nat.cast_zero]
      linarith [hfill.2]
    · have hpaid := h.inside (not_lt.mp hbefore) (le_trans hforward hu)
      linarith [hfill.1]
  refine ⟨hlast ▸ hsound, ?_, ?_, ?_⟩
  · intro hbefore
    rw [hlast] at hbefore
    rw [acceptedIn_append, h.early (lt_of_le_of_lt hforward hbefore),
      acceptedIn_outside (fun hin => absurd hin.1 (not_le.mpr hbefore))]
  · rw [hlast]
    exact hinside
  · by_cases hin : s ≤ now ∧ now ≤ u
    · have hpaid := hinside hin.1 hin.2
      have hmore : rate * (now - s) ≤ rate * (u - s) :=
        mul_le_mul_of_nonneg_left (by linarith [hin.2]) hrate
      have hnonneg := hsound.nonneg
      linarith
    · rw [acceptedIn_append, acceptedIn_outside hin, Nat.add_zero]
      exact h.bound

/-- A window accepts no more than a full bucket and its refill. -/
theorem window_bound (hrate : 0 ≤ rate) (hcapacity : 0 ≤ capacity) {created : Rat}
    {calls : List Rat} (hrun : run stepForward (new rate capacity created) calls = some (b, tr))
    (hwindow : s ≤ u) : b.Paid rate capacity s u tr :=
  run_invariant (fun _ _ _ _ _ hpaid hstep => hpaid.step hrate hstep)
    (new_paid hrate hcapacity hwindow created) hrun

/-! ## Keeping to the rate -/

/-- A token is refilled in `1 / rate`. -/
theorem Sound.accepts (hrate : 0 < rate) (hcapacity : 1 ≤ capacity)
    (h : b.Sound rate capacity b.lastRefill) (hnow : b.lastRefill + 1 / rate ≤ now) :
    (b.consume 1 now).1 = true := by
  have hone : 1 ≤ (now - b.lastRefill) * rate :=
    (div_le_iff₀ hrate).mp (by linarith)
  have hnonneg := h.nonneg
  rw [consume_accepted_iff, refilled, h.rate_eq, h.capacity_eq]
  exact le_min hcapacity (by linarith)

/-- The refill of a run's end was at its last call. -/
theorem run_lastRefill {b₀ : TokenBucket} {calls : List Rat}
    (hrun : run stepForward b₀ calls = some (b, tr)) {prev : Rat}
    (hprev : calls.getLast? = some prev) : b.lastRefill = prev := by
  obtain ⟨before, rfl⟩ := List.getLast?_eq_some_iff.mp hprev
  obtain ⟨b₁, tr₁, obs, -, hstep, -⟩ := run_concat_iff.mp hrun
  obtain ⟨-, rfl, -⟩ := stepForward_eq hstep
  exact consume_lastRefill b₁ 1 prev

/-- After every run, a call that keeps its distance from the previous one is accepted. -/
theorem run_accepts (hrate : 0 < rate) (hcapacity : 1 ≤ capacity) {created : Rat}
    {calls : List Rat} (hrun : run stepForward (new rate capacity created) calls = some (b, tr))
    (hforward : b.lastRefill ≤ now)
    (hprev : ∀ prev, calls.getLast? = some prev → prev + 1 / rate ≤ now) :
    (b.consume 1 now).1 = true := by
  have hpaid := window_bound (le_of_lt hrate) (le_trans zero_le_one hcapacity) hrun (le_refl 0)
  cases hlast : calls.getLast? with
  | none =>
      rw [List.getLast?_eq_none_iff] at hlast
      subst hlast
      obtain ⟨rfl, -⟩ := run_nil_iff.mp hrun
      exact (consume_new (le_of_lt hrate) hcapacity hforward).1
  | some prev =>
      apply hpaid.sound.accepts hrate hcapacity
      rw [run_lastRefill hrun hlast]
      exact hprev prev hlast

/-- A client that keeps to the rate is never rejected. -/
theorem paced_accepted (hrate : 0 < rate) (hcapacity : 1 ≤ capacity) {created : Rat}
    {calls : List Rat} (hrun : run stepForward (new rate capacity created) calls = some (b, tr)) :
    calls.IsChain (fun prev now => prev + 1 / rate ≤ now) →
      ∀ call ∈ tr, call.accepted = true := by
  refine run_history_invariant
    (I := fun calls _ tr => calls.IsChain (fun prev now => prev + 1 / rate ≤ now) →
      ∀ call ∈ tr, call.accepted = true) ?_ (fun _ _ h => absurd h List.not_mem_nil) hrun
  intro calls b tr now b' obs hprefix hI hstep hpaced call hcall
  obtain ⟨hforward, -, rfl⟩ := stepForward_eq hstep
  obtain ⟨hbefore, -, hgap⟩ := List.isChain_append.mp hpaced
  rcases List.mem_append.mp hcall with hold | hnew
  · exact hI hbefore call hold
  · rw [List.mem_singleton.mp hnew]
    exact run_accepts hrate hcapacity hprefix hforward
      (fun prev hprev => hgap prev hprev now rfl)

/-- For every rate and capacity and every run of calls at readings that do not go back: a
window of length `T` accepts at most `capacity + rate * T` calls, a call `1 / rate` after
the previous one is accepted in whatever state, and so a client that keeps to the rate is
never rejected. -/
theorem bucket_bounds (rate capacity created : Rat) (hrate : 0 < rate) (hcapacity : 1 ≤ capacity)
    (calls : List Rat) (b : TokenBucket) (tr : List Consumed)
    (hrun : run stepForward (new rate capacity created) calls = some (b, tr)) :
    (∀ s T : Rat, 0 ≤ T → (acceptedIn s (s + T) tr : Rat) ≤ capacity + rate * T) ∧
      (∀ now, b.lastRefill ≤ now →
        (∀ prev, calls.getLast? = some prev → prev + 1 / rate ≤ now) →
          (b.consume 1 now).1 = true) ∧
      (calls.IsChain (fun prev now => prev + 1 / rate ≤ now) →
        ∀ call ∈ tr, call.accepted = true) := by
  refine ⟨?_, fun now hforward hprev => run_accepts hrate hcapacity hrun hforward hprev,
    paced_accepted hrate hcapacity hrun⟩
  intro s T hT
  have hbound := (window_bound (le_of_lt hrate) (le_trans zero_le_one hcapacity) hrun
    (by linarith : s ≤ s + T)).bound
  rwa [add_sub_cancel_left] at hbound

/-- Three calls on a bucket of two tokens: the third is early. -/
theorem bucket_bounds_burst :
    ∃ b tr, run stepForward (new 1 2 0) [0, 0, 0] = some (b, tr) ∧
      tr.map Consumed.accepted = [true, true, false] ∧
      (acceptedIn 0 (0 + 1) tr : Rat) ≤ 2 + 1 * 1 ∧ (b.consume 1 1).1 = true := by
  obtain ⟨b, tr, hrun, haccepted⟩ : ∃ b tr, run stepForward (new 1 2 0) [0, 0, 0] = some (b, tr) ∧
      (b.lastRefill = 0 ∧ tr.map Consumed.accepted = [true, true, false]) :=
    exists_run (by decide +kernel)
  have hall := bucket_bounds 1 2 0 (by norm_num) (by norm_num) [0, 0, 0] b tr hrun
  refine ⟨b, tr, hrun, haccepted.2, hall.1 0 1 zero_le_one, hall.2.1 1 ?_ ?_⟩
  · rw [haccepted.1]
    exact zero_le_one
  · intro prev hprev
    cases hprev
    norm_num

/-! ## A clock that is set back -/

/-- The tokens are between none and a full bucket. -/
structure WithinBounds (b : TokenBucket) : Prop where
  nonneg : 0 ≤ b.tokens
  le_capacity : b.tokens ≤ b.capacity

/-- Nobody has to wait for longer than it takes to refill one token. -/
def Prompt (b : TokenBucket) : Prop :=
  ∀ now, b.lastRefill + 1 / b.rate ≤ now → (b.consume 1 now).1 = true

/-- The clock is set back by no more than it took to refill the tokens that are there. -/
def SetBackWithin (b : TokenBucket) (now : Rat) : Prop :=
  b.lastRefill - now ≤ b.tokens / b.rate

instance (b : TokenBucket) (now : Rat) : Decidable (b.SetBackWithin now) :=
  inferInstanceAs (Decidable (_ ≤ _))

/-- What no call changes. -/
structure Configured (rate capacity : Rat) (b : TokenBucket) : Prop where
  rate_eq : b.rate = rate
  capacity_eq : b.capacity = capacity
  le_capacity : b.tokens ≤ capacity

theorem Configured.step (h : b.Configured rate capacity) (hstep : b.step now = some (b', obs)) :
    b'.Configured rate capacity := by
  obtain ⟨rfl, -⟩ := Prod.mk.inj (Option.some.inj hstep)
  have hle : b.refilled now ≤ capacity := by
    rw [← h.capacity_eq]
    exact min_le_left _ _
  unfold consume
  split
  · refine ⟨h.rate_eq, h.capacity_eq, ?_⟩
    show b.refilled now - 1 ≤ capacity
    linarith
  · exact ⟨h.rate_eq, h.capacity_eq, hle⟩

/-- With a token or more in a full bucket, being prompt is having no debt. -/
theorem Configured.prompt_iff (hrate : 0 < rate) (hcapacity : 1 ≤ capacity)
    (h : b.Configured rate capacity) : b.Prompt ↔ 0 ≤ b.tokens := by
  constructor
  · intro hprompt
    have haccepted := hprompt (b.lastRefill + 1 / b.rate) (le_refl _)
    rw [consume_accepted_iff, refilled, add_sub_cancel_left, h.rate_eq,
      one_div_mul_cancel (ne_of_gt hrate), le_min_iff] at haccepted
    linarith [haccepted.2]
  · intro hnonneg now hnow
    have hsound : b.Sound rate capacity b.lastRefill :=
      ⟨h.rate_eq, h.capacity_eq, hnonneg, h.le_capacity, le_refl _⟩
    apply hsound.accepts hrate hcapacity
    rwa [h.rate_eq] at hnow

/-- A call leaves no debt when the refill does not. -/
theorem consume_tokens_nonneg_iff (b : TokenBucket) (now : Rat) :
    0 ≤ (b.consume 1 now).2.tokens ↔ 0 ≤ b.refilled now := by
  unfold consume
  split
  · rename_i henough
    have hpositive : 0 ≤ b.refilled now := le_trans zero_le_one henough
    exact iff_of_true (sub_nonneg.mpr henough) hpositive
  · exact Iff.rfl

/-- The refill leaves no debt when the clock was not set back too far. -/
theorem Configured.refilled_nonneg_iff (hrate : 0 < rate) (hcapacity : 0 ≤ capacity)
    (h : b.Configured rate capacity) (now : Rat) :
    0 ≤ b.refilled now ↔ b.SetBackWithin now := by
  have hdebt : (now - b.lastRefill) * rate = -((b.lastRefill - now) * rate) := by ring
  rw [refilled, SetBackWithin, h.capacity_eq, h.rate_eq, le_div_iff₀ hrate, le_min_iff, hdebt]
  constructor
  · intro hboth
    linarith [hboth.2]
  · exact fun hle => ⟨hcapacity, by linarith⟩

/-- A call keeps the tokens in their range, and everybody's wait short, exactly when the
clock was not set back too far before it. -/
theorem Configured.step_iff (hrate : 0 < rate) (hcapacity : 1 ≤ capacity)
    (h : b.Configured rate capacity) (hstep : b.step now = some (b', obs)) :
    (b'.WithinBounds ∧ b'.Prompt) ↔ b.SetBackWithin now := by
  have hconfigured := h.step hstep
  have hle : b'.tokens ≤ b'.capacity := by
    rw [hconfigured.capacity_eq]
    exact hconfigured.le_capacity
  have hbounds : b'.WithinBounds ↔ 0 ≤ b'.tokens :=
    ⟨WithinBounds.nonneg, fun hnonneg => ⟨hnonneg, hle⟩⟩
  rw [hconfigured.prompt_iff hrate hcapacity, hbounds, and_self]
  obtain ⟨rfl, -⟩ := Prod.mk.inj (Option.some.inj hstep)
  rw [consume_tokens_nonneg_iff, h.refilled_nonneg_iff hrate (le_trans zero_le_one hcapacity)]

/-- A call is possible at every reading. -/
theorem exists_run_step (calls : List Rat) :
    ∀ b : TokenBucket, ∃ b' tr, run step b calls = some (b', tr) := by
  induction calls with
  | nil => exact fun b => ⟨b, [], rfl⟩
  | cons now calls ih =>
      intro b
      obtain ⟨b', tr, hrun⟩ := ih (b.consume 1 now).2
      exact ⟨b', _, run_cons_iff.mpr ⟨_, _, tr, rfl, hrun, rfl⟩⟩

/-- In every run of calls at any readings, the tokens stay in their range and a token is
never more than its refill away exactly when, before each call, the clock is set back by
no more than it took to refill the tokens that are there. -/
theorem withinBounds_iff (rate capacity created : Rat) (hrate : 0 < rate)
    (hcapacity : 1 ≤ capacity) (calls : List Rat) :
    Throughout step (fun b => b.WithinBounds ∧ b.Prompt) (new rate capacity created) calls ↔
      Along step SetBackWithin (new rate capacity created) calls := by
  have hnew : (new rate capacity created).Configured rate capacity := ⟨rfl, rfl, le_refl _⟩
  have hnonneg : 0 ≤ (new rate capacity created).tokens := le_trans zero_le_one hcapacity
  obtain ⟨b, tr, hrun⟩ := exists_run_step calls (new rate capacity created)
  exact throughout_iff_along (fun _ _ _ _ hconfigured hstep => hconfigured.step hstep)
    (fun _ _ _ _ hconfigured _ hstep => hconfigured.step_iff hrate hcapacity hstep) hnew
    ⟨⟨hnonneg, le_refl _⟩, (hnew.prompt_iff hrate hcapacity).mpr hnonneg⟩ hrun

/-- A clock that stays where it is. -/
theorem withinBounds_iff_steady :
    Throughout step (fun b => b.WithinBounds ∧ b.Prompt) (new 100 100 0) [0, 0] ∧
      Along step SetBackWithin (new 100 100 0) [0, 0] := by
  have hsteady : Along step SetBackWithin (new 100 100 0) [0, 0] := by decide +kernel
  exact ⟨(withinBounds_iff 100 100 0 (by norm_num) (by norm_num) [0, 0]).mpr hsteady, hsteady⟩

/-- One request, and the clock is set back by ten seconds: nine seconds after the next
request, which is rejected, the bucket still owes a token. -/
theorem not_withinBounds_setBack :
    ∃ b tr, run step (new 100 100 0) [0, -10] = some (b, tr) ∧
      tr.map Consumed.accepted = [true, false] ∧ ¬ b.WithinBounds ∧ ¬ b.Prompt := by
  obtain ⟨b, tr, hrun, ⟨haccepted, htokens⟩, hlast, hrate, hrejected⟩ :
      ∃ b tr, run step (new 100 100 0) [0, -10] = some (b, tr) ∧
        ((tr.map Consumed.accepted = [true, false] ∧ b.tokens = -901) ∧
          b.lastRefill = -10 ∧ b.rate = 100 ∧ (b.consume 1 (-1)).1 = false) :=
    exists_run (by decide +kernel)
  refine ⟨b, tr, hrun, haccepted, ?_, ?_⟩
  · intro hbounds
    have hnonneg := hbounds.nonneg
    rw [htokens] at hnonneg
    norm_num at hnonneg
  · intro hprompt
    have hnow : b.lastRefill + 1 / b.rate ≤ -1 := by
      rw [hlast, hrate]
      norm_num
    rw [hprompt (-1) hnow] at hrejected
    cases hrejected

end TokenBucket

end PaymentConnector
