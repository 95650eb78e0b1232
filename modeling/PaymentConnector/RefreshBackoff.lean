import PaymentConnector.Service

/-!
# The delays of the refresh loop

`_refresh_loop` sleeps before each load: for the check interval, or after `k` failed
loads in a row for the interval times `2 ^ k`, cut off at five minutes.  An interval of
more than five minutes is cut off as well, so a failing Vault is then asked more often
than a working one.

## Main results

* `RefreshLoop.backsOff_iff` — the loop backs off exactly when its interval is no more
  than the cap, or nothing but its last load fails.
* `Service.load_refreshes` — the loop is the one of the whole process.
-/

namespace PaymentConnector

open Library Library.Machine

/-- How the load of an iteration ends: `load_credentials` returns, or there is an
exception. -/
inductive LoadOutcome
  | returned (success : Bool)
  | raised (exc : PyExc)

def LoadOutcome.success : LoadOutcome → Bool
  | .returned success => success
  | .raised _ => false

/-- The `check_interval` of `__init__`. -/
def checkIntervalOf (settings : Settings) (checkInterval : Option Int) : Int :=
  checkInterval.getD settings.credentialCheckInterval

/-- The variables that the loop reads and keeps. -/
structure RefreshLoop where
  checkInterval : Int
  consecutiveErrors : Nat

/-- One iteration: the seconds slept, and how the load after it ended. -/
structure Iteration where
  slept : Int
  outcome : LoadOutcome

namespace RefreshLoop

/-- Before the first iteration. -/
def start (checkInterval : Int) : RefreshLoop := ⟨checkInterval, 0⟩

/-- The argument of `asyncio.sleep`. -/
def delay (l : RefreshLoop) : Int :=
  if 0 < l.consecutiveErrors then min (l.checkInterval * 2 ^ l.consecutiveErrors) maxBackoff
  else l.checkInterval

/-- The count of errors after a load. -/
def after (l : RefreshLoop) : LoadOutcome → RefreshLoop
  | .returned true => { l with consecutiveErrors := 0 }
  | .returned false | .raised _ => { l with consecutiveErrors := l.consecutiveErrors + 1 }

/-- One iteration. -/
def step (l : RefreshLoop) (outcome : LoadOutcome) : Option (RefreshLoop × List Iteration) :=
  some (l.after outcome, [⟨l.delay, outcome⟩])

end RefreshLoop

/-- The delay of an iteration, seen with those before it: within its bounds, no shorter
than the last one when that failed, and the interval again when it did not. -/
structure Iteration.BacksOff (checkInterval : Int) (before : List Iteration) (it : Iteration) :
    Prop where
  at_least : checkInterval ≤ it.slept
  at_most : it.slept ≤ max checkInterval maxBackoff
  grows : ∀ last, before.getLast? = some last → last.outcome.success = false →
    last.slept ≤ it.slept
  resets : ∀ last, before.getLast? = some last → last.outcome.success = true →
    it.slept = checkInterval

namespace RefreshLoop

variable {l l' : RefreshLoop} {outcome : LoadOutcome} {checkInterval : Int}
  {tr obs : List Iteration}

/-! ## One delay -/

@[simp] theorem after_checkInterval (l : RefreshLoop) (outcome : LoadOutcome) :
    (l.after outcome).checkInterval = l.checkInterval := by
  cases outcome with
  | raised exc => rfl
  | returned success => cases success <;> rfl

theorem after_of_success (h : outcome.success = true) :
    (l.after outcome).consecutiveErrors = 0 := by
  cases outcome with
  | raised exc => cases h
  | returned success =>
      cases success with
      | false => cases h
      | true => rfl

theorem after_of_failure (h : outcome.success = false) :
    (l.after outcome).consecutiveErrors = l.consecutiveErrors + 1 := by
  cases outcome with
  | raised exc => rfl
  | returned success =>
      cases success with
      | false => rfl
      | true => cases h

theorem delay_of_no_errors (h : l.consecutiveErrors = 0) : l.delay = l.checkInterval := by
  rw [delay, h, if_neg (Nat.lt_irrefl 0)]

/-- The interval is at least doubled after an error. -/
private theorem two_mul_le_mul_pow {interval : Int} (h : 1 ≤ interval) (k : Nat) :
    interval * 2 ^ k * 2 = interval * 2 ^ (k + 1) ∧ interval ≤ interval * 2 ^ k := by
  have hpow : (1 : Int) ≤ 2 ^ k := by
    have hnat : 1 ≤ 2 ^ k := Nat.one_le_two_pow
    exact_mod_cast hnat
  refine ⟨by rw [pow_succ, mul_assoc], ?_⟩
  calc interval = interval * 1 := (mul_one interval).symm
    _ ≤ interval * 2 ^ k := mul_le_mul_of_nonneg_left hpow (by omega)

/-- An interval within the cap is never undercut. -/
theorem delay_bounds (hinterval : 1 ≤ l.checkInterval) (hcap : l.checkInterval ≤ maxBackoff) :
    l.checkInterval ≤ l.delay ∧ l.delay ≤ maxBackoff := by
  have hgrown := (two_mul_le_mul_pow hinterval l.consecutiveErrors).2
  unfold delay
  split
  · omega
  · exact ⟨le_refl _, hcap⟩

/-- Within the cap an error makes the delay no shorter. -/
theorem delay_le_after (hinterval : 1 ≤ l.checkInterval) (hcap : l.checkInterval ≤ maxBackoff)
    (h : outcome.success = false) : l.delay ≤ (l.after outcome).delay := by
  have hgrown := two_mul_le_mul_pow hinterval l.consecutiveErrors
  have hafter : (l.after outcome).delay =
      min (l.checkInterval * 2 ^ (l.consecutiveErrors + 1)) maxBackoff := by
    rw [delay, after_of_failure h, after_checkInterval, if_pos (Nat.succ_pos _)]
  rw [hafter, ← hgrown.1, delay]
  split
  · omega
  · omega

/-- Beyond it the delay after an error is the cap. -/
theorem delay_of_errors (hcap : maxBackoff < l.checkInterval) (h : 0 < l.consecutiveErrors) :
    l.delay = maxBackoff := by
  have hinterval : 1 ≤ l.checkInterval := by
    rw [maxBackoff] at hcap
    omega
  have hgrown := (two_mul_le_mul_pow hinterval l.consecutiveErrors).2
  rw [delay, if_pos h]
  omega

/-! ## Runs -/

/-- What the loop has kept of its last iteration. -/
structure Follows (checkInterval : Int) (l : RefreshLoop) (tr : List Iteration) : Prop where
  interval_eq : l.checkInterval = checkInterval
  fresh : tr = [] → l.consecutiveErrors = 0
  reset : ∀ last, tr.getLast? = some last → last.outcome.success = true →
    l.consecutiveErrors = 0
  counted : ∀ last, tr.getLast? = some last → last.outcome.success = false →
    0 < l.consecutiveErrors ∧ (checkInterval ≤ maxBackoff → last.slept ≤ l.delay)

theorem start_follows : (start checkInterval).Follows checkInterval [] where
  interval_eq := rfl
  fresh := fun _ => rfl
  reset := fun _ hlast => by cases hlast
  counted := fun _ hlast => by cases hlast

theorem Follows.step (hinterval : 1 ≤ checkInterval) (h : l.Follows checkInterval tr)
    (hstep : l.step outcome = some (l', obs)) : l'.Follows checkInterval (tr ++ obs) := by
  obtain ⟨rfl, rfl⟩ := Prod.mk.inj (Option.some.inj hstep)
  have hlast : (tr ++ [Iteration.mk l.delay outcome]).getLast? = some ⟨l.delay, outcome⟩ :=
    List.getLast?_concat
  refine ⟨?_, ?_, ?_, ?_⟩
  · rw [after_checkInterval]
    exact h.interval_eq
  · exact fun hnil => absurd hnil (List.append_ne_nil_of_right_ne_nil _ (List.cons_ne_nil _ _))
  · intro last hsome hsuccess
    rw [hlast, Option.some.injEq] at hsome
    rw [← hsome] at hsuccess
    exact after_of_success hsuccess
  · intro last hsome hfailure
    rw [hlast, Option.some.injEq] at hsome
    rw [← hsome] at hfailure ⊢
    refine ⟨?_, fun hcap => ?_⟩
    · rw [after_of_failure hfailure]
      exact Nat.succ_pos _
    · rw [← h.interval_eq] at hinterval hcap
      exact delay_le_after hinterval hcap hfailure

/-- The next delay is as it should be when the interval is within the cap, or nothing has
failed since the last success. -/
theorem Follows.step_backsOff_iff (hinterval : 1 ≤ checkInterval) (h : l.Follows checkInterval tr)
    (hstep : l.step outcome = some (l', obs)) :
    Chronicle (Iteration.BacksOff checkInterval) tr obs ↔
      (checkInterval ≤ maxBackoff ∨ l.consecutiveErrors = 0) := by
  obtain ⟨-, rfl⟩ := Prod.mk.inj (Option.some.inj hstep)
  have heq := h.interval_eq
  rw [chronicle_singleton]
  constructor
  · intro hbacks
    by_contra hneither
    obtain ⟨hcap, herrors⟩ := not_or.mp hneither
    have hdelay : l.delay = maxBackoff :=
      delay_of_errors (by omega) (Nat.pos_of_ne_zero herrors)
    have hle : checkInterval ≤ l.delay := hbacks.at_least
    omega
  · intro heither
    by_cases hcap : checkInterval ≤ maxBackoff
    · have hbounds := delay_bounds (l := l) (by omega) (by omega)
      rw [heq] at hbounds
      refine ⟨hbounds.1, ?_, ?_, ?_⟩
      · exact le_trans hbounds.2 (le_max_right _ _)
      · exact fun last hlast hfailure => (h.counted last hlast hfailure).2 hcap
      · exact fun last hlast hsuccess =>
          (delay_of_no_errors (h.reset last hlast hsuccess)).trans heq
    · have herrors : l.consecutiveErrors = 0 := heither.resolve_left hcap
      have hdelay : l.delay = checkInterval := (delay_of_no_errors herrors).trans heq
      refine ⟨le_of_eq hdelay.symm, hdelay ▸ le_max_left _ _, ?_, fun _ _ _ => hdelay⟩
      intro last hlast hfailure
      have hpos := (h.counted last hlast hfailure).1
      omega

/-- Before no load has there been an error since the last success exactly when no load
but the last one fails. -/
theorem along_no_errors_iff (outcomes : List LoadOutcome) :
    ∀ l : RefreshLoop, Along step (fun l _ => l.consecutiveErrors = 0) l outcomes ↔
      (outcomes ≠ [] → l.consecutiveErrors = 0) ∧
        ∀ outcome ∈ outcomes.dropLast, outcome.success = true := by
  induction outcomes with
  | nil =>
      exact fun l => iff_of_true trivial
        ⟨fun hne => absurd rfl hne, fun _ h => absurd h List.not_mem_nil⟩
  | cons outcome outcomes ih =>
      intro l
      have hnext : (∀ l₁ o₁, l.step outcome = some (l₁, o₁) →
          Along step (fun l _ => l.consecutiveErrors = 0) l₁ outcomes) ↔
            Along step (fun l _ => l.consecutiveErrors = 0) (l.after outcome) outcomes :=
        ⟨fun h => h _ _ rfl, fun h l₁ o₁ hstep => (Prod.mk.inj (Option.some.inj hstep)).1 ▸ h⟩
      show l.consecutiveErrors = 0 ∧ _ ↔ _
      rw [hnext, ih]
      cases outcomes with
      | nil => simp
      | cons second outcomes =>
          have hsuccess : (l.after outcome).consecutiveErrors = 0 ↔ outcome.success = true := by
            cases hcase : outcome.success with
            | true => exact iff_of_true (after_of_success hcase) rfl
            | false =>
                rw [after_of_failure hcase]
                simp
          simp [List.dropLast_cons_cons, hsuccess]

/-- For every interval, the delays before the loads of a run are as they should be exactly
when the interval is within the cap or no load but the last one fails. -/
theorem backsOff_iff (settings : Settings) (interval : Option Int)
    (hinterval : 1 ≤ checkIntervalOf settings interval) (outcomes : List LoadOutcome)
    (l : RefreshLoop) (tr : List Iteration)
    (hrun : run step (start (checkIntervalOf settings interval)) outcomes = some (l, tr)) :
    Chronicle (Iteration.BacksOff (checkIntervalOf settings interval)) [] tr ↔
      (checkIntervalOf settings interval ≤ maxBackoff ∨
        ∀ outcome ∈ outcomes.dropLast, outcome.success = true) := by
  generalize checkIntervalOf settings interval = checkInterval at hinterval hrun ⊢
  have halong : Chronicle (Iteration.BacksOff checkInterval) [] tr ↔
      Along (recording step)
        (fun q _ => checkInterval ≤ maxBackoff ∨ q.1.consecutiveErrors = 0)
        (start checkInterval, []) outcomes :=
    chronicle_iff_along (fun _ _ _ _ _ hfollows hstep _ => hfollows.step hinterval hstep)
      (fun _ _ _ _ _ hfollows hstep => hfollows.step_backsOff_iff hinterval hstep) start_follows
      hrun
  rw [halong, along_recording_iff
    (C := fun (l : RefreshLoop) (_ : LoadOutcome) =>
      checkInterval ≤ maxBackoff ∨ l.consecutiveErrors = 0)]
  by_cases hcap : checkInterval ≤ maxBackoff
  · exact iff_of_true (along_of_forall (fun _ _ _ => Or.inl hcap) _) (Or.inl hcap)
  · simp only [hcap, false_or]
    rw [along_no_errors_iff]
    exact and_iff_right (fun _ => rfl)

/-- The default interval, with a failing Vault. -/
theorem backsOff_iff_default :
    ∃ l tr, run step (start (checkIntervalOf {} none))
        [.returned false, .raised (.other "timeout"), .returned true] = some (l, tr) ∧
      tr.map Iteration.slept = [30, 60, 120] ∧
      Chronicle (Iteration.BacksOff (checkIntervalOf {} none)) [] tr ∧
        checkIntervalOf {} none ≤ maxBackoff := by
  have hcap : checkIntervalOf {} none ≤ maxBackoff := by decide
  have hiff := backsOff_iff {} none (by decide)
    [.returned false, .raised (.other "timeout"), .returned true] _ _ rfl
  exact ⟨_, _, rfl, rfl, hiff.mpr (Or.inl hcap), hcap⟩

/-- With an interval of ten minutes a failed load is followed by the next one after five. -/
theorem not_backsOff_ten_minutes :
    ∃ l tr, run step (start (checkIntervalOf {} (some 600)))
        [.returned false, .returned false] = some (l, tr) ∧
      tr.map Iteration.slept = [600, 300] ∧
      ¬ Chronicle (Iteration.BacksOff (checkIntervalOf {} (some 600))) [] tr := by
  refine ⟨_, _, rfl, rfl, ?_⟩
  intro hbacks
  have hle : (600 : Int) ≤ 300 := hbacks.2.1.at_least
  omega

end RefreshLoop

/-! ## The loop of the process -/

/-- The seconds that the loop goes to sleep for. -/
def ServiceObs.slept? : ServiceObs → Option Int
  | .asleep seconds => some seconds
  | _ => none

theorem slept?_refreshSleep (settings : Settings) (errors : Nat) :
    (refreshSleep settings errors).filterMap ServiceObs.slept? =
      [(RefreshLoop.mk settings.credentialCheckInterval errors).delay] := by
  unfold refreshSleep RefreshLoop.delay
  dsimp only
  split <;> rfl

theorem process_not_mem_refreshSleep (settings : Settings) (errors : Nat) (obs : Obs) :
    ¬ ServiceObs.process obs ∈ refreshSleep settings errors := by
  unfold refreshSleep
  dsimp only
  split <;> simp

theorem any_loadFailed_iff (obs : List Obs) :
    obs.any Obs.loadFailed = true ↔ Obs.loaded false ∈ obs := by
  rw [List.any_eq_true]
  constructor
  · intro h
    obtain ⟨x, hx, hfailed⟩ := h
    cases x with
    | loaded result =>
        cases result with
        | false => exact hx
        | true => cases hfailed
    | _ => cases hfailed
  · exact fun h => ⟨_, h, rfl⟩

/-- A load of the process, after the one at its start, is an iteration of the loop. -/
theorem Service.load_refreshes {s s' : Service} {env : Nat → VaultAttempt} {t : LoadReadings}
    {obs : List ServiceObs} {errors : Nat} (h : s.load env t = some (s', obs))
    (herrors : s.consecutiveErrors = some errors) :
    ∃ success loop,
      loop = (RefreshLoop.mk s.process.connector.settings.credentialCheckInterval errors).after
        (.returned success) ∧
      (success = false ↔ ServiceObs.process (.loaded false) ∈ obs) ∧
      s'.consecutiveErrors = some loop.consecutiveErrors ∧
      obs.filterMap ServiceObs.slept? = [loop.delay] := by
  simp only [load] at h
  split at h
  · cases h
  · rename_i read hread
    cases hstep : s.process.step (.load read t) with
    | none => simp [hstep] at h
    | some r =>
        simp only [hstep, Option.some.injEq, Prod.mk.injEq] at h
        obtain ⟨rfl, rfl⟩ := h
        have houtputs : ∀ outputs : List Output,
            (outputs.map ServiceObs.output).filterMap ServiceObs.slept? = [] := by
          intro outputs
          rw [List.filterMap_map]
          exact List.filterMap_none outputs
        have hprocess : (r.2.map ServiceObs.process).filterMap ServiceObs.slept? = [] := by
          rw [List.filterMap_map]
          exact List.filterMap_none r.2
        have hcount : s.errorsAfter r.2 =
            ((RefreshLoop.mk s.process.connector.settings.credentialCheckInterval errors).after
              (.returned (!r.2.any Obs.loadFailed))).consecutiveErrors := by
          unfold errorsAfter
          rw [herrors]
          dsimp only
          cases r.2.any Obs.loadFailed <;> rfl
        refine ⟨!r.2.any Obs.loadFailed, _, rfl, ?_, ?_, ?_⟩
        · rw [Bool.not_eq_false', any_loadFailed_iff]
          simp [process_not_mem_refreshSleep]
        · rw [hcount]
        · rw [List.filterMap_append, List.filterMap_append, houtputs, hprocess,
            slept?_refreshSleep, hcount, List.nil_append]
          cases r.2.any Obs.loadFailed <;> rfl

end PaymentConnector
